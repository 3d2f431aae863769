import Mathlib.Data.List.Forall2
import Runbook.Proofs.Identifiers

/-!
# Entries of a definition

A definition lists its steps, and each step lists its actions. What is built from the entries of a
list stands in the same order, one item for each entry, and an entry that cannot be built from ends
it all. The position of an entry, counted from one, gives an item what the entry does not say.

* `Definition.ActionFrom`, `Definition.StepFrom`: the item that an entry at a position describes.
* `Definition.Describes source x automation`: a definition describes an automation.
* `Definition.describes_of_read`: so it does when it is read.
-/

namespace Runbook.Definition

/-- An entry at a position of a step describes an action. -/
structure ActionFrom (source : Option String) (stepId : String) (position : Nat) (entry : Fields)
    (a : ActionItem) : Prop where
  id : a.id = textOr entry "id" s!"{stepId}-action-{position}"
  actionType : a.actionType = Fields.textAt entry "action_type"
  config : actionConfig source (Fields.get? entry "action_config") = .ok a.config
  order : a.order = orderOr entry "action_order" position
  name : a.name = Fields.textAt entry "name"

/-- An entry at a position of a definition describes a step. -/
structure StepFrom (source : Option String) (position : Nat) (entry : Fields) (s : Step) :
    Prop where
  id : s.id = textOr entry "id" s!"step-{position}"
  name : s.name = Fields.textAt entry "name"
  order : s.order = orderOr entry "step_order" position
  config : s.config = Fields.objectAt entry "config"
  actions : List.Forall₂ (fun x a => ActionFrom source s.id x.2 x.1.fields a)
    ((Fields.listAt entry "actions").zipIdx 1) s.actions

/-- A definition describes an automation: its steps stand for the entries of the definition, one for
each, in the same order. -/
structure Describes (source : Option String) (x : Json) (automation : Automation) : Prop where
  id : automation.id = textOr (Fields.objectAt x.fields "automation") "id" automation.name
  name : automation.name = Fields.textAt (Fields.objectAt x.fields "automation") "name"
  description : automation.description =
    Fields.textAt (Fields.objectAt x.fields "automation") "description"
  projectId : automation.projectId =
    Fields.textAt (Fields.objectAt x.fields "automation") "project_id"
  projectName : automation.projectName =
    Fields.textAt (Fields.objectAt x.fields "automation") "project_name"
  config : automation.config =
    (Fields.get? (Fields.objectAt x.fields "automation") "config").getD .null
  accepted : ∃ config, AutomationConfig.parse automation.config = .ok config
  steps : List.Forall₂ (fun y s => StepFrom source y.2 y.1.fields s)
    ((Fields.listAt x.fields "steps").zipIdx 1) automation.steps

variable {source : Option String} {position : Nat} {xs : List Json}

theorem actionFrom_of_action {stepId : String} {entry : Fields} {a : ActionItem}
    (h : action source stepId position entry = .ok a) :
    ActionFrom source stepId position entry a := by
  obtain ⟨config, hconfig, h⟩ := Json.exists_of_bind_eq_ok h
  cases h
  exact ⟨rfl, rfl, hconfig, rfl, rfl⟩

theorem actionsFrom_of_actions {stepId : String} {as : List ActionItem}
    (h : actions source stepId position xs = .ok as) :
    List.Forall₂ (fun x a => ActionFrom source stepId x.2 x.1.fields a) (xs.zipIdx position)
      as := by
  induction xs generalizing position as with
  | nil =>
    cases h
    exact .nil
  | cons x xs ih =>
    obtain ⟨first, hfirst, h⟩ := Json.exists_of_bind_eq_ok h
    obtain ⟨rest, hrest, h⟩ := Json.exists_of_bind_eq_ok h
    cases h
    exact .cons (actionFrom_of_action hfirst) (ih hrest)

theorem stepFrom_of_step {entry : Fields} {s : Step} (h : step source position entry = .ok s) :
    StepFrom source position entry s := by
  obtain ⟨as, has, h⟩ := Json.exists_of_bind_eq_ok h
  cases h
  exact ⟨rfl, rfl, rfl, rfl, actionsFrom_of_actions has⟩

theorem stepsFrom_of_steps {ss : List Step} (h : steps source position xs = .ok ss) :
    List.Forall₂ (fun y s => StepFrom source y.2 y.1.fields s) (xs.zipIdx position) ss := by
  induction xs generalizing position ss with
  | nil =>
    cases h
    exact .nil
  | cons x xs ih =>
    obtain ⟨first, hfirst, h⟩ := Json.exists_of_bind_eq_ok h
    obtain ⟨rest, hrest, h⟩ := Json.exists_of_bind_eq_ok h
    cases h
    exact .cons (stepFrom_of_step hfirst) (ih hrest)

/-- A definition that is read describes the automation that it is read as. -/
theorem describes_of_read {x : Json} {automation : Automation}
    (h : Definition.read source x = .ok automation) : Describes source x automation := by
  unfold Definition.read at h
  split at h
  · cases h
  · obtain ⟨config, hconfig, h⟩ := Json.exists_of_bind_eq_ok h
    obtain ⟨steps, hsteps, h⟩ := Json.exists_of_bind_eq_ok h
    cases h
    refine ⟨rfl, rfl, rfl, rfl, rfl, rfl, ?_, stepsFrom_of_steps hsteps⟩
    cases hparse : AutomationConfig.parse
        ((Fields.get? (Fields.objectAt x.fields "automation") "config").getD .null) with
    | ok config => exact ⟨config, rfl⟩
    | error fault =>
      rw [hparse] at hconfig
      cases hconfig

end Runbook.Definition
