import Runbook.Automation
import Runbook.Config
import Runbook.Definition.Form

/-!
# Reading definitions

A definition is a document that describes an automation. `Definition.read` checks its form and its
settings and builds the automation. A step or action without an identifier gets one from its
position, and one without an order number runs in the order of the definition. The configuration of
an action may be written as JSON text.
-/

namespace Runbook.Definition

/-- An error in a definition that comes from some place, if that is known. -/
def invalid (source : Option String) (message : String) : Failure := .error (.config message source)

/-- A text that says something, or else a default. -/
def textOr (fields : Fields) (key default : String) : String :=
  let s := Fields.textAt fields key
  if s.isEmpty then default else s

/-- A number that is given, or else a position. -/
def orderOr (fields : Fields) (key : String) (position : Nat) : Json :=
  (Fields.get? fields key).getD (.int position)

/-- The configuration of an action. -/
def actionConfig (source : Option String) : Option Json → Except Failure Fields
  | some (.object fields) => .ok fields
  | some (.text s) =>
    if s.isEmpty then .ok []
    else
      match Json.read s with
      | .ok (.object fields) => .ok fields
      | .ok _ => .error (invalid source "Action config must be an object")
      | .error e => .error (invalid source s!"Invalid action config JSON: {e.message}")
  | _ => .ok []

/-- The action at a position of a step, counted from one. -/
def action (source : Option String) (stepId : String) (position : Nat) (fields : Fields) :
    Except Failure ActionItem := do
  let config ← actionConfig source (Fields.get? fields "action_config")
  return {
    id := textOr fields "id" s!"{stepId}-action-{position}"
    actionType := Fields.textAt fields "action_type"
    config
    order := orderOr fields "action_order" position
    name := Fields.textAt fields "name" }

/-- The actions of a step from a position on. -/
def actions (source : Option String) (stepId : String) : Nat → List Json →
    Except Failure (List ActionItem)
  | _, [] => .ok []
  | position, x :: rest => do
    let first ← action source stepId position x.fields
    return first :: (← actions source stepId (position + 1) rest)

/-- The step at a position, counted from one. -/
def step (source : Option String) (position : Nat) (fields : Fields) : Except Failure Step := do
  let id := textOr fields "id" s!"step-{position}"
  let actions ← actions source id 1 (Fields.listAt fields "actions")
  return {
    id
    name := Fields.textAt fields "name"
    order := orderOr fields "step_order" position
    actions
    config := Fields.objectAt fields "config" }

/-- The steps from a position on. -/
def steps (source : Option String) : Nat → List Json → Except Failure (List Step)
  | _, [] => .ok []
  | position, x :: rest => do
    let first ← step source position x.fields
    return first :: (← steps source (position + 1) rest)

/-- The objection to the form of a definition, if there is one. -/
def formError? (source : Option String) (x : Json) : Option Failure :=
  (Deviation.nearest? (Form.definition x)).map fun d =>
    invalid source s!"Invalid automation definition at {d.location}: {d.flaw.message}"

/-- The automation that a definition describes. -/
def read (source : Option String) (x : Json) : Except Failure Automation := do
  if let some e := formError? source x then throw e
  let about := Fields.objectAt x.fields "automation"
  let config := (Fields.get? about "config").getD .null
  let _ ← (AutomationConfig.parse config).mapError ConfigFault.toFailure
  let steps ← steps source 1 (Fields.listAt x.fields "steps")
  let name := Fields.textAt about "name"
  return {
    id := textOr about "id" name
    name
    description := Fields.textAt about "description"
    projectId := Fields.textAt about "project_id"
    projectName := Fields.textAt about "project_name"
    config
    steps }

end Runbook.Definition
