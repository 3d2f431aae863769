import Runbook.Proofs.Levels
import Runbook.Proofs.Underway
import Runbook.Rehearsal.Whole

/-!
# Resolution

A nested action is dispatched with the configuration that stands in the definition, whatever has
been resolved around it. It is resolved once, when it is dispatched, and what takes the place of a
token is not scanned again. Only the value of a declared variable of type environment is a template
itself, and at most ten of these can follow each other.

* `Written automation run`: an action with its configuration stands in the definition.
* `Template.Known env inner name s`: what takes the place of a token.
* `Template.Within env n s s'`: the text `s'` is what the template `s` becomes.
* `Whole.resolved_once`: the actions of a run are dispatched as they are written, and resolved once.
-/

namespace Runbook

open Program Schedule Rehearsal

/-! ### Actions as they are written -/

/-- An action, with its configuration, stands in the definition: in a step, in the list of a loop or
in one of a branching action. -/
inductive Written (automation : Automation) : Running → Prop
  | action {step : Step} {action : ActionItem} (hstep : step ∈ automation.orderedSteps)
      (haction : action ∈ step.orderedActions) :
      Written automation ⟨Loop.frameOf step action, action.config⟩
  | iteration {run : Running} {a : NestedAction} (h : Written automation run)
      (htype : run.frame.actionType = "playwright:loop_until")
      (ha : LoopUntil.Holds run.frame run.config a) : Written automation (run.nested a)
  | branch {run : Running} {a : NestedAction} (h : Written automation run)
      (htype : run.frame.actionType = "playwright:if_else")
      (ha : IfElse.Lists run.frame run.config a) : Written automation (run.nested a)

variable {automation : Automation}

/-- What may begin among actions that are written in the definition is written there, too. -/
theorem Admits.written {free : Bool} {S : List Running} {run : Running}
    (h : Admits automation free S run) (hS : ∀ r ∈ S, Written automation r) :
    Written automation run := by
  cases h with
  | action _ hstep haction => exact .action hstep haction
  | iteration _ htype ha => exact .iteration (hS _ List.mem_cons_self) htype ha
  | branch htype ha => exact .branch (hS _ List.mem_cons_self) htype ha

theorem Passage.written {look : Bool → Deed → Bool} {free : Bool} {S S' : List Running}
    {t : List Deed} (h : Passage automation look free S t S') (hS : ∀ r ∈ S, Written automation r)
    {i : Int} {frame : Frame} {config : Fields} (hm : .call (.dispatched i frame config) () ∈ t) :
    Written automation ⟨frame, config⟩ := by
  induction h with
  | nil => cases hm
  | cons hd _ ih =>
    rcases List.mem_cons.mp hm with heq | hm
    · cases heq
      cases hd with
      | quiet hd => exact hd.elim
      | begin hadmits => exact hadmits.written hS
      | refuse hadmits => exact hadmits.written hS
    · refine ih ?_ hm
      cases hd with
      | quiet => exact hS
      | step => exact hS
      | refuse => exact hS
      | begin hadmits => exact List.forall_mem_cons.mpr ⟨hadmits.written hS, hS⟩
      | finish => exact (List.forall_mem_cons.mp hS).2
      | interrupt => exact List.forall_mem_nil _

namespace Whole

/-- **Resolution.** In every schedule, an action is dispatched with the configuration that stands in
the definition. Its texts are resolved once, when it is dispatched, and it is executed on the
outcome. -/
theorem resolved_once {σ : Type} (env : Collaborators σ) (runner : Runner)
    (automation : Automation) (record : RunRecord) (shared : Shared σ) {h : List Happening}
    {s : State σ Ended}
    (hs : Scheduled env { runner with registry := Catalogue.registry } automation record shared
      h s) :
    (∀ who i frame config, .call (.dispatched i frame config) () ∈ deedsOf who h →
      Written automation ⟨frame, config⟩) ∧
    ∀ ctx frame config v t r v',
      (Action.dispatch Catalogue.registry ctx frame config).Ends v t r v' →
      ∃ t', t = .call (.dispatched ctx.loopIndex frame config) () :: t' ∧
        Action.Follows Catalogue.registry ctx (Action.dispatch Catalogue.registry ctx) frame config
          v t' r v' := by
  refine ⟨fun who i frame config hm => ?_, fun ctx frame config v t r v' hends =>
    Action.ends_dispatchWith (Action.dispatch_eq ▸ hends)⟩
  obtain ⟨S, hproceeds⟩ := hs.proceeds rfl who
  exact hproceeds.written (List.forall_mem_nil _) hm

/-! ### A rehearsal -/

/-- The messages in the configurations that actions are dispatched with. -/
def dispatchedMessages (t : List Deed) : List String :=
  t.filterMap fun
    | .call (.dispatched _ _ config) _ => (Fields.get? config "message").bind Json.text?
    | _ => none

/-- The messages that are logged. -/
def loggedMessages (t : List Deed) : List String :=
  t.filterMap fun
    | .call (.emit e) _ => if e.type = .log then some e.message else none
    | _ => none

/-- An automation that logs the identifier of the run in a branch. The configuration of this action
is written as text. -/
def identifying : Automation :=
  sampleAutomation [.object [
    ("action_type", .text "playwright:log"),
    ("action_config", .text "\x7b\"message\": \"\x7b\x7brunId\x7d\x7d\"\x7d")]]

/-- What happens in a rehearsal. -/
def identified : List Happening × State World Ended :=
  State.carryOut World.collaborators (loopProgram sampleRunner identifying sampleRecord.id)
    [.main] (State.start (sampleShared 1704067200000) (run sampleRunner identifying sampleRecord))

/-- A nested action is dispatched with a token in its configuration, which is then resolved. -/
theorem identifier_resolved_once : ∃ h s,
    Scheduled World.collaborators sampleRunner identifying sampleRecord (sampleShared 1704067200000)
      h s ∧
    dispatchedMessages (deedsOf none h) = ["\x7b\x7brunId\x7d\x7d"] ∧
    "[INFO] run-1" ∈ loggedMessages (deedsOf none h) ∧
    ∀ who i frame config, .call (.dispatched i frame config) () ∈ deedsOf who h →
      Written identifying ⟨frame, config⟩ := by
  have hs : Scheduled World.collaborators sampleRunner identifying sampleRecord
      (sampleShared 1704067200000) identified.1 identified.2 :=
    State.carryOut_reaches _ _ _ (by decide) _
  exact ⟨_, _, hs, by decide +kernel, by decide +kernel,
    (resolved_once World.collaborators sampleRunner identifying sampleRecord
      (sampleShared 1704067200000) hs).1⟩

/-- The context of an action in an automation that declares a variable of type environment, whose
value is a token. -/
def declaringContext : LoopContext :=
  { runId := "run-1", data := sampleData
    config := { declared := [
      { key := "env", type := .environment, value := "\x7b\x7brunId\x7d\x7d" }] } }

/-- An action that logs this variable logs what the token in its value stands for. -/
theorem environment_resolved_again : ∃ t s',
    (Action.dispatch Catalogue.registry declaringContext
      { actionId := "a", actionType := "playwright:log" }
      [("message", .text "\x7b\x7benv\x7d\x7d")]).Ends {} t (.ok ()) s' ∧
    loggedMessages t = ["[INFO] run-1"] := by
  let program := ((Action.dispatch Catalogue.registry declaringContext
    { actionId := "a", actionType := "playwright:log" }
    [("message", .text "\x7b\x7benv\x7d\x7d")]).run.run {})
  obtain ⟨⟨r, s'⟩, hadv, hok⟩ : ∃ a, (advance World.collaborators program
      (sampleShared 1704067200000)).1 = .ended a ∧ a.1.toOption.isSome = true :=
    Task.exists_ended (by decide +kernel)
  cases r with
  | error e => cases hok
  | ok u => exact ⟨_, s', Task.ends_deeds hadv, by decide +kernel⟩

end Whole

end Runbook
