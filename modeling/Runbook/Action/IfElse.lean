import Runbook.Action.Browser
import Runbook.Action.Dispatch

/-!
# Branching

`playwright:if_else` asks for the state of elements and runs one list of nested actions: that of
the first condition that holds, or the one for the case that none does. Then it runs its final
actions, whatever came before. An alternative that makes no sense is passed over with a warning,
and so is one whose element cannot be looked at. If both the branch and the final actions fail, the
failure of the branch counts.
-/

namespace Runbook

/-- The outcome of a part of the work, kept for later. An interruption is not kept. -/
def Work.attempt (m : Work Unit) : Work (Option Failure) :=
  ExceptT.mk do
    match ← m.run with
    | .ok () => return .ok none
    | .error .interrupted => return .error .interrupted
    | .error e => return .ok (some e)

namespace IfElse

/-- The words for states of elements. -/
def stateWords : List String := ElementState.all.map ElementState.word

def schema : Kind :=
  Browser.model "IfElseSchema" [
    Browser.filled "selector",
    .required "condition_type" (.choice stateWords),
    .withDefault "if_actions" (.list 0 .any) (.list []),
    .withDefault "else_if_conditions" (.list 0 .any) (.list []),
    .withDefault "else_actions" (.list 0 .any) (.list []),
    .withDefault "final_actions" (.list 0 .any) (.list [])]

/-- What an alternative asks for: an element, a state, and the actions to run. -/
structure Alternative where
  selector : Json
  state : ElementState
  actions : Json

/-- Reads an alternative; none when it makes no sense. A state given as a list or an object is no
word at all, and that is a fault. -/
def Alternative.ofEntry (entry : Json) : Except Fault (Option Alternative) :=
  match entry with
  | .object fields =>
    let selector := (Fields.get? fields "selector").getD .null
    if !selector.truthy then .ok none
    else
      match (Fields.get? fields "condition_type").getD .null with
      | .text s => .ok ((ElementState.ofWord? s).map fun state =>
          { selector, state, actions := (Fields.get? fields "actions").getD .null })
      | .list _ => .error ⟨.badType, "unhashable type: 'list'"⟩
      | .object _ => .error ⟨.badType, "unhashable type: 'dict'"⟩
      | _ => .ok none
  | _ => .ok none

/-- The request for the state of an element. -/
def question (selector : Json) (state : ElementState) : PageCall :=
  { operation := .state state, selector := some selector }

/-- Notes which branch is taken. -/
def take (branch : String) : Work Unit :=
  Work.report fun fields => Fields.set fields "branch" (.text branch)

/-- A warning about an alternative. -/
def warn (event : String) (frame : Frame) (index : Nat) (more : Fields) : Act Unit :=
  Act.log (.warning event ([("action_id", .text frame.actionId), ("index", .nat index)] ++ more))

/-- Runs the first alternative that holds, from a position on; the reply says whether there was
one. -/
def runAlternatives (ctx : LoopContext) (nested : Dispatcher) (frame : Frame) (idStem : String) :
    Nat → List Json → Work Bool
  | _, [] => return false
  | index, entry :: rest => do
    match ← Work.lift (Act.ofExcept ((Alternative.ofEntry entry).mapError .fault)) with
    | none =>
      Work.lift (warn "else_if_invalid" frame index [])
      runAlternatives ctx nested frame idStem (index + 1) rest
    | some a =>
      match ← Work.lift (Act.ask (.page ctx.loopIndex (question a.selector a.state))) with
      | .error f =>
        Work.lift (warn "else_if_condition_failed" frame index [("error", .text f.text)])
        runAlternatives ctx nested frame idStem (index + 1) rest
      | .ok reply =>
        if reply.truthy then
          take s!"else_if[{index}]"
          Work.lift (Action.runNested nested frame a.actions s!"{idStem}-else_if-{index}" none)
          return true
        else runAlternatives ctx nested frame idStem (index + 1) rest

/-- Chooses a branch and runs it. -/
def runBranch (ctx : LoopContext) (nested : Dispatcher) (frame : Frame) (params : Fields)
    (idStem : String) : Work Unit := do
  let state ← Work.lift (Act.ofExcept (ElementState.read (Fields.textAt params "condition_type")))
  let selector := Browser.param params "selector"
  let reply ← Browser.request "playwright:if_else" ctx (question selector state)
  if reply.truthy then
    take "if"
    Work.lift (Action.runNested nested frame (Browser.param params "if_actions")
      s!"{idStem}-if" none)
  else
    let alternatives := Fields.listAt params "else_if_conditions"
    if !(← runAlternatives ctx nested frame idStem 0 alternatives) then
      let otherwise := Browser.param params "else_actions"
      if otherwise.truthy then
        take "else"
        Work.lift (Action.runNested nested frame otherwise s!"{idStem}-else" none)

def behave : Behaviour := fun ctx nested frame params => do
  let idStem := s!"{frame.actionId}-nested"
  let branchFailure ← Work.attempt (runBranch ctx nested frame params idStem)
  let finalFailure ← Work.attempt (Work.lift
    (Action.runNested nested frame (Browser.param params "final_actions") s!"{idStem}-final" none))
  match branchFailure, finalFailure with
  | none, none => return "Successfully completed conditional logic"
  | some e, none | none, some e => throw e
  | some e, some final =>
    Work.lift (Act.log (.warning "final_actions_failed"
      [("action_id", .text frame.actionId), ("error", .text final.text)]))
    throw e

/-- The branching action. -/
def kind : ActionKind :=
  { type := "playwright:if_else"
    schema
    deferred := ["if_actions", "else_actions", "final_actions", "else_if_conditions[].actions"]
    firstReport := [("branch", .text "none")]
    wrap := ActionKind.browserWrap "playwright:if_else"
    behave }

end IfElse

end Runbook
