import Runbook.Action.IfElse

/-!
# Bounded loops

`playwright:loop_until` runs its nested actions again and again until an element is in a state, a
number of iterations has been reached or a time has passed. It pauses after each iteration. While
it runs, the number of the current iteration is the local loop index; afterwards that is what it
was before.

A pause takes at least its length. So the time that has passed is never taken to be less than the
pauses of the iterations so far, and `Bounds.iterations` iterations are always enough to reach a
bound.
-/

namespace Runbook.LoopUntil

/-- The pause after an iteration, in milliseconds. -/
def pause : Nat := 100

def schema : Kind :=
  Browser.model "LoopUntilSchema" [
    .optional "selector" (.text 0),
    .optional "condition_type" (.choice IfElse.stateWords),
    .mk "max_loops" none (.optional (.integer (some 1) none)) (some .null) .zeroIsUnset,
    .mk "timeout_ms" none (.optional (.integer (some 1) none)) (some .null) .zeroIsUnset,
    .withDefault "fail_on_force_stop" .boolean (.bool false),
    .withDefault "loop_actions" (.list 0 .any) (.list [])]

/-- What a loop needs beyond its fields: a bound, a state for its element, and something to do. -/
def refuse (params : Fields) : Option String :=
  if (Fields.int? params "max_loops").isNone && (Fields.int? params "timeout_ms").isNone then
    some "requires either max_loops or timeout_ms to prevent infinite loops"
  else if !(Fields.textAt params "selector").isEmpty
      && (Fields.text? params "condition_type").isNone then
    some "requires condition_type when selector is provided"
  else if (Fields.listAt params "loop_actions").isEmpty then
    some "requires at least one action in loop_actions"
  else none

/-- The bounds of a loop; at least one is set. -/
structure Bounds where
  maxLoops : Option Nat
  timeoutMs : Option Nat

namespace Bounds

def ofParams (params : Fields) : Bounds :=
  ⟨(Fields.int? params "max_loops").map Int.toNat, (Fields.int? params "timeout_ms").map Int.toNat⟩

/-- How many pauses make up a time. -/
def pauses (ms : Nat) : Nat := (ms + pause - 1) / pause

/-- How many iterations there can be. -/
def iterations (b : Bounds) : Nat :=
  match b.maxLoops, b.timeoutMs with
  | some n, some ms => min n (pauses ms)
  | some n, none => n
  | none, some ms => pauses ms
  | none, none => 0

/-- The bounds that are reached after so many iterations and so much time. -/
def reached (b : Bounds) (iterations : Nat) (elapsed : Rat) : List String :=
  (match b.maxLoops with
    | some n => if n ≤ iterations then [s!"reached maximum loops ({n})"] else []
    | none => [])
  ++ (match b.timeoutMs with
    | some ms => if (ms : Rat) ≤ elapsed then [s!"reached timeout ({ms}ms)"] else []
    | none => [])

end Bounds

/-- What a loop is made of. -/
structure Loop where
  selector : String
  state : Option ElementState
  bounds : Bounds
  failOnForceStop : Bool
  actions : Json

def Loop.ofParams (params : Fields) : Loop :=
  { selector := Fields.textAt params "selector"
    state := (Fields.text? params "condition_type").bind ElementState.ofWord?
    bounds := .ofParams params
    failOnForceStop := Fields.boolAt params "fail_on_force_stop"
    actions := Browser.param params "loop_actions" }

/-- The failure when a bound is reached that must not be. -/
def forceStopped (frame : Frame) (message : String) : Failure :=
  .error (.action message (some frame.actionId) "playwright:loop_until")

/-- Sets the local loop index. -/
def setLocalIndex (i : Int) : Act Unit := modify fun s => { s with localLoopIndex := i }

/-- Whether the loop's element is in its state. A loop without an element goes on, and so does one
whose element cannot be looked at. -/
def conditionMet (ctx : LoopContext) (frame : Frame) (loop : Loop) : Work Bool :=
  match loop.state with
  | none => return false
  | some state => do
    if loop.selector.isEmpty then return false
    let failed (error : String) : Work Bool := do
      Work.lift (Act.log (.warning "loop_condition_check_failed"
        [("action_id", .text frame.actionId), ("selector", .text loop.selector),
         ("error", .text error)]))
      return false
    if !ctx.hasPage then failed "playwright:loop_until requires a browser page"
    else
      match ← Work.lift (Act.ask (.page ctx.loopIndex
        (IfElse.question (.text loop.selector) state))) with
      | .ok reply => return reply.truthy
      | .error f => failed f.text

/-- Ends the loop: notes why, and gives its message. -/
def exit (iterations : Nat) (reason : String) : Work String := do
  Work.report fun fields => Fields.set fields "exit_reason" (.text reason)
  return s!"Loop completed after {iterations} iterations: {reason}"

/-- Stops at a bound. -/
def forceStop (frame : Frame) (loop : Loop) (iterations : Nat) (reasons : List String) :
    Work String :=
  let message := "Loop force stopped: " ++ " and ".intercalate reasons
  if loop.failOnForceStop then throw (forceStopped frame message) else exit iterations message

/-- Begins an iteration. Unless the loop ends here, it goes on with the bounds that are reached. -/
def begin (ctx : LoopContext) (frame : Frame) (loop : Loop) (started : Rat) (iterations : Nat)
    (goOn : List String → Work String) : Work String := do
  Work.lift (Act.checkpoint "loop cancelled")
  Work.lift (setLocalIndex (iterations + 1))
  if ← conditionMet ctx frame loop then exit iterations "condition met"
  else
    let now ← Work.lift (Act.ask .now)
    let paused : Rat := (iterations * pause : Nat)
    let elapsed := if now - started ≤ paused then paused else now - started
    goOn (loop.bounds.reached iterations elapsed)

/-- Goes on after so many iterations; there can be `remaining` more. -/
def iterate (ctx : LoopContext) (nested : Dispatcher) (frame : Frame) (loop : Loop)
    (started : Rat) (remaining iterations : Nat) : Work String :=
  begin ctx frame loop started iterations fun reasons =>
    match remaining with
    | 0 => forceStop frame loop iterations reasons
    | remaining + 1 =>
      if !reasons.isEmpty then forceStop frame loop iterations reasons
      else do
        Work.lift (Action.runNested nested frame loop.actions
          s!"{frame.actionId}-loop-{iterations + 1}"
          (some "loop cancelled during action execution"))
        Work.report fun fields => Fields.set fields "iterations" (.nat (iterations + 1))
        Work.lift (Act.await (.sleep pause))
        iterate ctx nested frame loop started remaining (iterations + 1)

/-- Carries out a part of the work and puts the local loop index back, however the part ends. -/
def restoringLocalIndex {α : Type} (m : Work α) : Work α :=
  ExceptT.mk do
    let saved := (← getThe LoopState).localLoopIndex
    let result ← m.run
    modifyThe LoopState fun s => { s with localLoopIndex := saved }
    return result

def behave : Behaviour := fun ctx nested frame params => do
  let loop := Loop.ofParams params
  let started ← Work.lift (Act.ask .now)
  restoringLocalIndex (iterate ctx nested frame loop started loop.bounds.iterations 0)

/-- The looping action. -/
def kind : ActionKind :=
  { type := "playwright:loop_until"
    schema
    refuse
    deferred := ["loop_actions"]
    firstReport := [("iterations", .int 0), ("exit_reason", .text "")]
    wrap := ActionKind.browserWrap "playwright:loop_until"
    behave }

end Runbook.LoopUntil
