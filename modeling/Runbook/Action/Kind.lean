import Runbook.Program.Act
import Runbook.Schema.Basic

/-!
# Kinds of action

An `ActionKind` is what is registered under an action type: the schema of its configuration, the
places in it that hold nested actions, and what it does. `ActionKind.execute` is the same for all
kinds. It checks the configuration first and refuses a wrong one without doing anything; then it
carries the action out and emits one event of its own, a log entry if the action succeeded and an
error if it failed. An action tells about itself through its report, which becomes the data of that
event.
-/

namespace Runbook

/-- The work of an action: it may fail, and what it reported before stays reported. -/
abbrev Work := ExceptT Failure (StateT Fields (StateT LoopState Program))

namespace Work

/-- A part of a loop index's program as a part of an action's work. -/
def lift {α : Type} (m : Act α) : Work α := ExceptT.mk (StateT.lift m.run)

instance : MonadLift Act Work := ⟨lift⟩

/-- Changes the report. -/
def report (f : Fields → Fields) : Work Unit := ExceptT.lift (modify f)

/-- The report so far. -/
def reported : Work Fields := ExceptT.lift get

end Work

/-- How a nested action is dispatched. -/
abbrev Dispatcher := Frame → Fields → Act Unit

/-- What an action does, given how its nested actions are dispatched: it returns a message, empty
for the usual one. -/
abbrev Behaviour := LoopContext → Dispatcher → Frame → Fields → Work String

/-- What is registered under an action type. -/
structure ActionKind where
  type : String
  schema : Kind
  /-- Places in the configuration that hold nested actions. -/
  deferred : List String := []
  /-- What is done to a raw configuration before it is checked. -/
  prepare : Json → Json := id
  /-- What is asked of a configuration beyond its fields; a text refuses it. -/
  refuse : Fields → Option String := fun _ => none
  /-- What is reported before anything else is. -/
  firstReport : Fields := []
  /-- The report as the data of an event. -/
  present : Fields → Fields := id
  /-- The error that stands for a failure of a collaborator, given the configuration, and what it
  adds to the report. -/
  wrap : Fault → Fields → RunError × (Fields → Fields)
  behave : Behaviour

namespace ActionKind

/-- The first problem of a configuration, worded for the action. -/
def configError (type : String) (p : Problem) : RunError :=
  let field := p.field?
  let fieldText := field.getD "None"
  let message := match p.violation with
    | .missing => s!"{type} requires '{fieldText}'"
    | .refused text => type ++ " " ++ text
    | v => s!"{type}: invalid '{fieldText}': {v.message}"
  .actionConfig message type field

/-- The checked fields of a configuration, or the error for its first problem. Anything empty
stands for an empty configuration. -/
def validate (kind : ActionKind) (config : Json) : Except Failure Fields :=
  let raw := if config.truthy then config else .object []
  let problem := fun p => Except.error (.error (configError kind.type p))
  match kind.schema.check (Json.write .spaced) (kind.prepare raw) with
  | .error (p :: _) => problem p
  | .error [] => .ok []
  | .ok x =>
    match kind.refuse x.fields with
    | some text => problem ⟨[], .refused text⟩
    | none => .ok x.fields

/-- Whole milliseconds between two times. -/
def elapsed (started ended : Rat) : Int := (ended - started).floor

/-- The text of a message, or the usual one. -/
def messageOr (kind : ActionKind) (message : String) : String :=
  if message.isEmpty then kind.type ++ " completed" else message

/-- Emits the event with which an action ends. -/
def conclude (kind : ActionKind) (ctx : LoopContext) (frame : Frame) (started : Rat)
    (report : Fields) (type : EventType) (content : RunEvent → RunEvent) : Act Unit := do
  let ended ← Act.ask .now
  Act.emit ctx frame type fun e =>
    content { e with durationMs := elapsed started ended, data := kind.present report }

/-- Carries an action out on its resolved configuration. -/
def execute (kind : ActionKind) (ctx : LoopContext) (nested : Dispatcher) (frame : Frame)
    (config : Json) : Act Unit := do
  let params ← Act.ofExcept (kind.validate config)
  let started ← Act.ask .now
  let (result, report) ← ExceptT.lift
    ((kind.behave ctx nested frame params).run.run kind.firstReport)
  match result with
  | .ok message =>
    kind.conclude ctx frame started report .log fun e =>
      { e with message := kind.messageOr message }
  | .error (.error error) =>
    kind.conclude ctx frame started report .error fun e => { e with error := error.message }
    Act.fail (.error error)
  | .error (.fault fault) =>
    let (error, addition) := kind.wrap fault params
    kind.conclude ctx frame started (addition report) .error fun e =>
      { e with error := error.message }
    Act.fail (.error error)
  | .error .interrupted => Act.fail .interrupted

/-- The error that stands for a failure of a collaborator, unless stated otherwise. -/
def plainWrap (type : String) (f : Fault) (_ : Fields) : RunError × (Fields → Fields) :=
  (.action s!"{type} failed: {f.text}" none type, id)

/-- The same for an action on the page: it also names the element. -/
def browserWrap (type : String) (f : Fault) (params : Fields) : RunError × (Fields → Fields) :=
  (.browser s!"{type} failed: {f.text}" (some type) (Fields.text? params "selector"), id)

end ActionKind

end Runbook
