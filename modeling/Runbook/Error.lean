import Runbook.Json.Path
import Runbook.Schema.Problem

/-!
# Errors of a run

Two families of failure are kept apart. A `RunError` is one that the runner knows: it has a kind,
a severity, a category and a record for the log. A `Fault` is anything else that a collaborator or
an arithmetic step may raise. `Failure` joins the two and adds the interruption of a task, which is
neither.
-/

namespace Runbook

/-- How far an error reaches. -/
inductive Severity where
  | low
  | medium
  | high
  | critical
  deriving DecidableEq, Repr

def Severity.word : Severity → String
  | .low => "low"
  | .medium => "medium"
  | .high => "high"
  | .critical => "critical"

/-- What an error is about. -/
inductive Category where
  | transient
  | permanent
  | validation
  | resolution
  | external
  | cancelled
  deriving DecidableEq, Repr

def Category.word : Category → String
  | .transient => "transient"
  | .permanent => "permanent"
  | .validation => "validation"
  | .resolution => "resolution"
  | .external => "external"
  | .cancelled => "cancelled"

/-- The kinds of error, each with what it says about its place. -/
inductive ErrorKind where
  | general
  | config (path : Option String)
  | actionConfig (actionType field : Option String)
  | resolution (path : Option String)
  | action (actionId actionType : Option String)
  | browser (actionId actionType selector url : Option String)
  | unknownAction (actionType : String)
  | cancelled (timedOut : Bool)
  deriving DecidableEq, Repr

namespace ErrorKind

/-- The name of a kind. -/
def typeName : ErrorKind → String
  | general => "FrameworkError"
  | config _ => "ConfigError"
  | actionConfig _ _ => "ActionConfigError"
  | resolution _ => "ResolutionError"
  | action _ _ => "ActionError"
  | browser _ _ _ _ => "BrowserError"
  | unknownAction _ => "UnknownActionError"
  | cancelled _ => "RunCancelledError"

/-- The names of the kinds that a kind belongs to, the narrowest first. -/
def lineage : ErrorKind → List String
  | general => ["FrameworkError"]
  | k@(browser _ _ _ _) => [k.typeName, "ActionError", "FrameworkError"]
  | k => [k.typeName, "FrameworkError"]

/-- The severity of a kind, unless stated otherwise. -/
def severity : ErrorKind → Severity
  | config _ | unknownAction _ | cancelled _ => .high
  | resolution _ => .low
  | _ => .medium

/-- The category of a kind, unless stated otherwise. -/
def category : ErrorKind → Category
  | config _ | unknownAction _ => .permanent
  | actionConfig _ _ => .validation
  | resolution _ => .resolution
  | browser _ _ _ _ => .external
  | cancelled _ => .cancelled
  | _ => .transient

/-- Whether trying again may help, unless stated otherwise. -/
def retryable : ErrorKind → Bool
  | general | action _ _ | browser _ _ _ _ => true
  | _ => false

/-- A text or null. -/
def textOrNull : Option String → Json
  | some s => .text s
  | none => .null

/-- What a kind says about its place, as fields of the record. -/
def details : ErrorKind → Fields
  | general => []
  | config path => [("config_path", textOrNull path)]
  | actionConfig actionType field =>
    [("action_type", textOrNull actionType), ("field", textOrNull field)]
  | resolution path => [("path", textOrNull path)]
  | action actionId actionType =>
    [("action_id", textOrNull actionId), ("action_type", textOrNull actionType)]
  | browser actionId actionType selector url =>
    [("action_id", textOrNull actionId), ("action_type", textOrNull actionType),
     ("selector", textOrNull selector), ("url", textOrNull url)]
  | unknownAction actionType => [("action_type", .text actionType)]
  | cancelled timedOut => [("timed_out", .bool timedOut)]

end ErrorKind

/-- An error that the runner knows. -/
structure RunError where
  kind : ErrorKind
  message : String
  severity : Severity := kind.severity
  category : Category := kind.category
  retryable : Bool := kind.retryable
  /-- Further fields of the record; those of the kind itself take precedence. -/
  context : Fields := []
  /-- The problems of a configuration, when they are the cause. -/
  problems : Option (List Problem) := none

namespace RunError

/-- The context of the record. -/
def details (e : RunError) : Fields :=
  e.kind.details.foldl (fun fields f => Fields.set fields f.1 f.2) e.context

/-- The record of an error. -/
def toRecord (e : RunError) : Json :=
  .object [
    ("type", .text e.kind.typeName), ("message", .text e.message),
    ("severity", .text e.severity.word), ("category", .text e.category.word),
    ("context", .object e.details), ("retryable", .bool e.retryable)]

/-- A definition or a configuration is wrong. -/
def config (message : String) (path : Option String) : RunError :=
  { kind := .config path, message }

/-- An action's configuration does not fit its schema. -/
def actionConfig (message actionType : String) (field : Option String) : RunError :=
  { kind := .actionConfig (some actionType) field, message }

/-- A path leads nowhere. -/
def resolution (e : PathError) (path : String) : RunError :=
  { kind := .resolution (some path), message := e.message }

/-- An action failed. -/
def action (message : String) (actionId : Option String) (actionType : String) : RunError :=
  { kind := .action actionId (some actionType), message }

/-- A browser action failed. -/
def browser (message : String) (actionType selector : Option String) : RunError :=
  { kind := .browser none actionType selector none, message }

/-- No action is registered under a type. -/
def unknownAction (actionType : String) : RunError :=
  { kind := .unknownAction actionType, message := s!"action type {actionType} not found" }

/-- Execution stopped at a cancellation checkpoint. -/
def cancelled (message : String) (timedOut : Bool) : RunError :=
  { kind := .cancelled timedOut, message }

/-- Whether an error reports a cancellation, and if so whether by timeout. -/
def cancellation? (e : RunError) : Option Bool :=
  match e.kind with
  | .cancelled timedOut => some timedOut
  | _ => none

end RunError

/-- The kinds of failure that the runner does not know. -/
inductive FaultKind where
  | badValue
  | badType
  | badKey
  | badIndex
  | badAttribute
  | overflow
  | runtime
  | notImplemented
  | fileExists
  | notDirectory
  | isDirectory
  deriving DecidableEq, Repr

/-- A failure that the runner does not know: only its kind and its text matter. -/
structure Fault where
  kind : FaultKind
  text : String
  deriving DecidableEq, Repr

/-- Every way in which a part of a run ends early. -/
inductive Failure where
  | error (e : RunError)
  | fault (f : Fault)
  /-- The task was interrupted at a point where it waited. -/
  | interrupted

/-- A failing call of a collaborator. -/
def Fault.failure (text : String) : Fault := ⟨.runtime, text⟩

/-- A value of this type has no JSON text. -/
def Fault.unwritable (type : String) : Fault :=
  ⟨.badType, s!"Object of type {type} is not JSON serializable"⟩

/-- The text of a failure, as it is quoted in a log. -/
def Failure.text : Failure → String
  | .error e => e.message
  | .fault f => f.text
  | .interrupted => ""

end Runbook
