import Runbook.Json.Basic
import Runbook.Time

/-!
# Events of a run

A `RunEvent` is one thing that a run tells about itself while it goes on. Its log entry is the form
in which it is kept: the linkage first, then what the kind of event has to say. Step events are
told but never kept.
-/

namespace Runbook

/-- The kinds of event. -/
inductive EventType where
  | log
  | error
  | outputFile
  | step
  deriving DecidableEq, Repr

def EventType.word : EventType → String
  | .log => "log"
  | .error => "error"
  | .outputFile => "output_file"
  | .step => "step"

/-- The kind of event that a word names. -/
def EventType.ofWord? : String → Option EventType
  | "log" => some .log
  | "error" => some .error
  | "output_file" => some .outputFile
  | "step" => some .step
  | _ => none

/-- One thing that a run tells about itself. -/
structure RunEvent where
  type : EventType
  timestamp : Timestamp
  stepId : String := ""
  stepName : String := ""
  actionId : String := ""
  actionName : String := ""
  parentActionId : String := ""
  actionType : String := ""
  message : String := ""
  error : String := ""
  outputFile : String := ""
  durationMs : Int := 0
  loopIndex : Int := 0
  localLoopIndex : Int := 0
  data : Fields := []

namespace RunEvent

/-- Where and when an event belongs. -/
def linkage (e : RunEvent) : Fields := [
  ("timestamp", .text e.timestamp.toText),
  ("loop_index", .int e.loopIndex),
  ("local_loop_index", .int e.localLoopIndex),
  ("step_id", .text e.stepId),
  ("step_name", .text e.stepName),
  ("action_id", .text e.actionId),
  ("action_name", .text e.actionName),
  ("parent_action_id", .text e.parentActionId),
  ("action_type", .text e.actionType),
  ("duration_ms", .int e.durationMs)]

/-- What an event says. -/
def content (e : RunEvent) : Fields :=
  match e.type with
  | .error => [("error", .text e.error), ("status", .text "failed")]
  | .outputFile => [
      ("output_file", .text e.outputFile),
      ("message", .text (if e.message.isEmpty then "Output file: " ++ e.outputFile
        else e.message)),
      ("status", .text "success")]
  | .log | .step => [("message", .text e.message), ("status", .text "success")]

/-- The form in which an event is kept. -/
def toLogEntry (e : RunEvent) : Json :=
  .object (e.linkage ++ e.content ++ if e.data.isEmpty then [] else [("data", .object e.data)])

end RunEvent

end Runbook
