import Runbook.Json.Basic
import Runbook.Time

/-!
# Run records

What is kept about one run of an automation: its status, its times, the log entries and output
files gathered so far, and how many events were lost.
-/

namespace Runbook

/-- How far a run has come. -/
inductive RunStatus where
  | running
  | completed
  | failed
  | cancelled
  deriving DecidableEq, Repr

namespace RunStatus

def word : RunStatus → String
  | running => "running"
  | completed => "completed"
  | failed => "failed"
  | cancelled => "cancelled"

/-- The status that a word names. -/
def ofWord? : String → Option RunStatus
  | "running" => some .running
  | "completed" => some .completed
  | "failed" => some .failed
  | "cancelled" => some .cancelled
  | _ => none

end RunStatus

/-- A point in time as a document, null when there is none. -/
def Timestamp.orNull : Option Timestamp → Json
  | some t => .text t.toText
  | none => .null

/-- What the aggregator has gathered: log entries, output files, and how many events were lost. -/
structure Snapshot where
  logs : List Json := []
  outputFiles : List String := []
  dropped : Nat := 0

/-- One run of an automation. -/
structure RunRecord where
  id : String
  automationId : String
  status : RunStatus := .running
  startTime : Option Timestamp := none
  endTime : Option Timestamp := none
  logs : List Json := []
  outputFiles : List String := []
  errorMessage : String := ""
  droppedEvents : Nat := 0

namespace RunRecord

/-- Whether the run is over. -/
def isTerminal (r : RunRecord) : Bool := r.status != .running

/-- The record with what has been gathered. -/
def withSnapshot (r : RunRecord) (s : Snapshot) : RunRecord :=
  { r with logs := s.logs, outputFiles := s.outputFiles, droppedEvents := s.dropped }

/-- The record as a document. -/
def toRecord (r : RunRecord) : Json := .object [
  ("id", .text r.id), ("automation_id", .text r.automationId), ("status", .text r.status.word),
  ("start_time", Timestamp.orNull r.startTime), ("end_time", Timestamp.orNull r.endTime),
  ("logs", .list r.logs), ("output_files", .list (r.outputFiles.map .text)),
  ("error_message", .text r.errorMessage), ("dropped_events", .int r.droppedEvents)]

/-- The record that a document describes; what is missing is as at the beginning of a run. -/
def ofRecord (fields : Fields) : RunRecord :=
  let time := fun (key : String) => (Fields.text? fields key).bind Timestamp.read?
  { id := Fields.textAt fields "id"
    automationId := Fields.textAt fields "automation_id"
    status := (RunStatus.ofWord? (Fields.textAt fields "status")).getD .running
    startTime := time "start_time"
    endTime := time "end_time"
    logs := Fields.listAt fields "logs"
    outputFiles := (Fields.listAt fields "output_files").filterMap Json.text?
    errorMessage := Fields.textAt fields "error_message"
    droppedEvents := ((Fields.int? fields "dropped_events").getD 0).toNat }

/-- What the record has gathered. -/
def snapshot (r : RunRecord) : Snapshot := ⟨r.logs, r.outputFiles, r.droppedEvents⟩

end RunRecord

end Runbook
