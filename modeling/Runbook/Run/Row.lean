import Runbook.Error
import Runbook.Json.Reader
import Runbook.Json.Writer
import Runbook.Run.Record
import Runbook.Text.Quoted

/-!
# Rows of run records

A record is kept as a row of a table: its status as a word, its times as ISO texts, and its lists as
JSON texts. A record with a log entry that has no JSON text cannot be written, and a row that was
not written here may hold something that cannot be read.
-/

namespace Runbook

/-- A row of the table of runs. A column that is optional may be null. -/
structure Row where
  id : String
  automationId : String
  status : String
  startTime : Option String := none
  endTime : Option String := none
  logs : Option String := some "[]"
  outputFiles : Option String := some "[]"
  errorMessage : Option String := some ""
  droppedEvents : Option Int := some 0
  deriving DecidableEq, Repr

namespace Row

/-! ### Writing -/

/-- A list as JSON text. -/
def listText (items : List Json) : Except Fault String :=
  match Json.foreignType? (.list items) with
  | some type => .error (.unwritable type)
  | none => .ok (Json.write .spaced (.list items))

/-- A number that a column has room for. -/
def integer (i : Int) : Except Fault Int :=
  if -0x8000000000000000 ≤ i ∧ i < 0x8000000000000000 then .ok i
  else .error ⟨.overflow, "Python int too large to convert to SQLite INTEGER"⟩

/-- The row of a record. -/
def ofRecord (r : RunRecord) : Except Fault Row := do
  let logs ← listText r.logs
  let outputFiles ← listText (r.outputFiles.map .text)
  let droppedEvents ← integer r.droppedEvents
  return {
    id := r.id
    automationId := r.automationId
    status := r.status.word
    startTime := r.startTime.map Timestamp.toText
    endTime := r.endTime.map Timestamp.toText
    logs := some logs
    outputFiles := some outputFiles
    errorMessage := some r.errorMessage
    droppedEvents := some droppedEvents }

/-! ### Reading -/

/-- The status that a column names. -/
def statusOf (column : String) : Except Fault RunStatus :=
  match RunStatus.ofWord? column with
  | some status => .ok status
  | none => .error ⟨.badValue, s!"{Text.quoted column} is not a valid RunStatus"⟩

/-- The time in a column; an empty text is none. -/
def timeOf : Option String → Except Fault (Option Timestamp)
  | none | some "" => .ok none
  | some column =>
    match Timestamp.read? column with
    | some t => .ok (some t)
    | none => .error ⟨.badValue, s!"Invalid isoformat string: {Text.quoted column}"⟩

/-- The list in a column; an empty text is the empty list. -/
def listOf (column : Option String) : Except Fault (List Json) :=
  match Json.read ((column.filter fun s => s != "").getD "[]") with
  | .ok (.list items) => .ok items
  | .ok _ => .error ⟨.badType, "not a list"⟩
  | .error e => .error ⟨.badValue, e.message⟩

/-- The record in a row. -/
def toRecord (row : Row) : Except Fault RunRecord := do
  let status ← statusOf row.status
  let startTime ← timeOf row.startTime
  let endTime ← timeOf row.endTime
  let logs ← listOf row.logs
  let outputFiles ← listOf row.outputFiles
  return {
    id := row.id
    automationId := row.automationId
    status, startTime, endTime, logs
    outputFiles := outputFiles.filterMap Json.text?
    errorMessage := row.errorMessage.getD ""
    droppedEvents := (row.droppedEvents.getD 0).toNat }

/-! ### Documents -/

/-- The row as a document. -/
def toDocument (row : Row) : Json := .object [
  ("id", .text row.id), ("automation_id", .text row.automationId), ("status", .text row.status),
  ("start_time", ErrorKind.textOrNull row.startTime),
  ("end_time", ErrorKind.textOrNull row.endTime),
  ("logs_json", ErrorKind.textOrNull row.logs),
  ("output_files_json", ErrorKind.textOrNull row.outputFiles),
  ("error_message", ErrorKind.textOrNull row.errorMessage),
  ("dropped_events", (row.droppedEvents.map Json.int).getD .null)]

/-- The row that a document describes. -/
def ofDocument (fields : Fields) : Row :=
  { id := Fields.textAt fields "id"
    automationId := Fields.textAt fields "automation_id"
    status := Fields.textAt fields "status"
    startTime := Fields.text? fields "start_time"
    endTime := Fields.text? fields "end_time"
    logs := Fields.text? fields "logs_json"
    outputFiles := Fields.text? fields "output_files_json"
    errorMessage := Fields.text? fields "error_message"
    droppedEvents := Fields.int? fields "dropped_events" }

end Row

end Runbook
