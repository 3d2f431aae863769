import Runbook.Run.Row

/-!
# The store of run records

A store keeps one row for each run. It is opened and closed, and what it keeps outlasts that; a
closed store answers nothing. Progress replaces what has been gathered for a run and leaves the rest
of its row alone. Runs are listed newest first, by the text of the time at which they began; runs
without one come last.
-/

namespace Runbook

/-- A store of run records. -/
structure RunStore where
  isOpen : Bool := false
  /-- The rows, the one that was saved last at the end. -/
  rows : List Row := []

namespace RunStore

/-- The error of a store that has not been opened. -/
def notOpen : RunError :=
  { kind := .general, message := "run store is not initialized", retryable := false }

/-- Opens a store. -/
def opened (s : RunStore) : RunStore := { s with isOpen := true }

/-- Closes a store. -/
def closed (s : RunStore) : RunStore := { s with isOpen := false }

/-- Does something with the rows of a store, if it is open. -/
def whenOpen {α : Type} (s : RunStore) (f : List Row → Except Fault α) : Except Failure α :=
  if s.isOpen then (f s.rows).mapError .fault else .error (.error notOpen)

/-- Saves a record in the place of an earlier one of the same run. -/
def save (r : RunRecord) (s : RunStore) : Except Failure RunStore :=
  s.whenOpen fun rows => do
    let row ← Row.ofRecord r
    return { s with rows := rows.filter (fun q => q.id != row.id) ++ [row] }

/-- Replaces the lists of the row of a run. -/
def gather (id logs outputFiles : String) (row : Row) : Row :=
  if row.id == id then { row with logs := some logs, outputFiles := some outputFiles } else row

/-- Replaces what has been gathered for a run. -/
def writeProgress (id : String) (logs : List Json) (outputFiles : List String) (s : RunStore) :
    Except Failure RunStore :=
  s.whenOpen fun rows => do
    let logs ← Row.listText logs
    let outputFiles ← Row.listText (outputFiles.map .text)
    return { s with rows := rows.map (gather id logs outputFiles) }

/-- The record of a run. -/
def get? (id : String) (s : RunStore) : Except Failure (Option RunRecord) :=
  s.whenOpen fun rows =>
    match rows.find? fun q => q.id == id with
    | some row => row.toRecord.map some
    | none => .ok none

/-- Whether a row comes before another one in a list: by the text of its beginning, the greatest
first. -/
def precedes (a b : Row) : Bool :=
  match a.startTime, b.startTime with
  | some s, some t => t ≤ s
  | some _, none => true
  | none, some _ => false
  | none, none => true

/-- The first runs of an automation, newest first; a negative limit is none. -/
def list (automationId : String) (limit : Int) (s : RunStore) : Except Failure (List RunRecord) :=
  s.whenOpen fun rows => do
    let limit ← Row.integer limit
    let own := (rows.filter fun q => q.automationId == automationId).mergeSort precedes
    (if limit < 0 then own else own.take limit.toNat).mapM Row.toRecord

/-- The rows as a document. -/
def toDocument (s : RunStore) : Json := .list (s.rows.map Row.toDocument)

/-- The closed store with the rows of a document. -/
def ofDocument : Json → RunStore
  | .list items => { rows := items.map fun x => Row.ofDocument x.fields }
  | _ => {}

end RunStore

end Runbook
