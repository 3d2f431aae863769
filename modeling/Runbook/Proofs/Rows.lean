import Runbook.Proofs.Dates
import Runbook.Proofs.Documents
import Runbook.Run.Row

/-!
# Rows and their records

The row of a record reads back as that record: the word of a status names it, the text of a time
that exists reads back, and so does the text of a list. What a row holds is said column by column in
`Row.Holds`, so that progress, which replaces two columns, keeps it.
-/

namespace Runbook

variable {r : RunRecord} {row : Row}

theorem RunStatus.ofWord?_status (status : RunStatus) :
    RunStatus.ofWord? status.word = some status := by
  cases status <;> rfl

namespace Row

/-- Reading a list inverts writing it, where it can be written. -/
def Legible (items : List Json) : Prop :=
  ∀ text, listText items = .ok text → Json.read text = .ok (.list items)

/-- Plain documents are legible. -/
theorem legible_of_plain {items : List Json} (h : Json.PlainItems items) : Legible items := by
  intro text htext
  have hplain : Json.Plain (.list items) := h
  rw [listText, Json.foreignType?_of_plain hplain] at htext
  cases htext
  exact hplain.read_write

/-- Texts can be written. -/
theorem exists_listText_texts (texts : List String) :
    ∃ text, listText (texts.map .text) = .ok text
      ∧ Json.read text = .ok (.list (texts.map .text)) := by
  have hplain : Json.Plain (.list (texts.map .text)) := Json.plainItems_texts texts
  refine ⟨Json.write .spaced (.list (texts.map .text)), ?_, hplain.read_write⟩
  rw [listText, Json.foreignType?_of_plain hplain]

theorem listOf_of_read {text : String} {items : List Json}
    (h : Json.read text = .ok (.list items)) : listOf (some text) = .ok items := by
  have hne : text ≠ "" := by
    rintro rfl
    cases h
  rw [listOf, Option.filter_some, if_pos (by simpa using hne), Option.getD_some, h]

theorem timeOf_toText {time : Option Timestamp} (h : ∀ t ∈ time, t.Valid) :
    timeOf (time.map Timestamp.toText) = .ok time := by
  cases time with
  | none => rfl
  | some t =>
    have hread := (h t rfl).read?_toText
    have hne := t.toText_ne_empty
    rw [Option.map_some]
    generalize t.toText = column at hread hne
    unfold timeOf
    split
    next heq => cases heq
    next heq => exact absurd (Option.some.inj heq) hne
    next heq => rw [← Option.some.inj heq, hread]

theorem eq_of_integer {i j : Int} (h : integer i = .ok j) : i = j := by
  unfold integer at h
  split at h
  · cases h
    rfl
  · cases h

/-! ### What a row holds -/

/-- A row holds a record: each column reads as its field. -/
structure Holds (row : Row) (r : RunRecord) : Prop where
  id : row.id = r.id
  automationId : row.automationId = r.automationId
  status : statusOf row.status = .ok r.status
  startTime : timeOf row.startTime = .ok r.startTime
  endTime : timeOf row.endTime = .ok r.endTime
  logs : listOf row.logs = .ok r.logs
  outputFiles : listOf row.outputFiles = .ok (r.outputFiles.map .text)
  errorMessage : row.errorMessage.getD "" = r.errorMessage
  droppedEvents : (row.droppedEvents.getD 0).toNat = r.droppedEvents

/-- A row reads as the record that it holds. -/
theorem Holds.toRecord (h : row.Holds r) : row.toRecord = .ok r := by
  have htexts : (r.outputFiles.map Json.text).filterMap Json.text? = r.outputFiles := by
    rw [List.filterMap_map]
    exact List.filterMap_some
  simp only [Row.toRecord, h.status, h.startTime, h.endTime, h.logs, h.outputFiles, Except.bind,
    bind, pure, Except.pure, htexts, h.id, h.automationId, h.errorMessage, h.droppedEvents]

/-- Progress replaces the lists of the record. -/
theorem Holds.gathered (h : row.Holds r) {logs : List Json} {outputFiles : List String}
    {logsText filesText : String} (hlogs : Json.read logsText = .ok (.list logs))
    (hfiles : Json.read filesText = .ok (.list (outputFiles.map .text))) :
    { row with logs := some logsText, outputFiles := some filesText }.Holds
      { r with logs, outputFiles } :=
  { h with
    logs := listOf_of_read hlogs
    outputFiles := listOf_of_read hfiles }

end Row

/-- A record that reads back: its times exist, and its log is legible. -/
structure RunRecord.Legible (r : RunRecord) : Prop where
  startTime : ∀ t ∈ r.startTime, t.Valid
  endTime : ∀ t ∈ r.endTime, t.Valid
  logs : Row.Legible r.logs

namespace Row

/-- **The row of a legible record holds it.** -/
theorem holds_ofRecord (h : r.Legible) (hrow : ofRecord r = .ok row) : row.Holds r := by
  obtain ⟨files, hfiles, hread⟩ := exists_listText_texts r.outputFiles
  unfold ofRecord at hrow
  cases hlogs : listText r.logs with
  | error f => rw [hlogs] at hrow; cases hrow
  | ok logs =>
    cases hdropped : integer r.droppedEvents with
    | error f => rw [hlogs, hfiles, hdropped] at hrow; cases hrow
    | ok dropped =>
      rw [hlogs, hfiles, hdropped] at hrow
      cases hrow
      obtain rfl := eq_of_integer hdropped
      exact
        { id := rfl
          automationId := rfl
          status := by simp only [statusOf, RunStatus.ofWord?_status]
          startTime := timeOf_toText h.startTime
          endTime := timeOf_toText h.endTime
          logs := listOf_of_read (h.logs logs hlogs)
          outputFiles := listOf_of_read hread
          errorMessage := rfl
          droppedEvents := rfl }

end Row

end Runbook
