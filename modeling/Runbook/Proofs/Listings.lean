import Runbook.Proofs.Chronology
import Runbook.Proofs.Storekeeping
import Mathlib.Data.List.Induction

/-!
# Lists of runs

A list of runs is made from the rows of the table, ordered by the text of the time at which they
began. The rows are those of the records that the history of requests has, whether or not they can
be read back: `Tabulates s m`. Times in universal time are in the order of their texts, so the list
is in the order of time, the latest run first.

* `RunStore.Tabulates.served`: the rows after any requests are those of the records.
* `RunStore.noEarlier_of_precedes`: rows in order are runs in order.
* `RunStore.listed_newest_first`: every list is a beginning of all runs of its automation, newest
  first.
-/

namespace Runbook

/-- A run has begun, and no earlier than another one, if that has begun at all. -/
def RunRecord.NoEarlier (r r' : RunRecord) : Prop :=
  ∀ t' ∈ r'.startTime, ∃ t ∈ r.startTime, t'.instant ≤ t.instant

/-- The time at which a run began exists and is in universal time, if there is one. -/
def RunRecord.Universal (r : RunRecord) : Prop :=
  ∀ t ∈ r.startTime, t.Valid ∧ t.offset = some 0

namespace RunStore

/-! ### Rows of records -/

/-- The rows of an open store are those of the records that a map has. -/
structure Tabulates (s : RunStore) (m : String → Option RunRecord) : Prop where
  isOpen : s.isOpen = true
  /-- No run has two rows. -/
  nodup : (s.rows.map Row.id).Nodup
  mem : ∀ row, row ∈ s.rows ↔ ∃ r, m row.id = some r ∧ Row.ofRecord r = .ok row
  /-- What is recorded for a run is its record, and has a row. -/
  written : ∀ id r, m id = some r → r.id = id ∧ ∃ row, Row.ofRecord r = .ok row

variable {r : RunRecord} {row : Row} {id : String}

/-- The columns of a row. -/
theorem ofRecord_eq_ok_iff :
    Row.ofRecord r = .ok row ↔ ∃ logs outputFiles, Row.listText r.logs = .ok logs ∧
      Row.listText (r.outputFiles.map .text) = .ok outputFiles ∧
      (Row.integer r.droppedEvents).isOk ∧
      row = { id := r.id, automationId := r.automationId, status := r.status.word
              startTime := r.startTime.map Timestamp.toText
              endTime := r.endTime.map Timestamp.toText
              logs := some logs, outputFiles := some outputFiles
              errorMessage := some r.errorMessage, droppedEvents := some r.droppedEvents } := by
  unfold Row.ofRecord
  cases hlogs : Row.listText r.logs with
  | error f => simp [bind, Except.bind]
  | ok logs =>
    cases hfiles : Row.listText (r.outputFiles.map .text) with
    | error f => simp [bind, Except.bind]
    | ok files =>
      cases hdropped : Row.integer r.droppedEvents with
      | error f => simp [bind, Except.bind, Except.isOk, Except.toBool]
      | ok dropped =>
        obtain rfl := Row.eq_of_integer hdropped
        simp [bind, Except.bind, Except.isOk, Except.toBool, pure, Except.pure, eq_comm]

theorem id_of_ofRecord (h : Row.ofRecord r = .ok row) : row.id = r.id := by
  obtain ⟨_, _, -, -, -, rfl⟩ := ofRecord_eq_ok_iff.mp h
  rfl

/-- The row of a record with other lists is the row with other lists. -/
theorem ofRecord_gathered {logs : List Json} {outputFiles : List String}
    {logsText filesText : String} (h : Row.ofRecord r = .ok row)
    (hlogs : Row.listText logs = .ok logsText)
    (hfiles : Row.listText (outputFiles.map .text) = .ok filesText) :
    Row.ofRecord { r with logs, outputFiles } =
      .ok { row with logs := some logsText, outputFiles := some filesText } := by
  obtain ⟨_, _, -, -, hdropped, rfl⟩ := ofRecord_eq_ok_iff.mp h
  exact ofRecord_eq_ok_iff.mpr ⟨logsText, filesText, hlogs, hfiles, hdropped, rfl⟩

namespace Tabulates

variable {s : RunStore} {m : String → Option RunRecord}

theorem initial : Tabulates ({} : RunStore).opened fun _ => none where
  isOpen := rfl
  nodup := List.nodup_nil
  mem := fun _ => iff_of_false List.not_mem_nil fun ⟨_, hnone, _⟩ => absurd hnone nofun
  written := fun _ _ => nofun

/-- Saving records a run anew. -/
theorem save (h : Tabulates s m) (hrow : Row.ofRecord r = .ok row) :
    ∃ s', s.save r = .ok s' ∧ Tabulates s' fun id => if id = r.id then some r else m id := by
  have hid := id_of_ofRecord hrow
  refine ⟨{ s with rows := s.rows.filter (fun q => q.id != row.id) ++ [row] }, ?_, ?_⟩
  · rw [RunStore.save, whenOpen_of_isOpen h.isOpen, hrow]
    rfl
  refine ⟨h.isOpen, nodup_ids_replaced h.nodup row, fun q => ?_, fun id r' hr' => ?_⟩
  · rw [List.mem_append, List.mem_filter, List.mem_singleton, h.mem, bne_iff_ne, hid]
    by_cases hq : q.id = r.id
    · simp only [if_pos hq, Option.some.injEq, exists_eq_left', hrow, Except.ok.injEq]
      simp [hq, eq_comm]
    · rw [if_neg hq]
      constructor
      · rintro (hmem | rfl)
        · exact hmem.1
        · exact absurd hid hq
      · exact fun hmem => .inl ⟨hmem, hq⟩
  · by_cases hsame : id = r.id
    · rw [if_pos hsame] at hr'
      cases hr'
      exact ⟨hsame.symm, row, hrow⟩
    · rw [if_neg hsame] at hr'
      exact h.written id r' hr'

/-- Progress replaces the lists of the record of a run, if there is one. -/
theorem writeProgress (h : Tabulates s m) {logs : List Json} {text : String}
    (htext : Row.listText logs = .ok text) (id : String) (outputFiles : List String) :
    ∃ s', s.writeProgress id logs outputFiles = .ok s' ∧ Tabulates s' fun i =>
      if i = id then (m i).map fun r => { r with logs, outputFiles } else m i := by
  obtain ⟨files, hfiles, -⟩ := Row.exists_listText_texts outputFiles
  refine ⟨{ s with rows := s.rows.map (gather id text files) }, ?_, ?_⟩
  · rw [RunStore.writeProgress, whenOpen_of_isOpen h.isOpen, htext, hfiles]
    rfl
  refine ⟨h.isOpen, by rw [ids_gathered]; exact h.nodup, fun q => ?_, fun i r' hr' => ?_⟩
  · rw [List.mem_map]
    constructor
    · rintro ⟨row, hmem, rfl⟩
      obtain ⟨r, hr, hrow⟩ := (h.mem row).mp hmem
      rw [id_gather, hr]
      by_cases hid : row.id = id
      · rw [if_pos hid, gather, if_pos (by simpa using hid)]
        exact ⟨_, rfl, ofRecord_gathered hrow htext hfiles⟩
      · rw [if_neg hid, gather, if_neg (by simpa using hid)]
        exact ⟨r, rfl, hrow⟩
    · rintro ⟨r', hr', hq⟩
      by_cases hid : q.id = id
      · rw [if_pos hid] at hr'
        obtain ⟨r, hr, rfl⟩ := Option.map_eq_some_iff.mp hr'
        obtain ⟨hrid, row, hrow⟩ := h.written q.id r hr
        have hrowid : row.id = q.id := (id_of_ofRecord hrow).trans hrid
        refine ⟨row, (h.mem row).mpr ⟨r, by rw [hrowid, hr], hrow⟩, ?_⟩
        rw [gather, if_pos (by simpa using hrowid.trans hid)]
        exact Except.ok.inj ((ofRecord_gathered hrow htext hfiles).symm.trans hq)
      · rw [if_neg hid] at hr'
        refine ⟨q, (h.mem q).mpr ⟨r', hr', hq⟩, ?_⟩
        rw [gather, if_neg (by simpa using hid)]
  · by_cases hid : i = id
    · rw [if_pos hid] at hr'
      obtain ⟨r, hr, rfl⟩ := Option.map_eq_some_iff.mp hr'
      obtain ⟨hrid, row, hrow⟩ := h.written i r hr
      exact ⟨hrid, _, ofRecord_gathered hrow htext hfiles⟩
    · rw [if_neg hid] at hr'
      exact h.written i r' hr'

/-- One request is recorded as the history says. -/
theorem serve {requests : List Request} (h : Tabulates s (recorded requests)) (q : Request) :
    Tabulates (q.serve s) (recorded (requests ++ [q])) := by
  cases q with
  | save r =>
    cases hrow : Row.ofRecord r with
    | error f =>
      rw [recorded_concat_save_error hrow, Request.serve, RunStore.save,
        whenOpen_of_isOpen h.isOpen, hrow]
      exact h
    | ok row =>
      obtain ⟨s', hs', htabulates⟩ := h.save hrow
      rw [recorded_concat_save hrow, Request.serve, hs']
      exact htabulates
  | progress i logs outputFiles =>
    cases htext : Row.listText logs with
    | error f =>
      rw [recorded_concat_progress_error htext, Request.serve, RunStore.writeProgress,
        whenOpen_of_isOpen h.isOpen, htext]
      exact h
    | ok text =>
      obtain ⟨s', hs', htabulates⟩ := h.writeProgress htext i outputFiles
      rw [recorded_concat_progress htext, Request.serve, hs']
      exact htabulates
  | get id | list automationId limit =>
    rw [recorded_concat_of_none (fun _ => rfl) fun _ => rfl]
    exact h

theorem served (requests : List Request) :
    Tabulates (RunStore.served ({} : RunStore).opened requests) (recorded requests) := by
  induction requests using List.reverseRecOn with
  | nil => exact initial
  | append_singleton requests q ih =>
    rw [RunStore.served, List.foldl_concat]
    exact ih.serve q

end Tabulates

/-! ### The order of a list -/

/-- The record that comes back from the store. -/
def reread (r : RunRecord) : Except Fault RunRecord := do (← Row.ofRecord r).toRecord

theorem reread_of_legible (h : r.Legible) (hrow : Row.ofRecord r = .ok row) :
    reread r = .ok r := by
  rw [reread, hrow]
  exact (Row.holds_ofRecord h hrow).toRecord

theorem precedes_total (a b : Row) : (precedes a b || precedes b a) = true := by
  unfold precedes
  cases a.startTime <;> cases b.startTime <;> simp [le_total]

theorem precedes_trans (a b c : Row) (hab : precedes a b = true) (hbc : precedes b c = true) :
    precedes a c = true := by
  unfold precedes at *
  cases ha : a.startTime <;> cases hb : b.startTime <;> cases hc : c.startTime <;> simp_all
  exact le_trans hbc hab

/-- Rows are in the order of time, if their runs began in universal time. -/
theorem noEarlier_of_precedes {r' : RunRecord} {row' : Row} (hrow : Row.ofRecord r = .ok row)
    (hrow' : Row.ofRecord r' = .ok row') (hr : r.Universal) (hr' : r'.Universal)
    (h : precedes row row' = true) : r.NoEarlier r' := by
  obtain ⟨_, _, -, -, -, rfl⟩ := ofRecord_eq_ok_iff.mp hrow
  obtain ⟨_, _, -, -, -, rfl⟩ := ofRecord_eq_ok_iff.mp hrow'
  intro t' ht'
  have ht'' : r'.startTime = some t' := ht'
  cases hstart : r.startTime with
  | none => simp [precedes, hstart, ht''] at h
  | some t =>
    obtain ⟨hvalid, hoffset⟩ := hr t hstart
    obtain ⟨hvalid', hoffset'⟩ := hr' t' ht'
    refine ⟨t, rfl, (Timestamp.toText_le_iff hvalid' hvalid hoffset' hoffset).mp ?_⟩
    simpa [precedes, hstart, ht''] using h

/-- A row of a record. -/
def RowOf (m : String → Option RunRecord) (row : Row) (r : RunRecord) : Prop :=
  m row.id = some r ∧ Row.ofRecord r = .ok row

section Rows

variable {m : String → Option RunRecord} {rows : List Row} {rs : List RunRecord}

theorem Tabulates.exists_records {s : RunStore} (h : Tabulates s m)
    (hrows : ∀ row ∈ rows, row ∈ s.rows) : ∃ rs, List.Forall₂ (RowOf m) rows rs := by
  induction rows with
  | nil => exact ⟨[], .nil⟩
  | cons row rows ih =>
    obtain ⟨hrow, hrows⟩ := List.forall_mem_cons.mp hrows
    obtain ⟨r, hr⟩ := (h.mem row).mp hrow
    obtain ⟨rs, hrs⟩ := ih hrows
    exact ⟨r :: rs, .cons hr hrs⟩

theorem ids_of_forall₂ (h : List.Forall₂ (RowOf m) rows rs) :
    rs.map (·.id) = rows.map Row.id := by
  induction h with
  | nil => rfl
  | cons hrow _ ih => rw [List.map_cons, List.map_cons, ih, id_of_ofRecord hrow.2]

theorem exists_row_of_mem (h : List.Forall₂ (RowOf m) rows rs) :
    ∀ r ∈ rs, ∃ row ∈ rows, RowOf m row r := by
  induction h with
  | nil => exact List.forall_mem_nil _
  | cons hrow _ ih =>
    refine List.forall_mem_cons.mpr ⟨⟨_, .head _, hrow⟩, fun r hr => ?_⟩
    obtain ⟨row, hmem, hrow⟩ := ih r hr
    exact ⟨row, .tail _ hmem, hrow⟩

theorem exists_record_of_mem (h : List.Forall₂ (RowOf m) rows rs) :
    ∀ row ∈ rows, ∃ r ∈ rs, RowOf m row r := by
  induction h with
  | nil => exact List.forall_mem_nil _
  | cons hrow _ ih =>
    refine List.forall_mem_cons.mpr ⟨⟨_, .head _, hrow⟩, fun row hmem => ?_⟩
    obtain ⟨r, hr, hrow⟩ := ih row hmem
    exact ⟨r, .tail _ hr, hrow⟩

theorem mapM_toRecord_of_forall₂ (h : List.Forall₂ (RowOf m) rows rs) :
    rows.mapM Row.toRecord = rs.mapM reread := by
  induction h with
  | nil => rfl
  | cons hrow _ ih =>
    rw [List.mapM_cons, List.mapM_cons, ih, reread, hrow.2]
    rfl

theorem pairwise_of_forall₂ (h : List.Forall₂ (RowOf m) rows rs)
    (hrs : ∀ r ∈ rs, r.Universal) (hrows : rows.Pairwise fun a b => precedes a b = true) :
    rs.Pairwise RunRecord.NoEarlier := by
  induction h with
  | nil => exact .nil
  | @cons row r rows rs hrow hrest ih =>
    obtain ⟨hr, hrs⟩ := List.forall_mem_cons.mp hrs
    obtain ⟨hfirst, hrows⟩ := List.pairwise_cons.mp hrows
    refine List.pairwise_cons.mpr ⟨fun r' hr' => ?_, ih hrs hrows⟩
    obtain ⟨row', hrow'mem, hrow'⟩ := exists_row_of_mem hrest r' hr'
    exact noEarlier_of_precedes hrow.2 hrow'.2 hr (hrs r' hr') (hfirst row' hrow'mem)

end Rows

/-! ### Lists -/

/-- The rows of an automation in the order of a list. -/
def ownRows (s : RunStore) (automationId : String) : List Row :=
  (s.rows.filter fun q => q.automationId == automationId).mergeSort precedes

theorem mem_ownRows_iff {s : RunStore} {automationId : String} :
    row ∈ s.ownRows automationId ↔ row ∈ s.rows ∧ row.automationId = automationId := by
  rw [ownRows, (List.mergeSort_perm ..).mem_iff, List.mem_filter, beq_iff_eq]

theorem Tabulates.nodup_ownRows {s : RunStore} {m : String → Option RunRecord}
    (h : Tabulates s m) (automationId : String) : ((s.ownRows automationId).map Row.id).Nodup :=
  ((List.mergeSort_perm ..).map Row.id).nodup_iff.mpr
    (h.nodup.sublist (List.filter_sublist.map Row.id))

/-- A list begins with the first rows of its automation, and reads as many as it may have. -/
theorem list_eq {s : RunStore} (h : s.isOpen = true) (automationId : String) {limit : Int}
    (hlimit : 0 ≤ limit) :
    s.list automationId limit =
      if limit < 0x8000000000000000 then
        (((s.ownRows automationId).take limit.toNat).mapM Row.toRecord).mapError .fault
      else
        .error (.fault ⟨.overflow, "Python int too large to convert to SQLite INTEGER"⟩) := by
  rw [RunStore.list, whenOpen_of_isOpen h, Row.integer]
  by_cases hroom : limit < 0x8000000000000000
  · rw [if_pos hroom, if_pos ⟨by omega, hroom⟩]
    simp only [bind, Except.bind, if_neg (not_lt.mpr hlimit)]
    rfl
  · rw [if_neg hroom, if_neg fun h => hroom h.2]
    rfl

/-- **Runs are listed newest first.** After any requests, if the runs of an automation began in
universal time, or have not begun, then they can be put in order, the latest first and those that
have not begun last, such that every list has the first of them, as many as it may have. Each is
read back from its row, which gives the record that was kept if it is legible. Only a limit for
which a column would have no room is refused. -/
theorem listed_newest_first (requests : List Request) (automationId : String)
    (hstart : ∀ id r, recorded requests id = some r → r.automationId = automationId →
      r.Universal) :
    ∃ all : List RunRecord, (all.map (·.id)).Nodup ∧
      (∀ r, r ∈ all ↔ recorded requests r.id = some r ∧ r.automationId = automationId) ∧
      all.Pairwise RunRecord.NoEarlier ∧
      (∀ r ∈ all, r.Legible → reread r = .ok r) ∧
      ∀ limit : Int, 0 ≤ limit →
        (served ({} : RunStore).opened requests).list automationId limit =
          if limit < 0x8000000000000000 then
            ((all.take limit.toNat).mapM reread).mapError .fault
          else
            .error (.fault ⟨.overflow, "Python int too large to convert to SQLite INTEGER"⟩) := by
  have hserved := Tabulates.served requests
  generalize served ({} : RunStore).opened requests = s at hserved
  have hown : ∀ row ∈ s.ownRows automationId, row ∈ s.rows := fun row hrow =>
    (mem_ownRows_iff.mp hrow).1
  obtain ⟨all, hall⟩ := hserved.exists_records hown
  have hmem : ∀ r, r ∈ all ↔
      recorded requests r.id = some r ∧ r.automationId = automationId := by
    intro r
    constructor
    · intro hr
      obtain ⟨row, hrow, hrecorded, hof⟩ := exists_row_of_mem hall r hr
      obtain ⟨_, _, -, -, -, rfl⟩ := ofRecord_eq_ok_iff.mp hof
      exact ⟨hrecorded, (mem_ownRows_iff.mp hrow).2⟩
    · rintro ⟨hrecorded, hautomation⟩
      obtain ⟨-, row, hof⟩ := hserved.written r.id r hrecorded
      have hid := id_of_ofRecord hof
      have hrow : row ∈ s.ownRows automationId := by
        refine mem_ownRows_iff.mpr ⟨(hserved.mem row).mpr ⟨r, by rw [hid, hrecorded], hof⟩, ?_⟩
        obtain ⟨_, _, -, -, -, rfl⟩ := ofRecord_eq_ok_iff.mp hof
        exact hautomation
      obtain ⟨r', hr', hrecorded', -⟩ := exists_record_of_mem hall row hrow
      rw [hid, hrecorded] at hrecorded'
      exact Option.some.inj hrecorded' ▸ hr'
  refine ⟨all, ?_, hmem, ?_, ?_, fun limit hlimit => ?_⟩
  · rw [ids_of_forall₂ hall]
    exact hserved.nodup_ownRows automationId
  · refine pairwise_of_forall₂ hall (fun r hr => ?_)
      (List.pairwise_mergeSort precedes_trans precedes_total _)
    obtain ⟨hrecorded, hautomation⟩ := (hmem r).mp hr
    exact hstart r.id r hrecorded hautomation
  · intro r hr hlegible
    obtain ⟨-, row, hof⟩ := hserved.written r.id r ((hmem r).mp hr).1
    exact reread_of_legible hlegible hof
  · rw [list_eq hserved.isOpen automationId hlimit,
      mapM_toRecord_of_forall₂ (List.forall₂_take limit.toNat hall)]

/-- What is recorded began in universal time, if all that was saved did. -/
theorem universal_of_saved {requests : List Request}
    (h : ∀ r, .save r ∈ requests → r.Universal) (hr : recorded requests id = some r) :
    r.Universal := by
  induction requests using List.reverseRecOn generalizing r with
  | nil => cases hr
  | append_singleton requests q ih =>
    have hearlier : ∀ r, recorded requests id = some r → r.Universal := fun r hr =>
      ih (fun r hmem => h r (List.mem_append_left _ hmem)) hr
    rw [recorded_concat, Option.or_eq_some_iff] at hr
    rcases hr with hsaved | ⟨-, hkept⟩
    · cases q with
      | save r₀ =>
        obtain ⟨-, rfl⟩ : (r₀.id = id ∧ (Row.ofRecord r₀).isOk) ∧ r₀ = r := by
          simpa [Request.saved?] using hsaved
        exact h r₀ (by simp)
      | _ => cases hsaved
    · obtain ⟨r₀, hr₀, rfl⟩ := Option.map_eq_some_iff.mp hkept
      have huniversal := hearlier r₀ hr₀
      cases q.gathered? id <;> exact huniversal

/-- Three runs, of which one has not begun. -/
def begun : List Request := [
  .save { id := "r1", automationId := "a1", startTime := some {
    year := 2024, month := 2, day := 29, hour := 12, offset := some 0 } },
  .save { id := "r2", automationId := "a1" },
  .save { id := "r3", automationId := "a1", startTime := some {
    year := 2024, month := 2, day := 29, hour := 12, micro := 1, offset := some 0 } }]

/-- A run that began in the same second, but a microsecond later, comes first. -/
theorem listed_newest_first_begun : ∃ all : List RunRecord,
    (∀ r, r ∈ all ↔ recorded begun r.id = some r ∧ r.automationId = "a1") ∧
    all.Pairwise RunRecord.NoEarlier ∧
    (served ({} : RunStore).opened begun).list "a1" 2 =
      ((all.take 2).mapM reread).mapError .fault := by
  have huniversal : ∀ r, .save r ∈ begun → r.Universal := by
    intro r hr
    simp only [begun, List.mem_cons, Request.save.injEq, List.not_mem_nil, or_false] at hr
    rcases hr with rfl | rfl | rfl
    · rintro _ ⟨⟩
      exact ⟨by decide, rfl⟩
    · exact fun _ => nofun
    · rintro _ ⟨⟩
      exact ⟨by decide, rfl⟩
  obtain ⟨all, -, hmem, hsorted, -, hlist⟩ := listed_newest_first begun "a1" fun id r hr _ =>
    universal_of_saved huniversal hr
  exact ⟨all, hmem, hsorted, (hlist 2 (by decide)).trans (if_pos (by decide))⟩

/-- A limit for which a column would have no room is refused. -/
theorem list_fails_of_great_limit :
    (served ({} : RunStore).opened begun).list "a1" 0x8000000000000000 =
      .error (.fault ⟨.overflow, "Python int too large to convert to SQLite INTEGER"⟩) := by
  rfl

end RunStore

end Runbook
