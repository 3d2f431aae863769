import Runbook.Proofs.Rows
import Runbook.Run.Store

/-!
# The store as a map from runs to records

An open store behaves like a finite map from identifiers to records. `Refines s m` says that the
rows of `s` hold exactly what `m` maps: no identifier has two rows, each row holds the record of its
identifier, and every mapped identifier has a row. Each operation of the store is shown to keep this
relation, with the change that it makes to the map; a store that has served any requests is then
compared with the history of these requests, of which only the latest record saved for a run and
the latest later progress count.
-/

namespace Runbook

namespace RunStore

/-! ### Requests and what they leave -/

/-- What an open store may be asked. -/
inductive Request where
  | save (r : RunRecord)
  | progress (id : String) (logs : List Json) (outputFiles : List String)
  | get (id : String)
  | list (automationId : String) (limit : Int)

namespace Request

/-- The store after a request. One that fails leaves the store as it was. -/
def serve (q : Request) (s : RunStore) : RunStore :=
  match q with
  | .save r => (s.save r).toOption.getD s
  | .progress id logs outputFiles => (s.writeProgress id logs outputFiles).toOption.getD s
  | .get _ | .list _ _ => s

/-- What a request writes reads back. -/
def Legible : Request → Prop
  | .save r => r.Legible
  | .progress _ logs _ => Row.Legible logs
  | .get _ | .list _ _ => True

/-- The record that a request saves for a run. One that has no row is refused. -/
def saved? (id : String) : Request → Option RunRecord
  | .save r => if r.id = id ∧ (Row.ofRecord r).isOk then some r else none
  | _ => none

/-- The log and the output files that a request reports for a run. A log without a text is
refused. -/
def gathered? (id : String) : Request → Option (List Json × List String)
  | .progress i logs outputFiles =>
    if i = id ∧ (Row.listText logs).isOk then some (logs, outputFiles) else none
  | _ => none

end Request

/-- The store after requests. -/
def served (s : RunStore) (requests : List Request) : RunStore :=
  requests.foldl (fun s q => q.serve s) s

/-- The latest record saved for a run, and the requests after it. -/
def lastSaved? (id : String) : List Request → Option (RunRecord × List Request)
  | [] => none
  | q :: rest => (lastSaved? id rest).or ((q.saved? id).map fun r => (r, rest))

/-- The latest progress of a run. -/
def lastGathered? (id : String) : List Request → Option (List Json × List String)
  | [] => none
  | q :: rest => (lastGathered? id rest).or (q.gathered? id)

/-- The record of a run after requests: the latest one saved, with the log and the output files of
the latest later progress. -/
def recorded (requests : List Request) (id : String) : Option RunRecord :=
  (lastSaved? id requests).map fun (r, later) =>
    match lastGathered? id later with
    | some (logs, outputFiles) => { r with logs, outputFiles }
    | none => r

/-! ### The history, one request further -/

section History

theorem lastSaved?_concat (id : String) (requests : List Request) (q : Request) :
    lastSaved? id (requests ++ [q])
      = ((q.saved? id).map fun r => (r, [])).or
        ((lastSaved? id requests).map fun p => (p.1, p.2 ++ [q])) := by
  induction requests with
  | nil => simp [lastSaved?]
  | cons p rest ih =>
    rw [List.cons_append, lastSaved?, ih, lastSaved?]
    cases hq : q.saved? id with
    | some r => simp
    | none => cases hrest : lastSaved? id rest <;> simp [Function.comp_def]

theorem lastGathered?_concat (id : String) (requests : List Request) (q : Request) :
    lastGathered? id (requests ++ [q]) = (q.gathered? id).or (lastGathered? id requests) := by
  induction requests with
  | nil => simp [lastGathered?]
  | cons p rest ih => rw [List.cons_append, lastGathered?, ih, lastGathered?, Option.or_assoc]

/-- The record of a run after one request more: the record saved by it, or the record before with
what it reports. -/
theorem recorded_concat (requests : List Request) (q : Request) (id : String) :
    recorded (requests ++ [q]) id = (q.saved? id).or ((recorded requests id).map fun r =>
      match q.gathered? id with
      | some (logs, outputFiles) => { r with logs, outputFiles }
      | none => r) := by
  rw [recorded, lastSaved?_concat]
  cases q.saved? id with
  | some r => rfl
  | none =>
    rw [recorded]
    cases hsaved : lastSaved? id requests with
    | none => rfl
    | some p =>
      simp only [Option.map_none, Option.none_or, Option.map_some, lastGathered?_concat]
      cases hq : q.gathered? id with
      | none => simp
      | some g =>
        simp only [Option.some_or, Option.some.injEq]
        cases lastGathered? id p.2 <;> rfl

/-- A request that saves and reports nothing leaves the records alone. -/
theorem recorded_concat_of_none {requests : List Request} {q : Request}
    (hsaved : ∀ id, q.saved? id = none) (hgathered : ∀ id, q.gathered? id = none) :
    recorded (requests ++ [q]) = recorded requests := by
  funext id
  rw [recorded_concat, hsaved, hgathered]
  simp

theorem recorded_concat_save_error {requests : List Request} {r : RunRecord} {f : Fault}
    (hrow : Row.ofRecord r = .error f) :
    recorded (requests ++ [.save r]) = recorded requests :=
  recorded_concat_of_none
    (fun id => by simp [Request.saved?, hrow, Except.isOk, Except.toBool]) fun _ => rfl

/-- A record that is saved is that of its run. -/
theorem recorded_concat_save {requests : List Request} {r : RunRecord} {row : Row}
    (hrow : Row.ofRecord r = .ok row) :
    recorded (requests ++ [.save r]) =
      fun id => if id = r.id then some r else recorded requests id := by
  funext id
  rw [recorded_concat]
  by_cases hid : id = r.id
  · simp [Request.saved?, hrow, Except.isOk, Except.toBool, hid]
  · simp [Request.saved?, Request.gathered?, hid, Ne.symm hid]

theorem recorded_concat_progress_error {requests : List Request} {logs : List Json} {f : Fault}
    (htext : Row.listText logs = .error f) (i : String) (outputFiles : List String) :
    recorded (requests ++ [.progress i logs outputFiles]) = recorded requests :=
  recorded_concat_of_none (fun _ => rfl)
    fun id => by simp [Request.gathered?, htext, Except.isOk, Except.toBool]

/-- Progress replaces the lists of the record of its run. -/
theorem recorded_concat_progress {requests : List Request} {logs : List Json} {text : String}
    (htext : Row.listText logs = .ok text) (i : String) (outputFiles : List String) :
    recorded (requests ++ [.progress i logs outputFiles]) = fun id =>
      if id = i then (recorded requests id).map fun r => { r with logs, outputFiles }
      else recorded requests id := by
  funext id
  rw [recorded_concat]
  by_cases hid : id = i
  · simp [Request.saved?, Request.gathered?, htext, Except.isOk, Except.toBool, hid]
  · simp [Request.saved?, Request.gathered?, hid, Ne.symm hid]

/-- A run has no record exactly when none was saved for it. -/
theorem recorded_eq_none_iff {requests : List Request} {id : String} :
    recorded requests id = none ↔ ∀ q ∈ requests, q.saved? id = none := by
  rw [recorded, Option.map_eq_none_iff]
  induction requests with
  | nil => simp [lastSaved?]
  | cons q rest ih => simp [lastSaved?, ih, and_comm]

end History

/-! ### The relation with a map -/

theorem whenOpen_of_isOpen {α : Type} {s : RunStore} (h : s.isOpen = true)
    (f : List Row → Except Fault α) : s.whenOpen f = (f s.rows).mapError .fault :=
  if_pos h

/-- A row in the place of those of its run leaves each run one row. -/
theorem nodup_ids_replaced {rows : List Row} (h : (rows.map Row.id).Nodup) (row : Row) :
    ((rows.filter (fun q => q.id != row.id) ++ [row]).map Row.id).Nodup := by
  have hkept := h.sublist ((List.filter_sublist (p := fun q : Row => q.id != row.id)).map Row.id)
  rw [List.map_append, List.nodup_append]
  refine ⟨hkept, by simp, ?_⟩
  intro a ha b hb
  obtain ⟨q, hq, rfl⟩ := List.mem_map.mp ha
  have hne := (List.mem_filter.mp hq).2
  simp only [List.map_cons, List.map_nil, List.mem_singleton] at hb
  subst hb
  simpa using hne

theorem id_gather (id logs outputFiles : String) (row : Row) :
    (gather id logs outputFiles row).id = row.id := by
  rw [gather]
  split <;> rfl

theorem ids_gathered (rows : List Row) (id logs outputFiles : String) :
    (rows.map (gather id logs outputFiles)).map Row.id = rows.map Row.id := by
  rw [List.map_map]
  exact List.map_congr_left fun row _ => id_gather id logs outputFiles row

/-- The rows of an open store hold what a map from identifiers says. -/
structure Refines (s : RunStore) (m : String → Option RunRecord) : Prop where
  isOpen : s.isOpen = true
  /-- No run has two rows. -/
  nodup : (s.rows.map Row.id).Nodup
  /-- A row holds the record of its run. -/
  holds : ∀ row ∈ s.rows, ∃ r, m row.id = some r ∧ row.Holds r
  /-- A run with a record has a row. -/
  covers : ∀ id r, m id = some r → ∃ row ∈ s.rows, row.id = id

namespace Refines

variable {s : RunStore} {m : String → Option RunRecord} {r : RunRecord} {row : Row} {id : String}

theorem initial : Refines ({} : RunStore).opened fun _ => none where
  isOpen := rfl
  nodup := List.nodup_nil
  holds := fun _ hrow => by cases hrow
  covers := fun _ _ h => by cases h

/-- The row of a run is found exactly when the run has a record. -/
theorem find? (h : Refines s m) (id : String) :
    (s.rows.find? fun q => q.id == id).map Row.toRecord = (m id).map .ok := by
  cases hfound : s.rows.find? fun q => q.id == id with
  | some row =>
    have hid : row.id = id := by simpa using List.find?_some hfound
    obtain ⟨r, hr, hholds⟩ := h.holds row (List.mem_of_find?_eq_some hfound)
    rw [← hid, hr]
    simp [hholds.toRecord]
  | none =>
    cases hm : m id with
    | none => rfl
    | some r =>
      obtain ⟨row, hrow, hid⟩ := h.covers id r hm
      have hnone := List.find?_eq_none.mp hfound row hrow
      simp [hid] at hnone

/-- A run's record is what the map says. -/
theorem get? (h : Refines s m) (id : String) : s.get? id = .ok (m id) := by
  have hfind := h.find? id
  rw [RunStore.get?, whenOpen_of_isOpen h.isOpen]
  cases hfound : s.rows.find? fun q => q.id == id with
  | none =>
    rw [hfound] at hfind
    cases hm : m id with
    | none => rfl
    | some r => rw [hm] at hfind; cases hfind
  | some row =>
    rw [hfound] at hfind
    cases hm : m id with
    | none => rw [hm] at hfind; cases hfind
    | some r =>
      rw [hm] at hfind
      simp only [Option.map_some, Option.some.injEq] at hfind
      simp only [hfind]
      rfl

/-- Saving maps the run to the record. -/
theorem save (h : Refines s m) (hr : r.Legible) (hrow : Row.ofRecord r = .ok row) :
    ∃ s', s.save r = .ok s' ∧ Refines s' fun id => if id = r.id then some r else m id := by
  have hholds := Row.holds_ofRecord hr hrow
  have hid := hholds.id
  refine ⟨{ s with rows := s.rows.filter (fun q => q.id != row.id) ++ [row] }, ?_, ?_⟩
  · rw [RunStore.save, whenOpen_of_isOpen h.isOpen, hrow]
    rfl
  · refine ⟨h.isOpen, ?_, ?_, ?_⟩
    · exact nodup_ids_replaced h.nodup row
    · intro q hq
      rcases List.mem_append.mp hq with hq | hq
      · obtain ⟨hmem, hne⟩ := List.mem_filter.mp hq
        obtain ⟨r', hr', hq'⟩ := h.holds q hmem
        have hother : q.id ≠ r.id := by
          rw [← hid]
          simpa using hne
        exact ⟨r', by rw [if_neg hother, hr'], hq'⟩
      · rw [List.mem_singleton.mp hq]
        exact ⟨r, if_pos hid, hholds⟩
    · intro id r' hr'
      by_cases hsame : id = r.id
      · exact ⟨row, by simp, by rw [hid, hsame]⟩
      · rw [if_neg hsame] at hr'
        obtain ⟨q, hq, hqid⟩ := h.covers id r' hr'
        have hkept : q ∈ s.rows.filter fun q => q.id != row.id := by
          refine List.mem_filter.mpr ⟨hq, ?_⟩
          rw [hqid, hid]
          simpa using hsame
        exact ⟨q, List.mem_append_left _ hkept, hqid⟩

/-- A record without a row is refused. -/
theorem save_error (h : Refines s m) {f : Fault} (hrow : Row.ofRecord r = .error f) :
    s.save r = .error (.fault f) := by
  rw [RunStore.save, whenOpen_of_isOpen h.isOpen, hrow]
  rfl

/-- Progress of a run changes the lists of its record, if it has one. -/
theorem writeProgress (h : Refines s m) {logs : List Json} {text : String}
    (hlegible : Row.Legible logs) (htext : Row.listText logs = .ok text) (id : String)
    (outputFiles : List String) :
    ∃ s', s.writeProgress id logs outputFiles = .ok s' ∧ Refines s' fun i =>
      if i = id then (m i).map fun r => { r with logs, outputFiles } else m i := by
  obtain ⟨files, hfiles, hread⟩ := Row.exists_listText_texts outputFiles
  refine ⟨{ s with rows := s.rows.map (gather id text files) }, ?_, ?_⟩
  · rw [RunStore.writeProgress, whenOpen_of_isOpen h.isOpen, htext, hfiles]
    rfl
  · refine ⟨h.isOpen, ?_, ?_, ?_⟩
    · rw [ids_gathered]
      exact h.nodup
    · intro q hq
      obtain ⟨row, hrow, rfl⟩ := List.mem_map.mp hq
      obtain ⟨r, hr, hholds⟩ := h.holds row hrow
      rw [id_gather, hr]
      by_cases hid : row.id = id
      · refine ⟨{ r with logs, outputFiles }, if_pos hid, ?_⟩
        rw [gather, if_pos (by simpa using hid)]
        exact hholds.gathered (hlegible text htext) hread
      · refine ⟨r, if_neg hid, ?_⟩
        rw [gather, if_neg (by simpa using hid)]
        exact hholds
    · intro i r' hr'
      have hmapped : ∃ r, m i = some r := by
        by_cases hi : i = id
        · rw [if_pos hi] at hr'
          cases hm : m i with
          | none => rw [hm] at hr'; cases hr'
          | some r => exact ⟨r, rfl⟩
        · rw [if_neg hi] at hr'
          exact ⟨r', hr'⟩
      obtain ⟨r, hr⟩ := hmapped
      obtain ⟨row, hrow, hid⟩ := h.covers i r hr
      exact ⟨_, List.mem_map_of_mem hrow, by rw [id_gather, hid]⟩

/-- Progress with a log that has no text is refused. -/
theorem writeProgress_error (h : Refines s m) {logs : List Json} {f : Fault}
    (htext : Row.listText logs = .error f) (id : String) (outputFiles : List String) :
    s.writeProgress id logs outputFiles = .error (.fault f) := by
  rw [RunStore.writeProgress, whenOpen_of_isOpen h.isOpen, htext]
  rfl

/-- **Progress of an unknown run changes nothing.** -/
theorem writeProgress_unknown (h : Refines s m) {logs : List Json} {text : String}
    (htext : Row.listText logs = .ok text) (hid : m id = none) (outputFiles : List String) :
    s.writeProgress id logs outputFiles = .ok s := by
  obtain ⟨files, hfiles, -⟩ := Row.exists_listText_texts outputFiles
  have hrow : ∀ row ∈ s.rows, gather id text files row = row := by
    intro row hrow
    have hother : row.id ≠ id := by
      obtain ⟨r, hr, -⟩ := h.holds row hrow
      rintro rfl
      rw [hid] at hr
      cases hr
    rw [gather, if_neg (by simpa using hother)]
  have hrows : s.rows.map (gather id text files) = s.rows := by
    rw [List.map_congr_left hrow, List.map_id']
  rw [RunStore.writeProgress, whenOpen_of_isOpen h.isOpen, htext, hfiles]
  change Except.ok { s with rows := s.rows.map (gather id text files) } = .ok s
  rw [hrows]

/-! ### Lists -/

/-- Rows that hold records read as records of the same runs. -/
theorem mapM_toRecord (h : Refines s m) {rows : List Row} (hrows : ∀ row ∈ rows, row ∈ s.rows) :
    ∃ rs, rows.mapM Row.toRecord = .ok rs ∧ rs.map (·.id) = rows.map Row.id
      ∧ ∀ r ∈ rs, m r.id = some r ∧ ∃ row ∈ rows, row.Holds r := by
  induction rows with
  | nil => exact ⟨[], rfl, rfl, fun _ hr => by cases hr⟩
  | cons row rows ih =>
    obtain ⟨r, hr, hholds⟩ := h.holds row (hrows row List.mem_cons_self)
    obtain ⟨rs, hrs, hids, hall⟩ := ih fun q hq => hrows q (List.mem_cons_of_mem _ hq)
    refine ⟨r :: rs, ?_, ?_, ?_⟩
    · rw [List.mapM_cons, hholds.toRecord, hrs]
      rfl
    · rw [List.map_cons, List.map_cons, hids, hholds.id]
    · intro r' hr'
      rcases List.mem_cons.mp hr' with rfl | hr'
      · exact ⟨by rw [← hholds.id, hr], row, List.mem_cons_self, hholds⟩
      · obtain ⟨hm, q, hq, hq'⟩ := hall r' hr'
        exact ⟨hm, q, List.mem_cons_of_mem _ hq, hq'⟩

/-- A list has records of its automation only, those that the map has, and none of them twice. -/
theorem list (h : Refines s m) (automationId : String) {limit : Int}
    (hlimit : Row.integer limit = .ok limit) :
    ∃ rs, s.list automationId limit = .ok rs ∧ (rs.map (·.id)).Nodup
      ∧ ∀ r ∈ rs, r.automationId = automationId ∧ m r.id = some r := by
  have hlist : ∃ rows : List Row,
      s.list automationId limit = (rows.mapM Row.toRecord).mapError .fault
      ∧ rows.Sublist ((s.rows.filter fun q => q.automationId == automationId).mergeSort
          precedes) := by
    rw [RunStore.list, whenOpen_of_isOpen h.isOpen, hlimit]
    by_cases hnone : limit < 0
    · refine ⟨_, ?_, List.Sublist.refl _⟩
      simp [hnone, bind, Except.bind]
    · refine ⟨List.take limit.toNat _, ?_, List.take_sublist _ _⟩
      simp [hnone, bind, Except.bind]
  obtain ⟨rows, hrows, hsublist⟩ := hlist
  have hperm := List.mergeSort_perm (s.rows.filter fun q => q.automationId == automationId) precedes
  have hown : ∀ row ∈ rows, row ∈ s.rows ∧ row.automationId = automationId := by
    intro row hrow
    have hmem := List.mem_filter.mp (hperm.mem_iff.mp (hsublist.subset hrow))
    exact ⟨hmem.1, by simpa using hmem.2⟩
  obtain ⟨rs, hrs, hids, hall⟩ := h.mapM_toRecord fun row hrow => (hown row hrow).1
  refine ⟨rs, ?_, ?_, ?_⟩
  · rw [hrows, hrs]
    rfl
  · have hkept := h.nodup.sublist
      ((List.filter_sublist (p := fun q : Row => q.automationId == automationId)).map Row.id)
    rw [hids]
    exact ((hperm.map Row.id).nodup_iff.mpr hkept).sublist (hsublist.map Row.id)
  · intro r hr
    obtain ⟨hm, row, hrow, hholds⟩ := hall r hr
    exact ⟨by rw [← hholds.automationId, (hown row hrow).2], hm⟩

/-! ### Serving requests -/

/-- One request is served as the history says. -/
theorem serve {requests : List Request} (h : Refines s (recorded requests)) {q : Request}
    (hq : q.Legible) : Refines (q.serve s) (recorded (requests ++ [q])) := by
  cases q with
  | save r =>
    cases hrow : Row.ofRecord r with
    | error f =>
      rw [recorded_concat_save_error hrow, Request.serve, h.save_error hrow]
      exact h
    | ok row =>
      obtain ⟨s', hs', hrefines⟩ := h.save hq hrow
      rw [recorded_concat_save hrow, Request.serve, hs']
      exact hrefines
  | progress i logs outputFiles =>
    cases htext : Row.listText logs with
    | error f =>
      rw [recorded_concat_progress_error htext, Request.serve, h.writeProgress_error htext]
      exact h
    | ok text =>
      obtain ⟨s', hs', hrefines⟩ := h.writeProgress hq htext i outputFiles
      rw [recorded_concat_progress htext, Request.serve, hs']
      exact hrefines
  | get id | list automationId limit =>
    rw [recorded_concat_of_none (fun _ => rfl) fun _ => rfl]
    exact h

/-- Requests are served as the history says: by induction, one request further at a time. -/
theorem served (requests : List Request) (hlegible : ∀ q ∈ requests, q.Legible) :
    Refines (RunStore.served ({} : RunStore).opened requests) (recorded requests) := by
  have hfold : ∀ (later earlier : List Request) (s : RunStore), Refines s (recorded earlier) →
      (∀ q ∈ later, q.Legible) →
      Refines (RunStore.served s later) (recorded (earlier ++ later)) := by
    intro later
    induction later with
    | nil =>
      intro earlier s hs _
      rwa [List.append_nil]
    | cons q later ih =>
      intro earlier s hs hlater
      have hstep := hs.serve (hlater q List.mem_cons_self)
      have hrest := ih (earlier ++ [q]) _ hstep fun p hp => hlater p (List.mem_cons_of_mem _ hp)
      rwa [List.append_assoc] at hrest
  exact hfold requests [] _ initial hlegible

end Refines

/-- **An open store is a map from runs to records.** After any requests whose lists read back, a run
has no record when none was saved for it, and otherwise the latest one saved with the log and the
output files of the latest later progress; progress of an unknown run changes nothing; and a list
has records of its automation only, each as it is kept and none twice. -/
theorem keeps_latest (requests : List Request) (hlegible : ∀ q ∈ requests, q.Legible) :
    (∀ id, (served ({} : RunStore).opened requests).get? id = .ok (recorded requests id))
    ∧ (∀ id logs outputFiles, recorded requests id = none →
        (Request.progress id logs outputFiles).serve (served ({} : RunStore).opened requests)
          = served ({} : RunStore).opened requests)
    ∧ ∀ automationId limit, -0x8000000000000000 ≤ limit → limit < 0x8000000000000000 →
        ∃ rs, (served ({} : RunStore).opened requests).list automationId limit = .ok rs
          ∧ (rs.map (·.id)).Nodup
          ∧ ∀ r ∈ rs, r.automationId = automationId ∧ recorded requests r.id = some r := by
  have hrefines := Refines.served requests hlegible
  refine ⟨hrefines.get?, ?_, ?_⟩
  · intro id logs outputFiles hid
    cases htext : Row.listText logs with
    | error f => rw [Request.serve, hrefines.writeProgress_error htext]; rfl
    | ok text => rw [Request.serve, hrefines.writeProgress_unknown htext hid]; rfl
  · intro automationId limit hleast hgreatest
    exact hrefines.list automationId (by rw [Row.integer, if_pos ⟨hleast, hgreatest⟩])

/-- A run is saved, makes progress, and is followed by another run. -/
def progressing : List Request := [
  .save { id := "r1", automationId := "a1"
          startTime := some { year := 2024, month := 2, day := 29 } },
  .progress "r1" [.object [("message", .text "step one")]] ["mem://a.png"],
  .progress "r3" [] [],
  .save { id := "r2", automationId := "a1" },
  .get "r1"]

theorem legible_progressing : ∀ q ∈ progressing, q.Legible := by
  have hlog : Row.Legible [.object [("message", .text "step one")]] :=
    Row.legible_of_plain ⟨⟨by decide, trivial, trivial⟩, trivial⟩
  have hempty : Row.Legible [] := Row.legible_of_plain trivial
  simp only [progressing, List.forall_mem_cons]
  refine ⟨⟨?_, ?_, hempty⟩, hlog, hempty, ⟨?_, ?_, hempty⟩, trivial, fun _ hq => by cases hq⟩
  all_goals decide

/-- The run has what it reported, and the run that was never saved has no record. -/
theorem keeps_latest_progressing :
    (∀ q ∈ progressing, q.Legible)
    ∧ (served ({} : RunStore).opened progressing).get? "r1" = .ok (some {
        id := "r1", automationId := "a1"
        startTime := some { year := 2024, month := 2, day := 29 }
        logs := [.object [("message", .text "step one")]], outputFiles := ["mem://a.png"] })
    ∧ (served ({} : RunStore).opened progressing).get? "r3" = .ok none := by
  obtain ⟨hget, -, -⟩ := keeps_latest progressing legible_progressing
  exact ⟨legible_progressing, hget "r1", hget "r3"⟩

end RunStore

end Runbook
