import Runbook.Proofs.Moves

/-!
# Jobs in the order in which they became ready

`State.run` takes the jobs in the order in which they became ready. It is one of the schedules, and
so what holds of all schedules holds of it. What has to be seen is that it notes the end of a loop
index only after that loop index has ended: the ends that are noted and those still to be noted are
together all the ends that there were (`State.InOrder`).

* `State.noted env program n s`: what happens in at most `n` jobs, and the state in the end.
* `State.noted_reaches`, `State.runMain_reaches`: taking jobs in order is a schedule.
* `State.opening shared p`: a run that begins with its main task, as if that were a job like the
  others.
-/

namespace Runbook.Schedule

variable {σ α : Type}

theorem ends_goesOn {env : Collaborators σ} {p : Program α} {s s' : Shared σ} {t : List Deed}
    {task : Task α} (h : GoesOn env p s t task s') : s'.ends = s.ends := by
  induction h with
  | call _ ih => exact ih.trans (Shared.ends_answer ..)
  | resume _ _ ih => exact ih
  | after => exact Shared.ends_answer ..
  | _ => rfl

theorem ends_note (s : Shared σ) (outcomes : List (Nat × Option Failure)) :
    ({ s with outcomes, next := s.next ++ [.loopEnded] } : Shared σ).ends = s.ends + 1 :=
  Shared.ends_append_next { s with outcomes } [.loopEnded]

namespace Task

/-- A task that waits for the end of loop indices. -/
def Joins (t : Task α) : Prop := ∃ n k, t = .waiting (.loops n) k

theorem Woken.joins {allowed : Wait → Wake → Prop} {t t' : Task α} (hw : t.Woken allowed t')
    (h : t'.Joins) : t.Joins := by
  rcases hw with rfl | ⟨w, k, wake, rfl, -, rfl⟩
  · exact h
  · obtain ⟨n, k', h⟩ := h
    cases h

/-- A task that is woken from other waits waits for loop indices as before. -/
theorem Woken.joins_iff {allowed : Wait → Wake → Prop} {t t' : Task α} (hw : t.Woken allowed t')
    (hnot : ∀ n wake, ¬ allowed (.loops n) wake) : t'.Joins ↔ t.Joins := by
  refine ⟨hw.joins, ?_⟩
  rintro ⟨n, k, rfl⟩
  rcases hw with rfl | ⟨w, k', wake, ht, ha, -⟩
  · exact ⟨n, k, rfl⟩
  · cases ht
    exact absurd ha (hnot n wake)

theorem result?_interrupted (t : Task α) : t.interrupted.result? = t.result? := by cases t <;> rfl

theorem Settles.result? {t t' : Task α} (h : t.Settles t') (ht : ∀ a, t ≠ .ended a) :
    t'.result? = none := by
  rcases h with rfl | ⟨w, k, wake, rfl, -, rfl⟩
  · cases t' with
    | ended a => exact absurd rfl (ht a)
    | _ => rfl
  · rfl

end Task

namespace State

variable {env : Collaborators σ} {program : Nat → Program (Option Failure)}

/-! ### Loop indices that have ended -/

theorem exists_split_of_loop? {s : State σ α} {i : Nat} {t : Task (Option Failure)}
    (h : s.loop? i = some t) : ∃ before after, s.loops = before ++ (i, t) :: after := by
  simp only [loop?, Option.map_eq_some_iff] at h
  obtain ⟨⟨j, t'⟩, hfind, rfl⟩ := h
  obtain rfl : j = i := by simpa using List.find?_some hfind
  exact List.append_of_mem (List.mem_of_find?_eq_some hfind)

theorem mem_of_loop? {s : State σ α} {i : Nat} {t : Task (Option Failure)}
    (h : s.loop? i = some t) : (i, t) ∈ s.loops := by
  obtain ⟨before, after, hsplit⟩ := exists_split_of_loop? h
  rw [hsplit]
  simp

/-- The number of loop indices that have ended, after a change of one that has not. -/
theorem ended_withLoop {s : State σ α} {i : Nat} {t t' : Task (Option Failure)} (hd : s.Distinct)
    (hloop : s.loop? i = some t) (ht : t.result? = none) :
    (withLoop i t' s.loops).countP (fun l => l.2.result?.isSome) =
      s.ended + if t'.result?.isSome then 1 else 0 := by
  obtain ⟨before, after, hsplit⟩ := exists_split_of_loop? hloop
  rw [Distinct, hsplit] at hd
  rw [ended, hsplit, withLoop_of_distinct hd]
  simp only [List.countP_append, List.countP_cons, ht]
  simp
  omega

theorem ended_le_length (s : State σ α) : s.ended ≤ s.loops.length := List.countP_le_length

/-! ### The order of jobs -/

/-- Every end of a loop index has been noted or is still to be noted, and all ends have been noted
when the main task does not wait for any. -/
structure InOrder (s : State σ α) : Prop where
  distinct : s.Distinct
  counted : s.joined + s.shared.ends = s.ended
  joined : ¬ s.main.Joins → s.joined = s.loops.length

theorem not_joins_of_turn? {t : Task α} {x : List Deed × Program α}
    (h : t.turn? = some x) : ¬ t.Joins := by
  rintro ⟨n, k, rfl⟩
  cases h

theorem result?_of_turn? {t : Task α} {x : List Deed × Program α} (h : t.turn? = some x) :
    t.result? = none := by
  cases t <;> first | rfl | cases h

/-- What leaves loop indices as they are keeps the order of jobs, unless the main task ceases to
wait for them. -/
theorem InOrder.of_same {s s' : State σ α} (hi : s.InOrder) (hloops : s'.loops = s.loops)
    (hnoted : s'.joined = s.joined) (hends : s'.shared.ends = s.shared.ends)
    (hmain : s.main.Joins → s'.main.Joins) : s'.InOrder := by
  refine ⟨?_, ?_, fun hno => ?_⟩
  · rw [Distinct, hloops]
    exact hi.distinct
  · rw [hnoted, hends, ended, hloops]
    exact hi.counted
  · rw [hnoted, hloops]
    exact hi.joined fun h => hno (hmain h)

/-- One loop index goes on, or ends and is to be noted. -/
theorem InOrder.withLoop {s : State σ α} (hi : s.InOrder) {i : Nat} {t t' : Task (Option Failure)}
    (hloop : s.loop? i = some t) (ht : t.result? = none) {sh : Shared σ}
    (hends : sh.ends = s.shared.ends + if t'.result?.isSome then 1 else 0) :
    InOrder { s with loops := withLoop i t' s.loops, shared := sh } := by
  refine ⟨?_, ?_, by simpa [State.withLoop] using hi.joined⟩
  · rw [Distinct, keys_withLoop]
    exact hi.distinct
  · change s.joined + sh.ends = List.countP _ _
    rw [hends, ended_withLoop hi.distinct hloop ht, ← hi.counted, Nat.add_assoc]

/-- A move keeps the order of jobs: the one that is carried out is no longer to be noted. -/
theorem Move.inOrder {s s' : State σ α} {j : Job} {h : List Happening}
    (hm : Move env program s j h s') (hd : s.Distinct)
    (hcounted : s.joined + (s.shared.ends + if j = .loopEnded then 1 else 0) = s.ended)
    (hjoined : ¬ s.main.Joins → s.joined = s.loops.length) : s'.InOrder := by
  have hd' := hm.distinct hd
  -- Only a job that notes the end of a loop index was counted besides those that are left.
  have hi (hj : j ≠ .loopEnded) : s.InOrder := ⟨hd, by simpa [hj] using hcounted, hjoined⟩
  cases hm with
  | skip hj => exact hi hj
  | main hturn hgoes hloops htask hsh =>
    refine (hi nofun).of_same rfl rfl (hsh.1.trans (ends_goesOn hgoes)) fun hjoins => ?_
    exact absurd hjoins (not_joins_of_turn? hturn)
  | @start _ _ _ n k sh sh' hturn hgoes hsh =>
    refine ⟨hd', ?_, fun hno => absurd ⟨_, _, rfl⟩ hno⟩
    have hnone : ((List.range n).map fun i => (i, Task.fresh (program i))).countP
        (fun l => l.2.result?.isSome) = 0 := List.countP_eq_zero.mpr (by simp [Task.result?])
    -- All ends have been noted, so that no job to note one is left from before.
    have hle := s.ended_le_length
    have hall := hjoined (not_joins_of_turn? hturn)
    have hcounted := (hi nofun).counted
    change 0 + sh'.ends = List.countP _ _
    rw [hsh.1, hnone]
    change 0 + sh.ends = 0
    rw [ends_goesOn hgoes]
    omega
  | loop hloop hturn hgoes hend htask hsh =>
    refine (hi nofun).withLoop hloop (result?_of_turn? hturn) ?_
    rw [hsh.1, ends_goesOn hgoes, htask.result? hend]
    rfl
  | loopEnds hloop hturn hgoes hsh =>
    refine (hi nofun).withLoop hloop (result?_of_turn? hturn) ?_
    rw [hsh.1, ends_note, ends_goesOn hgoes]
    rfl
  | stillborn hloop hsh =>
    refine (hi nofun).withLoop hloop rfl ?_
    rw [hsh.1, ends_note]
    rfl
  | note hj hmain hsh =>
    refine ⟨hd', ?_, ?_⟩
    · change s.joined + 1 + _ = s.ended
      rw [hsh.1]
      simp only [if_true] at hcounted
      omega
    · intro hno
      have hle := s.ended_le_length
      rcases hmain with rfl | ⟨w, k, wake, -, ⟨-, hall, -⟩, -⟩
      · have hall := hjoined hno
        omega
      · exact hall
  | consumer hactive hmain hsh =>
    exact (hi nofun).of_same rfl rfl (hsh.1.trans (Shared.ends_consumerTurn ..))
      (hmain.joins_iff (by simp)).mpr
  | ticker hactive hmain hsh =>
    exact (hi nofun).of_same rfl rfl (hsh.1.trans (Shared.ends_tickerTurn ..))
      (hmain.joins_iff (by simp)).mpr
  | wakeMain hmain hsh =>
    exact (hi nofun).of_same rfl rfl hsh.1 (hmain.joins_iff (by simp)).mpr
  | stored hmain =>
    refine (hi nofun).of_same rfl rfl rfl ?_
    rintro ⟨n, k, hloops⟩
    cases hmain.symm.trans hloops
  | wakeLoop hloop hsh => exact (hi nofun).withLoop hloop rfl hsh.1
  | tick hphase hsh => exact (hi nofun).of_same rfl rfl hsh.1 id
  | interrupt hmain hsh =>
    refine (hi nofun).of_same rfl rfl hsh.1 ?_
    rintro ⟨n, k, hloops⟩
    simpa using hmain _ _ hloops
  | interruptConsumer hmain =>
    exact (hi nofun).of_same rfl rfl (Shared.ends_answer env .stopConsumer s.shared) id
  | interruptTicker hmain =>
    exact (hi nofun).of_same rfl rfl (Shared.ends_answer env .stopTicker s.shared) id
  | interruptLoops hmain hsh =>
    refine ⟨hd', ?_, by simpa using hjoined⟩
    change s.joined + _ = List.countP _ _
    rw [hsh.1, List.countP_map]
    refine hcounted.trans (List.countP_congr fun l _ => ?_)
    rw [Function.comp_apply, Task.result?_interrupted]
  | idle => exact hi nofun
  | timeout => exact (hi nofun).of_same rfl rfl rfl id
  | cancel => exact (hi nofun).of_same rfl rfl rfl id

/-! ### Taking jobs in order is a schedule -/

private theorem formBatch_alike {s : Shared σ} (hempty : s.current = []) :
    s.Alike (formBatch s) := by
  have halarms : (dueAlarms s).count .loopEnded = 0 := by
    refine List.count_eq_zero.mpr fun hm => ?_
    obtain ⟨t, -, heq⟩ := List.mem_map.mp hm
    cases heq
  refine ⟨?_, _, _, _, _, rfl⟩
  simp [Shared.ends, formBatch, hempty, halarms]

/-- Takes the first of the jobs that are ready. -/
def takeJob? (s : Shared σ) : Option (Job × Shared σ) :=
  match s.current with
  | [] => none
  | j :: rest => some (j, { s with current := rest })

theorem ends_of_takeJob? {s s' : Shared σ} {j : Job} (h : takeJob? s = some (j, s')) :
    s.ends = s'.ends + (if j = .loopEnded then 1 else 0) ∧
      ∃ current, s' = { s with current } := by
  unfold takeJob? at h
  split at h
  · cases h
  · rename_i j' rest hcurrent
    cases h
    refine ⟨?_, rest, rfl⟩
    simp only [Shared.ends, hcurrent, List.cons_append, List.count_cons, beq_iff_eq]

/-- The next job is one that is ready, or the clock moves on to the time at which one is. -/
theorem nextJob?_spec {s s' : Shared σ} {j : Job} (h : nextJob? s = some (j, s')) :
    s.clock ≤ s'.clock ∧ s.ends = s'.ends + (if j = .loopEnded then 1 else 0) ∧
      ∃ clock timers current next, s' = { s with clock, timers, current, next } := by
  have htaken (s₁ : Shared σ) (halike : s.Alike s₁) (hclock : s.clock ≤ s₁.clock)
      (h : takeJob? s₁ = some (j, s')) :
      s.clock ≤ s'.clock ∧ s.ends = s'.ends + (if j = .loopEnded then 1 else 0) ∧
        ∃ clock timers current next, s' = { s with clock, timers, current, next } := by
    obtain ⟨hends, _, _, _, _, rfl⟩ := halike
    obtain ⟨htaken, _, rfl⟩ := ends_of_takeJob? h
    exact ⟨hclock, hends.symm.trans htaken, _, _, _, _, rfl⟩
  unfold nextJob? at h
  by_cases hempty : s.current = []
  · rw [hempty, List.isEmpty_nil, if_pos rfl] at h
    split at h
    · refine htaken (formBatch { s with clock := _ }) ?_ ?_ h
      · have hlater : s.Alike { s with clock := _ } := ⟨rfl, _, _, _, _, rfl⟩
        exact hlater.trans (formBatch_alike hempty)
      · change s.clock ≤ if _ then _ else _
        split
        · assumption
        · exact Rat.le_refl
    · exact htaken _ (formBatch_alike hempty) Rat.le_refl h
  · rw [if_neg (by simpa using hempty)] at h
    exact htaken _ (.refl s) Rat.le_refl h

/-- To take the next job and to carry it out keeps the order of jobs, and is part of a schedule. -/
theorem job_reaches {s : State σ α} (hi : s.InOrder) {j : Job} {sh : Shared σ}
    (hjob : nextJob? s.shared = some (j, sh)) :
    (perform env program j { s with shared := sh }).2.InOrder ∧
      Reaches env program s (history env { s with shared := sh } j)
        (perform env program j { s with shared := sh }).2 := by
  obtain ⟨hclock, hends, clock, timers, current, next, rfl⟩ := nextJob?_spec hjob
  -- A job that has been taken is no longer among those that are ready, and has to be counted
  -- until it has been carried out.
  have hcounted : s.joined + (Shared.ends { s.shared with clock, timers, current, next } +
      if j = .loopEnded then 1 else 0) = s.ended := by
    rw [← hends]
    exact hi.counted
  have hpass : Step env program s [] { s with
      shared := { s.shared with clock, timers, current, next } } :=
    .pass clock timers current next hclock
  have hlt (hj : j = .loopEnded) : s.joined < s.ended := by
    simp only [hj, if_true] at hcounted
    omega
  have hmove := perform_move env program
    (s := { s with shared := { s.shared with clock, timers, current, next } }) hi.distinct j hlt
  exact ⟨hmove.inOrder hi.distinct hcounted hi.joined, (Reaches.step hpass).tail (.job j hlt)⟩

/-! ### What happens when jobs are taken in order -/

/-- Goes on for at most so many jobs, and notes what happens. -/
def noted (env : Collaborators σ) (program : Nat → Program (Option Failure)) :
    Nat → State σ α → List Happening × State σ α
  | 0, s => ([], s)
  | n + 1, s =>
    match s.main.result? with
    | some _ => ([], s)
    | none =>
      match nextJob? s.shared with
      | none => ([], s)
      | some (j, shared) =>
        let rest := noted env program n (perform env program j { s with shared }).2
        (history env { s with shared } j ++ rest.1, rest.2)

/-- A job that is taken comes first, and then the others. -/
theorem noted_succ {n : Nat} {s : State σ α} {j : Job} {sh : Shared σ}
    (hmain : s.main.result? = none) (hjob : nextJob? s.shared = some (j, sh)) :
    noted env program (n + 1) s =
      (history env { s with shared := sh } j ++
        (noted env program n (perform env program j { s with shared := sh }).2).1,
      (noted env program n (perform env program j { s with shared := sh }).2).2) := by
  rw [noted, hmain, hjob]

/-- Without a job nothing happens. -/
theorem noted_of_idle {s : State σ α} (n : Nat) (hjob : nextJob? s.shared = none) :
    noted env program n s = ([], s) := by
  cases n with
  | zero => rfl
  | succ n =>
    rw [noted, hjob]
    cases s.main.result? <;> rfl

theorem noted_snd (n : Nat) (s : State σ α) :
    (noted env program n s).2 = run env program n s := by
  induction n generalizing s with
  | zero => rfl
  | succ n ih =>
    rw [noted, run, step]
    cases s.main.result? with
    | some a => rfl
    | none =>
      cases nextJob? s.shared with
      | none => rfl
      | some x => exact ih _

/-- Taking jobs in order is a schedule and keeps their order, however many there are. -/
theorem noted_reaches (n : Nat) {s : State σ α} (hi : s.InOrder) :
    (noted env program n s).2.InOrder ∧
      Reaches env program s (noted env program n s).1 (noted env program n s).2 := by
  induction n generalizing s with
  | zero => exact ⟨hi, .refl s⟩
  | succ n ih =>
    cases hmain : s.main.result? with
    | some a =>
      rw [noted, hmain]
      exact ⟨hi, .refl s⟩
    | none =>
      cases hjob : nextJob? s.shared with
      | none =>
        rw [noted_of_idle _ hjob]
        exact ⟨hi, .refl s⟩
      | some x =>
        obtain ⟨hi₁, hs₁⟩ := job_reaches hi hjob
        obtain ⟨hi₂, hs₂⟩ := ih hi₁
        rw [noted_succ hmain hjob]
        exact ⟨hi₂, hs₁.trans hs₂⟩

theorem run_reaches (n : Nat) {s : State σ α} (hi : s.InOrder) :
    (run env program n s).InOrder ∧ ∃ h, Reaches env program s h (run env program n s) := by
  rw [← noted_snd]
  exact (noted_reaches n hi).imp_right fun hs => ⟨_, hs⟩

/-! ### Runs that begin -/

theorem inOrder_start {shared : Shared σ} (p : Program α) (hends : shared.ends = 0) :
    (start shared p).InOrder :=
  ⟨distinct_start shared p, (congrArg (0 + ·) hends).trans rfl, fun _ => rfl⟩

/-- A state in which the main task has its turn next. -/
def inTurn (s : State σ α) : State σ α :=
  { s with shared := { s.shared with current := .main :: s.shared.current } }

theorem nextJob?_inTurn (s : State σ α) : nextJob? s.inTurn.shared = some (.main, s.shared) := rfl

theorem InOrder.inTurn {s : State σ α} (hi : s.InOrder) : s.inTurn.InOrder := by
  refine hi.of_same rfl rfl ?_ id
  simp [State.inTurn, Shared.ends]

/-- A run that begins with its main task. Alarms that are due already belong to the first batch. -/
def opening (shared : Shared σ) (p : Program α) : State σ α :=
  inTurn (start
    (if shared.current.isEmpty && shared.next.isEmpty then formBatch shared else shared) p)

/-- A run is one that begins with its main task and takes its jobs in order. -/
theorem runMain_eq_noted (shared : Shared σ) (p : Program α) :
    runMain env program shared p = (noted env program (patience + 1) (opening shared p)).2 := by
  rw [opening, noted_succ rfl (nextJob?_inTurn _), noted_snd]
  rfl

/-- The beginning of a run is in order. -/
theorem inOrder_opening (shared : Shared σ) (p : Program α) (hends : shared.ends = 0) :
    (opening shared p).InOrder := by
  rw [opening]
  split
  · rename_i hempty
    rw [Bool.and_eq_true, List.isEmpty_iff] at hempty
    have halike := formBatch_alike hempty.1
    exact (inOrder_start p (halike.1.trans hends)).inTurn
  · exact (inOrder_start p hends).inTurn

/-- The beginning of a run is part of a schedule. -/
theorem opening_reaches (shared : Shared σ) (p : Program α) :
    Reaches env program (start shared p) [] (opening shared p) := by
  rw [opening]
  split
  · exact Reaches.step (.pass _ _ _ _ Rat.le_refl)
  · exact Reaches.step (.pass _ _ _ _ Rat.le_refl)

/-- A main task that goes on to its end, with the jobs in order, goes through a schedule. -/
theorem runMain_reaches (shared : Shared σ) (p : Program α) (hends : shared.ends = 0) :
    ∃ h, Reaches env program (start shared p) h (runMain env program shared p) := by
  have hi := inOrder_opening shared p hends
  rw [runMain_eq_noted]
  exact ⟨_, (opening_reaches shared p).trans (noted_reaches _ hi).2⟩

end State

end Runbook.Schedule
