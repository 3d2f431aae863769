import Runbook.Proofs.InOrder
import Runbook.Proofs.Robust

/-!
# Two runs abreast

Two runs of robust programs are carried out with their jobs in order, in surroundings that go on
alike. They take the same jobs, but for the turns of the consumer, which either of them takes for
itself.

When only turns of the consumer are left in a batch of one run, the next batch of the other may
have been formed already, and its clock may have jumped to the next timer. So two runs are compared
by what they share when the next job has been made ready, the turns of the consumer left out.

* `State.settled`: what tasks share when the next job is ready.
* `State.core`, `State.Like`: two runs are at the same point.
* `State.Abreast`: two runs are at the same point once the next job is ready.
* `State.Abreast.take`: they take the same job, if neither takes a turn of the consumer.
* `State.Abreast.consumer`: a turn of the consumer leaves a run abreast of the other one.
-/

namespace Runbook.Schedule

variable {σ α : Type}

namespace State

/-! ### The next job that both have -/

/-- What tasks share when the next job is ready, if there is one. -/
def settled (s : Shared σ) : Shared σ :=
  if s.current.isEmpty then
    match s.next, s.timers with
    | [], t :: _ => formBatch { s with clock := if s.clock ≤ t.1 then t.1 else s.clock }
    | _, _ => formBatch s
  else s

theorem nextJob?_eq (s : Shared σ) : nextJob? s = takeJob? (settled s) := rfl

theorem settled_of_current {s : Shared σ} (h : s.current ≠ []) : settled s = s := by
  rw [settled, if_neg (by simpa using h)]

theorem settled_of_next {s : Shared σ} (h : s.current = []) (hnext : s.next ≠ []) :
    settled s = formBatch s := by
  rw [settled, h, List.isEmpty_nil, if_pos rfl]
  split
  · exact absurd ‹_› hnext
  · rfl

theorem settled_of_timers {s : Shared σ} {t : Rat × Alarm} {ts : List (Rat × Alarm)}
    (h : s.current = []) (hnext : s.next = []) (htimers : s.timers = t :: ts) :
    settled s = formBatch { s with clock := if s.clock ≤ t.1 then t.1 else s.clock } := by
  rw [settled, h, hnext, htimers]
  rfl

theorem settled_of_nothing {s : Shared σ} (h : s.current = []) (htimers : s.timers = []) :
    settled s = formBatch s := by
  rw [settled, h, htimers, List.isEmpty_nil, if_pos rfl]
  split
  · cases ‹[] = _›
  · rfl

theorem visible_dueAlarms (s : Shared σ) : visible (dueAlarms s) = dueAlarms s := by
  refine List.filter_eq_self.mpr fun j hj => ?_
  obtain ⟨t, -, rfl⟩ := List.mem_map.mp hj
  rfl

theorem core_formBatch (s : Shared σ) : (formBatch s).core = formBatch s.core := by
  have hcurrent : visible (s.next ++ dueAlarms s) = visible s.next ++ dueAlarms s := by
    rw [visible_append, visible_dueAlarms]
  exact congrArg (fun current => { formBatch s.core with current }) hcurrent

/-- When no timer is due, to form a batch of nothing changes nothing. -/
theorem formBatch_of_nothing {s : Shared σ} (h : s.current = []) (hnext : s.next = [])
    (hdue : dueAlarms s = []) : formBatch s = s := by
  have htake : s.timers.takeWhile (fun t => t.1 ≤ s.clock) = [] := List.map_eq_nil_iff.mp hdue
  have hdrop : s.timers.dropWhile (fun t => t.1 ≤ s.clock) = s.timers := by
    simpa [htake] using List.takeWhile_append_dropWhile (p := fun t => t.1 ≤ s.clock)
      (l := s.timers)
  rw [formBatch, hdue, hnext, hdrop]
  calc ({ s with current := [] ++ [], next := [] } : Shared σ)
      = { s with current := s.current, next := [] } := by rw [h, List.append_nil]
    _ = s := congrArg (fun next => { s with next }) hnext.symm

theorem dueAlarms_ne_nil {s : Shared σ} {t : Rat × Alarm} {ts : List (Rat × Alarm)}
    (htimers : s.timers = t :: ts) (ht : t.1 ≤ s.clock) : dueAlarms s ≠ [] := by
  simp [dueAlarms, htimers, ht]

theorem exists_due {s : Shared σ} (h : dueAlarms s ≠ []) :
    ∃ t ts, s.timers = t :: ts ∧ t.1 ≤ s.clock := by
  rw [dueAlarms] at h
  cases htimers : s.timers with
  | nil => exact absurd (by rw [htimers]; rfl) h
  | cons t ts =>
    refine ⟨t, ts, rfl, Decidable.byContradiction fun hlater => h ?_⟩
    simp [htimers, hlater]

/-- What tasks share apart from the turns of the consumer is settled in the same way, whether those
are waited for or not. -/
theorem settled_core (s : Shared σ) : settled (settled s).core = settled s.core := by
  by_cases hcurrent : s.current = []
  case neg => rw [settled_of_current hcurrent]
  have hcore : s.core.current = [] := congrArg visible hcurrent
  by_cases hnext : s.next = []
  · have hnext' : s.core.next = [] := congrArg visible hnext
    cases htimers : s.timers with
    | nil =>
      have hdue : dueAlarms s.core = [] := by
        rw [dueAlarms, show s.core.timers = [] from htimers]
        rfl
      rw [settled_of_nothing hcurrent htimers, core_formBatch,
        formBatch_of_nothing hcore hnext' hdue]
    | cons t ts =>
      rw [settled_of_timers hcurrent hnext htimers, settled_of_timers hcore hnext' htimers,
        core_formBatch]
      refine settled_of_current fun hnone => ?_
      have htimers' : s.core.timers = t :: ts := htimers
      refine dueAlarms_ne_nil (s := { s.core with
        clock := if s.clock ≤ t.1 then t.1 else s.clock }) htimers' ?_
        (List.append_eq_nil_iff.mp hnone).2
      change t.1 ≤ if _ then _ else _
      split
      · exact Rat.le_refl
      · exact Rat.le_of_lt (Rat.not_le.mp ‹_›)
  · rw [settled_of_next hcurrent hnext, core_formBatch]
    by_cases hvisible : s.core.next = []
    · by_cases hdue : dueAlarms s.core = []
      · rw [formBatch_of_nothing hcore hvisible hdue]
      · obtain ⟨t, ts, htimers, ht⟩ := exists_due hdue
        have hclock : (if s.core.clock ≤ t.1 then t.1 else s.core.clock) = s.core.clock := by
          split
          · exact Rat.le_antisymm ht ‹_›
          · rfl
        rw [settled_of_timers hcore hvisible htimers, hclock]
        exact settled_of_current fun h => hdue (List.append_eq_nil_iff.mp h).2
    · rw [settled_of_next hcore hvisible]
      exact settled_of_current fun h => hvisible (List.append_eq_nil_iff.mp h).1

/-- A turn of the consumer that is taken leaves the next job as it is. -/
theorem settled_core_of_consumer {s sh : Shared σ} (h : nextJob? s = some (.consumer, sh)) :
    settled sh.core = settled s.core := by
  rw [nextJob?_eq, takeJob?] at h
  split at h
  · cases h
  · rename_i j rest hcurrent
    cases h
    have hcore : ({ settled s with current := rest } : Shared σ).core = (settled s).core := by
      refine congrArg (fun current => { (settled s).core with current }) ?_
      exact (congrArg visible hcurrent).symm
    rw [hcore, settled_core]

/-- The next job is one that both have, if it is not a turn of the consumer. -/
theorem nextJob?_core {s sh : Shared σ} {j : Job} (hj : j ≠ .consumer)
    (h : nextJob? s = some (j, sh)) : nextJob? s.core = some (j, sh.core) := by
  rw [nextJob?_eq, ← settled_core s]
  rw [nextJob?_eq, takeJob?] at h
  split at h
  · cases h
  · rename_i j' rest hcurrent
    cases h
    have hcore : (settled s).core.current = j :: visible rest :=
      (congrArg visible hcurrent).trans (visible_cons hj rest)
    rw [settled_of_current (by rw [hcore]; exact List.cons_ne_nil _ _), takeJob?, hcore]
    rfl

/-! ### States that are alike -/

/-- A state but for the events and the world outside. -/
def core (s : State σ α) : State Unit α where
  shared := s.shared.core
  main := s.main
  loops := s.loops
  joined := s.joined
  joinInterrupted := s.joinInterrupted

/-- Two runs are at the same point, and what is left of the world outside is alike. -/
structure Like (same : σ → σ → Prop) (s s' : State σ α) : Prop where
  core : s.core = s'.core
  outside : same s.shared.outside s'.shared.outside

/-- Two runs are at the same point when the next job has been made ready. -/
structure Abreast (same : σ → σ → Prop) (s s' : State σ α) : Prop where
  core : { s.core with shared := settled s.shared.core } =
    { s'.core with shared := settled s'.shared.core }
  outside : same s.shared.outside s'.shared.outside

section Relations

variable {same : σ → σ → Prop} {s s' : State σ α}

theorem Like.symm (h : Like same s s') : Like (fun o o' => same o' o) s' s :=
  ⟨h.core.symm, h.outside⟩

theorem Like.shared (h : Like same s s') : Shared.Like same s.shared s'.shared :=
  ⟨congrArg State.shared h.core, h.outside⟩

theorem Like.main (h : Like same s s') : s.main = s'.main :=
  congrArg (fun k : State Unit α => k.main) h.core

theorem Like.loops (h : Like same s s') : s.loops = s'.loops :=
  congrArg (fun k : State Unit α => k.loops) h.core

theorem Like.abreast (h : Like same s s') : Abreast same s s' :=
  ⟨congrArg (fun k : State Unit α => { k with shared := settled k.shared }) h.core, h.outside⟩

theorem Abreast.symm (h : Abreast same s s') : Abreast (fun o o' => same o' o) s' s :=
  ⟨h.core.symm, h.outside⟩

/-- Two runs that are abreast take the same job, if neither takes a turn of the consumer, and then
they are alike. -/
theorem Abreast.take (h : Abreast same s s') {j j' : Job} {sh sh' : Shared σ}
    (hjob : nextJob? s.shared = some (j, sh)) (hjob' : nextJob? s'.shared = some (j', sh'))
    (hj : j ≠ .consumer) (hj' : j' ≠ .consumer) :
    j = j' ∧ Like same { s with shared := sh } { s' with shared := sh' } := by
  have hshared : settled s.shared.core = settled s'.shared.core := congrArg State.shared h.core
  have hnext : some (j, sh.core) = some (j', sh'.core) := by
    rw [← nextJob?_core hj hjob, ← nextJob?_core hj' hjob', nextJob?_eq, nextJob?_eq, hshared]
  obtain ⟨rfl, hcore⟩ := Prod.mk.inj (Option.some.inj hnext)
  have htaken : { s.core with shared := sh.core } = { s'.core with shared := sh'.core } := by
    rw [← hcore]
    exact congrArg (fun k : State Unit α => { k with shared := sh.core }) h.core
  obtain ⟨-, -, _, _, _, _, rfl⟩ := nextJob?_spec hjob
  obtain ⟨-, -, _, _, _, _, rfl⟩ := nextJob?_spec hjob'
  exact ⟨rfl, htaken, h.outside⟩

/-- A run that takes a turn of the consumer is abreast of the other one as before. -/
theorem Abreast.consumer (h : Abreast same s s') {sh sh₁ : Shared σ}
    (hjob : nextJob? s.shared = some (.consumer, sh)) (hcore : sh₁.core = sh.core)
    (hout : same sh₁.outside s'.shared.outside) :
    Abreast same { s with shared := sh₁ } s' := by
  refine ⟨?_, hout⟩
  have hsettled : settled sh₁.core = settled s.shared.core := by
    rw [hcore, settled_core_of_consumer hjob]
  calc ({ s.core with shared := settled sh₁.core } : State Unit α)
      = { s.core with shared := settled s.shared.core } := by rw [hsettled]
    _ = { s'.core with shared := settled s'.shared.core } := h.core

end Relations

end State

end Runbook.Schedule
