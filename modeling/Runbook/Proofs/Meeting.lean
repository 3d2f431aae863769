import Runbook.Proofs.Paces

/-!
# Runs that meet

Two runs go on abreast, in surroundings that are alike, until both main tasks come to the same final
program. Every job that both of them take keeps them at the same point and reports the same in both.
A turn of the consumer, which one of them takes for itself, leaves it abreast of the other one.

* `State.InStep`: two runs are at the same point after a job and have reported the same in it.
* `State.Like.perform`, `State.Like.perform_main`: what a job of both runs comes to.
* `State.Abreast.perform_consumer`: what a turn of the consumer of one run comes to.
* `State.Meet`, `State.Abreast.meet`: both runs come to the same final program, and have reported
  the same until then.
-/

namespace Runbook.Schedule

open Program (IsDone)
open Whole (allDeeds)

variable {σ α : Type} {env env' : Collaborators σ} {same : σ → σ → Prop}
  {final : Program α → Prop} {program : Nat → Program (Option Failure)}

namespace State

/-! ### Jobs of both runs -/

/-- After a job two runs are at the same point, their tasks are robust, and they have reported the
same in it. -/
structure InStep (same : σ → σ → Prop) (final : Program α → Prop) (s s' : State σ α)
    (h h' : List Happening) : Prop where
  like : Like same s s'
  robust : s.Robust final
  reports : reported (allDeeds h) = reported (allDeeds h')

theorem Like.withShared {s s' : State σ α} (h : Like same s s') {sh sh' : Shared σ}
    (hsh : Shared.Like same sh sh') :
    Like same { s with shared := sh } { s' with shared := sh' } := by
  refine ⟨?_, hsh.outside⟩
  calc ({ s.core with shared := sh.core } : State Unit α)
      = { s'.core with shared := sh.core } := by rw [h.core]
    _ = { s'.core with shared := sh'.core } := by rw [hsh.core]

theorem Robust.withShared {s : State σ α} (hs : s.Robust final) (sh : Shared σ) :
    State.Robust final { s with shared := sh } :=
  ⟨hs.main, hs.loops⟩

/-- A robust main task waits for nothing that may be over in one run only. -/
theorem Robust.ordinary {s : State σ α} (hs : s.Robust final) (w : Wait) (k : Wake → Program α)
    (hwaits : s.main = .waiting w k) : w.Ordinary := by
  have hmain := hs.main
  rw [hwaits] at hmain
  exact hmain.1

section Both

variable {s s' : State σ α}

/-- Both runs have done the same to the core, and their tasks are robust. -/
theorem InStep.of_inward {m : StateM (State σ α) Unit} {m₀ : StateM (State Unit α) Unit}
    (hm : Inward m m₀) (h : Like same s s') (hr : (m s).2.Robust final) {t t' : List Happening}
    (ht : reported (allDeeds t) = reported (allDeeds t')) :
    InStep same final (m s).2 (m s').2 t t' :=
  ⟨hm.like h, hr, ht⟩

variable (hp : Peers env env' same) (h : Like same s s') (hs : s.Robust final)

include h hs

include hp in
/-- A loop index has its turn in both runs. -/
theorem Like.perform_loop (i : Nat) :
    InStep same final (perform env program (.loop i) s).2 (perform env' program (.loop i) s').2
      (s.history env (.loop i)) (s'.history env' (.loop i)) := by
  have hloop' : s'.loop? i = s.loop? i := by rw [loop?, loop?, h.loops]
  by_cases hready : ∃ t first p, s.loop? i = some t ∧ t.turn? = some (first, p)
  · obtain ⟨t, first, p, hloop, hturn⟩ := hready
    obtain ⟨hrobust, hfirst⟩ := (hs.loops (mem_of_loop? hloop)).turn hturn
    obtain ⟨task, sh, sh', hadv, hadv', hlike, htask, hdeeds⟩ :=
      robust_advance_of_isDone hp hrobust h.shared
    obtain ⟨hperform, hhistory⟩ :=
      perform_loop_eq env program hloop hturn
    obtain ⟨hperform', hhistory'⟩ :=
      perform_loop_eq env' program (hloop'.trans hloop) hturn
    rw [hperform, hperform', hhistory, hhistory', advanceLoop_eq hadv, advanceLoop_eq hadv']
    refine .of_inward (inward_placeLoop i task) (h.withShared hlike)
      ((hs.withShared sh).placeLoop i htask) ?_
    rw [allDeeds_map_deed, allDeeds_map_deed, reported_append, reported_append, hdeeds]
  · by_cases hborn : s.loop? i = some .stillborn
    · obtain ⟨hperform, hhistory⟩ :=
        perform_stillborn_eq env program hborn
      obtain ⟨hperform', hhistory'⟩ :=
        perform_stillborn_eq env' program (hloop'.trans hborn)
      have hended : (Task.ended (some Failure.interrupted)).Robust IsDone := ⟨_, rfl⟩
      rw [hperform, hperform', hhistory, hhistory']
      exact .of_inward (inward_placeLoop i _) h (hs.placeLoop i hended) rfl
    · have hidle (t : Task (Option Failure)) (hloop : s.loop? i = some t) :
          t ≠ .stillborn ∧ t.turn? = none := by
        refine ⟨fun ht => hborn (ht ▸ hloop), ?_⟩
        cases hturn : t.turn? with
        | none => rfl
        | some x => exact absurd ⟨t, x.1, x.2, hloop, hturn⟩ hready
      obtain ⟨hperform, hhistory⟩ := perform_loop_idle env program hidle
      obtain ⟨hperform', hhistory'⟩ :=
        perform_loop_idle env' program (s := s') (i := i) (hloop' ▸ hidle)
      rw [hperform, hperform', hhistory, hhistory']
      exact ⟨h, hs, rfl⟩

/-- The end of a loop index is noted in both runs. -/
theorem Like.perform_loopEnded :
    InStep same final (perform env program .loopEnded s).2 (perform env' program .loopEnded s').2
      (s.history env .loopEnded) (s'.history env' .loopEnded) := by
  have hnoted : Like same { s with joined := s.joined + 1 } { s' with joined := s'.joined + 1 } :=
    ⟨congrArg (fun k : State Unit α => { k with joined := k.joined + 1 }) h.core, h.outside⟩
  have hjoined : s'.joined = s.joined :=
    congrArg (fun k : State Unit α => k.joined) h.core.symm
  have hwake : (if s'.joinInterrupted then Wake.interrupted else .resumed) =
      if s.joinInterrupted then .interrupted else .resumed :=
    congrArg (fun k : State Unit α => if k.joinInterrupted then Wake.interrupted else .resumed)
      h.core.symm
  have hrobust : State.Robust final { s with joined := s.joined + 1 } := ⟨hs.main, hs.loops⟩
  have hquiet : reported (allDeeds (s.history env .loopEnded)) =
      reported (allDeeds (s'.history env' .loopEnded)) := rfl
  by_cases hall : s.joined + 1 = s.loops.length
  · have hall' : s'.joined + 1 = s'.loops.length := by rw [hjoined, ← h.loops, hall]
    rw [perform_loopEnded_eq, if_pos hall, perform_loopEnded_eq, if_pos hall', hwake]
    exact .of_inward (inward_wakeMain isForLoops _) hnoted (hrobust.wakeMain isForLoops _) hquiet
  · have hall' : ¬ s'.joined + 1 = s'.loops.length := by rwa [hjoined, ← h.loops]
    rw [perform_loopEnded_eq, if_neg hall, perform_loopEnded_eq, if_neg hall']
    exact ⟨hnoted, hrobust, hquiet⟩

include hp in
/-- The ticker has its turn in both runs. -/
theorem Like.perform_ticker :
    InStep same final (perform env program .ticker s).2 (perform env' program .ticker s').2
      (s.history env .ticker) (s'.history env' .ticker) := by
  have hquiet : reported (allDeeds (s.history env .ticker)) =
      reported (allDeeds (s'.history env' .ticker)) := by
    rw [allDeeds_history (by simp) (by simp), allDeeds_history (by simp) (by simp)]
  have hactive : s'.shared.ticker.isActive = s.shared.ticker.isActive :=
    congrArg (fun k : State Unit α => k.shared.ticker.isActive) h.core.symm
  have hordinary' : ∀ w k, s'.main = .waiting w k → w.Ordinary := h.main ▸ hs.ordinary
  rw [perform_ticker_eq hs.ordinary, perform_ticker_eq hordinary', hactive]
  split
  · exact ⟨h.withShared (h.shared.tickerTurn hp), hs.withShared _, hquiet⟩
  · exact ⟨h, hs, hquiet⟩

include hp in
/-- A job of both runs keeps them at the same point, if it is not a turn of the main task. -/
theorem Like.perform {j : Job} (hmain : j ≠ .main) (hconsumer : j ≠ .consumer)
    (hnone : j ≠ .alarm .interrupt) :
    InStep same final (State.perform env program j s).2 (State.perform env' program j s').2
      (s.history env j) (s'.history env' j) := by
  cases j with
  | main => exact absurd rfl hmain
  | loop i => exact h.perform_loop hp hs i
  | loopEnded => exact h.perform_loopEnded hs
  | consumer => exact absurd rfl hconsumer
  | ticker => exact h.perform_ticker hp hs
  | alarm a =>
    have ha : a ≠ .interrupt := fun ha => hnone (ha ▸ rfl)
    exact .of_inward (inward_ring ha) h (hs.ring ha) rfl

/-- A turn of the main task that comes to what its turn in `u` comes to, and has done `t` until
then. -/
structure Turns (env : Collaborators σ) (program : Nat → Program (Option Failure))
    (s : State σ α) (t : List Deed) (u : State σ α) : Prop where
  perform : (State.perform env program .main s).2 = (State.perform env program .main u).2
  history : s.history env .main = t.map (.deed none) ++ u.history env .main
  inOrder : s.InOrder → u.InOrder

omit h hs in
theorem turns_of_comes {s : State σ α} {first : List Deed} {p q : Program α} {t : List Deed}
    {s₁ : Shared σ} (hturn : s.main.turn? = some (first, p))
    (hcomes : Comes env p s.shared t q s₁) :
    Turns env program s (first ++ t) { s with main := .fresh q, shared := s₁ } := by
  obtain ⟨hperform, hhistory⟩ := perform_main_eq env program hturn
  rcases hadv : advance env q s₁ with ⟨task, sh⟩
  refine ⟨?_, ?_, fun hi => ?_⟩
  · have hq := (perform_main_eq env program
      (s := { s with main := .fresh q, shared := s₁ }) rfl).1
    rw [hperform, hq, advanceMain_eq (hcomes.advance.trans hadv), advanceMain_eq hadv]
    exact (placeMain_of_main task (.fresh q) { s with shared := sh }).symm
  · have hq := (perform_main_eq env program
      (s := { s with main := .fresh q, shared := s₁ }) rfl).2
    rw [hhistory, hq, hcomes.deeds, ← List.map_append, ← List.append_assoc]
    rfl
  · have hends : s₁.ends = s.shared.ends := by
      rw [← ends_goesOn (goesOn_advance env q s₁), ← ends_goesOn (goesOn_advance env p s.shared),
        hcomes.advance]
    exact hi.of_same rfl rfl hends fun hjoins => absurd hjoins (not_joins_of_turn? hturn)

include hp in
/-- The main task has its turn in both runs, which keeps them at the same point, unless it comes to
what is final. -/
theorem Like.perform_main (hprogram : ∀ i, (program i).Robust IsDone) :
    InStep same final (State.perform env program .main s).2 (State.perform env' program .main s').2
      (s.history env .main) (s'.history env' .main) ∨
    ∃ q t t' u u', final q ∧ Turns env program s t u ∧ Turns env' program s' t' u' ∧
      u.main = .fresh q ∧ u'.main = .fresh q ∧ reported t = reported t' := by
  cases hturn : s.main.turn? with
  | none =>
    obtain ⟨hperform, hhistory⟩ := perform_main_idle env program hturn
    obtain ⟨hperform', hhistory'⟩ :=
      perform_main_idle env' program (s := s') (h.main ▸ hturn)
    rw [hperform, hperform', hhistory, hhistory']
    exact .inl ⟨h, hs, rfl⟩
  | some x =>
    obtain ⟨first, p⟩ := x
    have hturn' : s'.main.turn? = some (first, p) := h.main ▸ hturn
    obtain ⟨hrobust, hfirst⟩ := hs.main.turn hturn
    rcases robust_advance hp hrobust h.shared with
      ⟨task, sh, sh', hadv, hadv', hlike, htask, hdeeds⟩ |
      ⟨q, s₁, s₁', t, t', hq, hcomes, hcomes', -, ht⟩
    · obtain ⟨hperform, hhistory⟩ := perform_main_eq env program hturn
      obtain ⟨hperform', hhistory'⟩ :=
        perform_main_eq env' program hturn'
      rw [hperform, hperform', hhistory, hhistory', advanceMain_eq hadv, advanceMain_eq hadv']
      refine .inl (.of_inward (inward_placeMain program task) (h.withShared hlike)
        ((hs.withShared sh).placeMain hprogram htask) ?_)
      rw [allDeeds_map_deed, allDeeds_map_deed, reported_append, reported_append, hdeeds]
    · refine .inr ⟨q, _, _, _, _, hq, turns_of_comes hturn hcomes, turns_of_comes hturn' hcomes',
        rfl, rfl, ?_⟩
      rw [reported_append, reported_append, ht]

end Both

/-! ### Turns of the consumer of one run -/

section Alone

variable {s s' : State σ α}

theorem Abreast.main (h : Abreast same s s') : s.main = s'.main :=
  congrArg (fun k : State Unit α => k.main) h.core

theorem Abreast.loops (h : Abreast same s s') : s.loops = s'.loops :=
  congrArg (fun k : State Unit α => k.loops) h.core

/-- The other run is robust too. -/
theorem Abreast.robust (h : Abreast same s s') (hs : s.Robust final) : s'.Robust final :=
  ⟨h.main ▸ hs.main, h.loops ▸ hs.loops⟩

/-- A run that takes a turn of the consumer for itself is abreast of the other one as before. -/
theorem Abreast.perform_consumer (program : Nat → Program (Option Failure))
    (hp : Peers env env' same) (h : Abreast same s s') (hs : s.Robust final) {sh : Shared σ}
    (hjob : nextJob? s.shared = some (.consumer, sh)) :
    Abreast same (State.perform env program .consumer { s with shared := sh }).2 s' ∧
      (State.perform env program .consumer { s with shared := sh }).2.Robust final := by
  obtain ⟨-, -, _, _, _, _, hsh⟩ := nextJob?_spec hjob
  have hout : same sh.outside s'.shared.outside := hsh ▸ h.outside
  rw [perform_consumer_eq (hs.withShared sh).ordinary]
  split
  · -- The turn leaves the core as it is, and the world outside as alike as before.
    have hlike : Shared.Like same sh { sh with outside := s'.shared.outside } := ⟨rfl, hout⟩
    have hturn := hlike.consumerTurn_left hp
    exact ⟨h.consumer hjob hturn.core hturn.outside, hs.withShared _⟩
  · exact ⟨h.consumer hjob rfl hout, hs.withShared sh⟩

end Alone

/-! ### The meeting -/

/-- Jobs that are taken in order come to the state `u` with at most `m` more to be taken, and `h`
has happened until then. -/
structure Passes (env : Collaborators σ) (program : Nat → Program (Option Failure)) (n : Nat)
    (s : State σ α) (h : List Happening) (m : Nat) (u : State σ α) : Prop where
  noted : noted env program n s = (h ++ (State.noted env program m u).1,
    (State.noted env program m u).2)
  inOrder : u.InOrder

/-- A job is taken, and then others. -/
theorem Passes.job {n m : Nat} {s u : State σ α} {j : Job} {sh : Shared σ} {h : List Happening}
    (hmain : s.main.result? = none) (hjob : nextJob? s.shared = some (j, sh))
    (hrest : Passes env program n (perform env program j { s with shared := sh }).2 h m u) :
    Passes env program (n + 1) s (history env { s with shared := sh } j ++ h) m u := by
  refine ⟨?_, hrest.inOrder⟩
  rw [noted_succ hmain hjob, hrest.noted, List.append_assoc]

/-- A turn of the main task comes to the state `u`. -/
theorem Turns.passes {n : Nat} {s u : State σ α} {sh : Shared σ} {t : List Deed} (hi : s.InOrder)
    (hmain : s.main.result? = none) (hjob : nextJob? s.shared = some (.main, sh))
    (hturns : Turns env program { s with shared := sh } t u) (hu : u.main.result? = none) :
    Passes env program (n + 1) s (t.map (.deed none)) (n + 1) u.inTurn := by
  refine ⟨?_, ?_⟩
  · have hturn : noted env program (n + 1) u.inTurn = (u.history env .main ++
        (noted env program n (State.perform env program .main u).2).1,
          (noted env program n (State.perform env program .main u).2).2) :=
      noted_succ (s := u.inTurn) hu (nextJob?_inTurn u)
    rw [noted_succ hmain hjob, hturn, hturns.perform, hturns.history, List.append_assoc]
  · obtain ⟨-, hends, _, _, _, _, hsh⟩ := nextJob?_spec hjob
    have htaken : InOrder { s with shared := sh } := hi.of_same rfl rfl hends.symm id
    exact (hturns.inOrder htaken).inTurn

/-- Both runs come to the same final program, and have reported the same until then. -/
def Meet (env env' : Collaborators σ) (program : Nat → Program (Option Failure))
    (final : Program α → Prop) (n n' : Nat) (s s' : State σ α) : Prop :=
  ∃ q h h' m m' u u', final q ∧ Passes env program n s h m u ∧ Passes env' program n' s' h' m' u' ∧
    u.main = .fresh q ∧ u'.main = .fresh q ∧ reported (allDeeds h) = reported (allDeeds h')

/-- A run that comes to its end takes another job, if it has not come to it yet. -/
theorem exists_next {n : Nat} {s : State σ α} {a : α} (hmain : s.main.result? = none)
    (hend : (noted env program n s).2.main = .ended a) :
    ∃ m j sh, n = m + 1 ∧ nextJob? s.shared = some (j, sh) := by
  have hnot : s.main ≠ .ended a := fun heq => by simp [heq, Task.result?] at hmain
  cases n with
  | zero => exact absurd hend hnot
  | succ m =>
    cases hjob : nextJob? s.shared with
    | none =>
      rw [noted_of_idle _ hjob] at hend
      exact absurd hend hnot
    | some x => exact ⟨m, x.1, x.2, rfl, rfl⟩

/-- **Meeting.** Two runs of robust programs that are abreast, and that nobody interrupts, come to
the same final program. -/
theorem Abreast.meet (hp : Peers env env' same) (hprogram : ∀ i, (program i).Robust IsDone)
    (hfinal : ∀ a, ¬ final (.done a)) {n n' : Nat} {s s' : State σ α} (h : Abreast same s s')
    (hs : s.Robust final) (hi : s.InOrder) (hi' : s'.InOrder) {a a' : α}
    (hend : (noted env program n s).2.main = .ended a)
    (hend' : (noted env' program n' s').2.main = .ended a')
    (hnone : .alarm .interrupt ∉ (noted env program n s).1)
    (hnone' : .alarm .interrupt ∉ (noted env' program n' s').1) :
    Meet env env' program final n n' s s' := by
  -- Every job that is taken leaves fewer to be taken in one of the runs.
  induction hk : n + n' using Nat.strongRecOn generalizing n n' s s' with | ind k ih
  have hgoing : s.main.result? = none := by
    cases hmain : s.main with
    | ended a =>
      have hdone := hs.main
      rw [hmain] at hdone
      exact absurd hdone (hfinal a)
    | _ => rfl
  have hgoing' : s'.main.result? = none := h.main ▸ hgoing
  obtain ⟨m, j, sh, rfl, hjob⟩ := exists_next hgoing hend
  obtain ⟨m', j', sh', rfl, hjob'⟩ := exists_next hgoing' hend'
  have hnext : (perform env program j { s with shared := sh }).2.InOrder :=
    (job_reaches hi hjob).1
  have hnext' : (perform env' program j' { s' with shared := sh' }).2.InOrder :=
    (job_reaches hi' hjob').1
  by_cases hj : j = .consumer
  · subst hj
    rw [noted_succ hgoing hjob] at hend hnone
    obtain ⟨h₁, hs₁⟩ := h.perform_consumer program hp hs hjob
    obtain ⟨q, t, t', l, l', u, u', hq, hpasses, hpasses', hu, hu', ht⟩ :=
      ih (m + (m' + 1)) (by omega) h₁ hs₁ hnext hi' hend hend'
        (fun hm => hnone (List.mem_append_right _ hm)) hnone' rfl
    refine ⟨q, _, t', l, l', u, u', hq, hpasses.job hgoing hjob, hpasses', hu, hu', ?_⟩
    rw [allDeeds_append, reported_append, allDeeds_history (by simp) (by simp)]
    exact ht
  by_cases hj' : j' = .consumer
  · subst hj'
    rw [noted_succ hgoing' hjob'] at hend' hnone'
    obtain ⟨h₁, -⟩ := h.symm.perform_consumer program hp.symm (h.robust hs) hjob'
    obtain ⟨q, t, t', l, l', u, u', hq, hpasses, hpasses', hu, hu', ht⟩ :=
      ih (m + 1 + m') (by omega) h₁.symm hs hi hnext' hend hend' hnone
        (fun hm => hnone' (List.mem_append_right _ hm)) rfl
    refine ⟨q, t, _, l, l', u, u', hq, hpasses, hpasses'.job hgoing' hjob', hu, hu', ?_⟩
    rw [allDeeds_append, reported_append, allDeeds_history (by simp) (by simp)]
    exact ht
  obtain ⟨rfl, hlike⟩ := h.take hjob hjob' hj hj'
  rw [noted_succ hgoing hjob] at hend hnone
  rw [noted_succ hgoing' hjob'] at hend' hnone'
  have hgoes (hstep : InStep same final (perform env program j { s with shared := sh }).2
      (perform env' program j { s' with shared := sh' }).2
      (history env { s with shared := sh } j) (history env' { s' with shared := sh' } j)) :
      Meet env env' program final (m + 1) (m' + 1) s s' := by
    obtain ⟨q, t, t', l, l', u, u', hq, hpasses, hpasses', hu, hu', ht⟩ :=
      ih (m + m') (by omega) hstep.like.abreast hstep.robust hnext hnext' hend hend'
        (fun hm => hnone (List.mem_append_right _ hm))
        (fun hm => hnone' (List.mem_append_right _ hm)) rfl
    refine ⟨q, _, _, l, l', u, u', hq, hpasses.job hgoing hjob, hpasses'.job hgoing' hjob', hu, hu',
      ?_⟩
    rw [allDeeds_append, allDeeds_append, reported_append, reported_append, hstep.reports, ht]
  by_cases hmain : j = .main
  · subst hmain
    rcases hlike.perform_main hp (hs.withShared sh) hprogram with hstep |
      ⟨q, t, t', u, u', hq, hturns, hturns', hu, hu', ht⟩
    · exact hgoes hstep
    · refine ⟨q, _, _, _, _, _, _, hq, hturns.passes hi hgoing hjob (by rw [hu]; rfl),
        hturns'.passes hi' hgoing' hjob' (by rw [hu']; rfl), hu, hu', ?_⟩
      rw [allDeeds_map_deed, allDeeds_map_deed, ht]
  · refine hgoes (hlike.perform hp (hs.withShared sh) hmain hj fun hinterrupt => ?_)
    subst hinterrupt
    exact hnone (List.mem_append_left _ List.mem_cons_self)

end State

end Runbook.Schedule
