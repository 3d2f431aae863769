import Runbook.Proofs.Abreast

/-!
# One job in two runs

When two runs are at the same point and carry out the same job, they are at the same point
afterwards, unless the job brings the main task to what is final. Whatever a job does but for the
calls of a program is done to the clock, the timers, the jobs and the tasks, which are the same in
both runs.

* `Task.Robust final`: a task goes on alike until it comes to what is final.
* `State.Inward m m₀`: what `m` does is what `m₀` does to the core, and nothing outside.
* `State.Like.perform`: a job keeps two runs at the same point, and they report the same.
* `State.Like.perform_main`: so does a turn of the main task, unless it comes to what is final.
-/

namespace Runbook.Schedule

open Program (IsDone)

variable {σ α : Type}

/-! ### Robust tasks -/

/-- A task goes on alike in surroundings that are alike, whenever it has its turn and however its
wait has ended. -/
def Task.Robust (final : Program α → Prop) : Task α → Prop
  | .fresh p | .paused p => p.Robust final
  | .stillborn => True
  | .waiting w k => w.Ordinary ∧ ∀ wake, (k wake).Robust final
  | .woken _ k => ∀ wake, (k wake).Robust final
  | .ended a => final (.done a)

theorem Task.Robust.turn {final : Program α → Prop} {t : Task α} (h : t.Robust final)
    {first : List Deed} {p : Program α} (hturn : t.turn? = some (first, p)) :
    p.Robust final ∧ reported first = [] := by
  cases t with
  | fresh q | paused q =>
    cases hturn
    exact ⟨h, rfl⟩
  | woken wake k =>
    cases hturn
    exact ⟨h wake, rfl⟩
  | _ => cases hturn

namespace State

/-- All tasks of a run are robust. -/
structure Robust (final : Program α → Prop) (s : State σ α) : Prop where
  main : s.main.Robust final
  loops {l : Nat × Task (Option Failure)} (hl : l ∈ s.loops) : l.2.Robust IsDone

/-! ### What is done to the core -/

/-- What `m` does is what `m₀` does to the core, and it leaves the world outside alone. -/
def Inward (m : StateM (State σ α) Unit) (m₀ : StateM (State Unit α) Unit) : Prop :=
  ∀ s, (m s).2.core = (m₀ s.core).2 ∧ (m s).2.shared.outside = s.shared.outside

theorem Inward.like {same : σ → σ → Prop} {m : StateM (State σ α) Unit}
    {m₀ : StateM (State Unit α) Unit} (hm : Inward m m₀) {s s' : State σ α} (h : Like same s s') :
    Like same (m s).2 (m s').2 := by
  obtain ⟨hcore, hout⟩ := hm s
  obtain ⟨hcore', hout'⟩ := hm s'
  refine ⟨?_, ?_⟩
  · rw [hcore, hcore', h.core]
  · rw [hout, hout']
    exact h.outside

theorem Inward.bind {m n : StateM (State σ α) Unit} {m₀ n₀ : StateM (State Unit α) Unit}
    (hm : Inward m m₀) (hn : Inward n n₀) : Inward (do m; n) (do m₀; n₀) := by
  intro s
  obtain ⟨hcore, hout⟩ := hm s
  obtain ⟨hcore', hout'⟩ := hn (m s).2
  refine ⟨?_, hout'.trans hout⟩
  rw [hcore] at hcore'
  exact hcore'

theorem inward_schedule {j : Job} (hj : j ≠ .consumer) :
    Inward (onShared (Shared.schedule j) : StateM (State σ α) Unit)
      (onShared (Shared.schedule j)) := by
  intro s
  refine ⟨?_, rfl⟩
  have hnext : visible (s.shared.next ++ [j]) = visible s.shared.next ++ [j] := by
    rw [visible_append, visible_cons hj, visible_nil]
  exact congrArg (fun next => { s.core with shared := { s.core.shared with next } }) hnext

theorem inward_arm (ms : Rat) (a : Alarm) :
    Inward (onShared (Shared.arm ms a) : StateM (State σ α) Unit) (onShared (Shared.arm ms a)) :=
  fun _ => ⟨rfl, rfl⟩

theorem inward_setMain (t : Task α) :
    Inward (modify fun s => { s with main := t } : StateM (State σ α) Unit)
      (modify fun s => { s with main := t }) :=
  fun _ => ⟨rfl, rfl⟩

theorem inward_setLoop (i : Nat) (t : Task (Option Failure)) :
    Inward (setLoop i t : StateM (State σ α) Unit) (setLoop i t) :=
  fun _ => ⟨rfl, rfl⟩

/-- A main task that waits for what is over is woken. -/
theorem wakeMain_of_awaited {f : Wait → Bool} (wake : Wake) {s : State σ α} {w : Wait}
    {k : Wake → Program α} (hmain : s.main = .waiting w k) (hw : f w = true) :
    wakeMain f wake s = (do
      modify fun s => { s with main := .woken wake k }
      onShared (Shared.schedule .main) : StateM (State σ α) Unit) s := by
  simp only [wakeMain, run_get_bind, hmain, hw, if_true]

/-- A main task that does not wait for it stays as it is. -/
theorem wakeMain_of_not_awaited {f : Wait → Bool} (wake : Wake) {s : State σ α}
    (hmain : ∀ w k, s.main = .waiting w k → f w = false) : wakeMain f wake s = ((), s) := by
  rcases hwaits : s.main with _ | _ | ⟨w, k⟩ | _ | _ | _ <;>
    simp only [wakeMain, run_get_bind, hwaits]
  case waiting =>
    rw [hmain w k hwaits]
    rfl
  all_goals rfl

theorem inward_wakeMain (f : Wait → Bool) (wake : Wake) :
    Inward (wakeMain f wake : StateM (State σ α) Unit) (wakeMain f wake) := by
  intro s
  by_cases hmain : ∃ w k, s.main = .waiting w k ∧ f w = true
  · obtain ⟨w, k, hwaits, hw⟩ := hmain
    have hwaits' : s.core.main = .waiting w k := hwaits
    rw [wakeMain_of_awaited wake hwaits hw, wakeMain_of_awaited wake hwaits' hw]
    exact (inward_setMain _).bind (inward_schedule (by simp)) s
  · have hnot (w : Wait) (k : Wake → Program α) (hwaits : s.main = .waiting w k) : f w = false :=
      Bool.eq_false_iff.mpr fun hw => hmain ⟨w, k, hwaits, hw⟩
    have hnot' (w : Wait) (k : Wake → Program α) (hwaits : s.core.main = .waiting w k) :
        f w = false :=
      hnot w k hwaits
    rw [wakeMain_of_not_awaited wake hnot, wakeMain_of_not_awaited wake hnot']
    exact ⟨rfl, rfl⟩

/-- An alarm goes off, if it does not interrupt the main task. -/
theorem inward_ring {a : Alarm} (ha : a ≠ .interrupt) :
    Inward (ring a : StateM (State σ α) Unit) (ring a) := by
  cases a with
  | wakeMain => exact inward_wakeMain isSleep .resumed
  | wakeLoop i =>
    intro s
    have hloop' : s.core.loop? i = s.loop? i := rfl
    rcases hloop : s.loop? i with _ | (_ | _ | ⟨w, k⟩ | _ | _ | _)
    case some.waiting =>
      cases w
      case sleep ms =>
        simp only [ring, run_get_bind, hloop', hloop]
        exact (inward_setLoop i (.woken .resumed k)).bind (inward_schedule (by simp)) s
      all_goals
        simp only [ring, run_get_bind, hloop', hloop]
        exact ⟨rfl, rfl⟩
    all_goals
      simp only [ring, run_get_bind, hloop', hloop]
      exact ⟨rfl, rfl⟩
  | tick =>
    intro s
    have hphase' : s.core.shared.ticker.phase = s.shared.ticker.phase := rfl
    simp only [ring, run_get_bind, hphase']
    split
    · have hwoken : Inward (onShared (Shared.setTicker .woken) : StateM (State σ α) Unit)
          (onShared (Shared.setTicker .woken)) := fun _ => ⟨rfl, rfl⟩
      exact hwoken.bind (inward_schedule (by simp)) s
    · exact ⟨rfl, rfl⟩
  | timeout reason => exact fun _ => ⟨rfl, rfl⟩
  | cancel reason => exact fun _ => ⟨rfl, rfl⟩
  | interrupt => exact absurd rfl ha

/-! ### Where a task that goes on comes to stand -/

/-- Puts the main task where it has come to. -/
def placeMain (program : Nat → Program (Option Failure)) : Task α → StateM (State σ α) Unit
  | .waiting (.sleep ms) k => do
    let task ← onShared (sleeping ms k .wakeMain .main)
    modify fun s => { s with main := task }
  | .waiting (.loops count) k => do
    modify fun s => { s with main := .waiting (.loops count) k }
    startLoops program count
  | task => modify fun s => { s with main := task }

/-- Puts the task of a loop index where it has come to. -/
def placeLoop (i : Nat) : Task (Option Failure) → StateM (State σ α) Unit
  | .waiting (.sleep ms) k => do
    let task ← onShared (sleeping ms k (.wakeLoop i) (.loop i))
    setLoop i task
  | .ended outcome => endLoop i outcome
  | task => setLoop i task

section Places

variable {env : Collaborators σ} {program : Nat → Program (Option Failure)}

theorem advanceMain_eq {p : Program α} {s : State σ α} {task : Task α} {sh : Shared σ}
    (hadv : advance env p s.shared = (task, sh)) :
    (advanceMain env program p s).2 = (placeMain program task { s with shared := sh }).2 := by
  simp only [advanceMain, bind, StateT.bind, onShared, hadv]
  cases task with
  | waiting w k => cases w <;> rfl
  | _ => rfl

theorem advanceLoop_eq {i : Nat} {p : Program (Option Failure)} {s : State σ α}
    {task : Task (Option Failure)} {sh : Shared σ} (hadv : advance env p s.shared = (task, sh)) :
    (advanceLoop env i p s).2 = (placeLoop i task { s with shared := sh }).2 := by
  simp only [advanceLoop, bind, StateT.bind, onShared, hadv]
  cases task with
  | waiting w k => cases w <;> rfl
  | _ => rfl

/-- Where the main task was before does not matter. -/
theorem placeMain_of_main (task t : Task α) (s : State σ α) :
    (placeMain program task { s with main := t }).2 = (placeMain program task s).2 := by
  cases task with
  | waiting w k => cases w <;> rfl
  | _ => rfl

end Places

/-- A sleep for no time at all makes a task ready again. -/
theorem sleeping_of_le {β : Type} {ms : Rat} (hms : ms ≤ 0) (k : Wake → Program β) (a : Alarm)
    (j : Job) : (sleeping ms k a j : StateM (Shared σ) (Task β)) = do
      Shared.schedule j
      return .woken .resumed k :=
  if_pos hms

/-- A sleep sets a timer. -/
theorem sleeping_of_not_le {β : Type} {ms : Rat} (hms : ¬ ms ≤ 0) (k : Wake → Program β)
    (a : Alarm) (j : Job) : (sleeping ms k a j : StateM (Shared σ) (Task β)) = do
      Shared.arm ms a
      return .waiting (.sleep ms) k :=
  if_neg hms

theorem inward_startLoops (program : Nat → Program (Option Failure)) (n : Nat) :
    Inward (startLoops program n : StateM (State σ α) Unit) (startLoops program n) := by
  intro s
  have hvisible : visible ((List.range n).map Job.loop) = (List.range n).map Job.loop := by
    refine List.filter_eq_self.mpr fun j hj => ?_
    obtain ⟨i, -, rfl⟩ := List.mem_map.mp hj
    rfl
  rw [startLoops_eq, startLoops_eq]
  refine ⟨?_, rfl⟩
  have hnext : visible (s.shared.next ++ (List.range n).map Job.loop) =
      visible s.shared.next ++ (List.range n).map Job.loop := by
    rw [visible_append, hvisible]
  exact congrArg (fun next => ({
    shared := { s.core.shared with outcomes := [], next }
    main := s.main
    loops := (List.range n).map fun i => (i, .fresh (program i))
    joined := 0
    joinInterrupted := false } : State Unit α)) hnext

theorem inward_placeMain (program : Nat → Program (Option Failure)) (task : Task α) :
    Inward (placeMain program task : StateM (State σ α) Unit) (placeMain program task) := by
  cases task with
  | waiting w k =>
    cases w with
    | sleep ms =>
      by_cases hms : ms ≤ 0
      · simp only [placeMain, sleeping_of_le hms]
        exact (inward_schedule (by simp)).bind (inward_setMain _)
      · simp only [placeMain, sleeping_of_not_le hms]
        exact (inward_arm ms .wakeMain).bind (inward_setMain _)
    | loops n => exact (inward_setMain _).bind (inward_startLoops program n)
    | _ => exact inward_setMain _
  | _ => exact inward_setMain _

theorem inward_placeLoop (i : Nat) (task : Task (Option Failure)) :
    Inward (placeLoop i task : StateM (State σ α) Unit) (placeLoop i task) := by
  cases task with
  | waiting w k =>
    cases w with
    | sleep ms =>
      by_cases hms : ms ≤ 0
      · simp only [placeLoop, sleeping_of_le hms]
        exact (inward_schedule (by simp)).bind (inward_setLoop i _)
      · simp only [placeLoop, sleeping_of_not_le hms]
        exact (inward_arm ms (.wakeLoop i)).bind (inward_setLoop i _)
    | _ => exact inward_setLoop i _
  | ended o =>
    have hnoted : Inward (onShared (modify fun s => { s with outcomes := s.outcomes ++ [(i, o)] }) :
        StateM (State σ α) Unit)
        (onShared (modify fun s => { s with outcomes := s.outcomes ++ [(i, o)] })) :=
      fun _ => ⟨rfl, rfl⟩
    exact (inward_setLoop i _).bind (hnoted.bind (inward_schedule (by simp)))
  | _ => exact inward_setLoop i _

/-! ### Tasks stay robust -/

section Robust

variable {final : Program α → Prop} {program : Nat → Program (Option Failure)} {s : State σ α}

theorem Robust.setLoop (hs : s.Robust final) (i : Nat) {t : Task (Option Failure)}
    (ht : t.Robust IsDone) : (setLoop i t s).2.Robust final := by
  refine ⟨hs.main, fun {l} hl => ?_⟩
  obtain ⟨l', hl', rfl⟩ := List.mem_map.mp hl
  split
  · exact ht
  · exact hs.loops hl'

theorem Robust.wakeMain (hs : s.Robust final) (f : Wait → Bool) (wake : Wake) :
    (wakeMain f wake s).2.Robust final := by
  by_cases hmain : ∃ w k, s.main = .waiting w k ∧ f w = true
  · obtain ⟨w, k, hwaits, hw⟩ := hmain
    have hrobust := hs.main
    rw [hwaits] at hrobust
    rw [wakeMain_of_awaited wake hwaits hw]
    exact ⟨hrobust.2, hs.loops⟩
  · rw [wakeMain_of_not_awaited wake fun w k hwaits =>
      Bool.eq_false_iff.mpr fun hw => hmain ⟨w, k, hwaits, hw⟩]
    exact hs

theorem Robust.ring (hs : s.Robust final) {a : Alarm} (ha : a ≠ .interrupt) :
    (ring a s).2.Robust final := by
  cases a with
  | wakeMain => exact hs.wakeMain isSleep .resumed
  | wakeLoop i =>
    rcases hloop : s.loop? i with _ | (_ | _ | ⟨w, k⟩ | _ | _ | _)
    case some.waiting =>
      have hrobust : (Task.waiting w k).Robust IsDone := hs.loops (mem_of_loop? hloop)
      cases w <;> simp only [State.ring, run_get_bind, hloop]
      case sleep ms =>
        have hwoken : (State.setLoop i (.woken .resumed k) s).2.Robust final :=
          hs.setLoop i hrobust.2
        exact ⟨hwoken.main, hwoken.loops⟩
      all_goals exact hs
    all_goals
      simp only [State.ring, run_get_bind, hloop]
      exact hs
  | tick =>
    simp only [State.ring, run_get_bind]
    split
    · exact ⟨hs.main, hs.loops⟩
    · exact hs
  | timeout reason => exact ⟨hs.main, hs.loops⟩
  | cancel reason => exact ⟨hs.main, hs.loops⟩
  | interrupt => exact absurd rfl ha

theorem Robust.placeMain (hs : s.Robust final) (hprogram : ∀ i, (program i).Robust IsDone)
    {task : Task α} (htask : task.Robust final) :
    (placeMain program task s).2.Robust final := by
  cases task with
  | waiting w k =>
    cases w with
    | sleep ms =>
      by_cases hms : ms ≤ 0
      · simp only [State.placeMain, sleeping_of_le hms]
        exact ⟨htask.2, hs.loops⟩
      · simp only [State.placeMain, sleeping_of_not_le hms]
        exact ⟨htask, hs.loops⟩
    | loops n =>
      change (startLoops program n { s with main := .waiting (.loops n) k }).2.Robust final
      rw [startLoops_eq]
      refine ⟨htask, fun {l} hl => ?_⟩
      obtain ⟨i, -, rfl⟩ := List.mem_map.mp hl
      exact hprogram i
    | _ => exact ⟨htask, hs.loops⟩
  | _ => exact ⟨htask, hs.loops⟩

theorem Robust.placeLoop (hs : s.Robust final) (i : Nat) {task : Task (Option Failure)}
    (htask : task.Robust IsDone) : (placeLoop i task s).2.Robust final := by
  cases task with
  | waiting w k =>
    cases w with
    | sleep ms =>
      by_cases hms : ms ≤ 0
      · simp only [State.placeLoop, sleeping_of_le hms]
        have hready : State.Robust final { s with
            shared := (Shared.schedule (.loop i) s.shared).2 } := ⟨hs.main, hs.loops⟩
        exact hready.setLoop i (t := .woken .resumed k) htask.2
      · simp only [State.placeLoop, sleeping_of_not_le hms]
        have hready : State.Robust final { s with
            shared := (Shared.arm ms (.wakeLoop i) s.shared).2 } := ⟨hs.main, hs.loops⟩
        exact hready.setLoop i htask
    | _ => exact hs.setLoop i htask
  | ended o =>
    have hended := hs.setLoop i htask
    exact ⟨hended.main, hended.loops⟩
  | _ => exact hs.setLoop i htask

end Robust

end State

/-! ### What a task does when it goes on -/

section Runs

open Whole (allDeeds)

variable {env env' : Collaborators σ} {same : σ → σ → Prop} {final : Program α → Prop}

/-- In both runs a robust program comes to wait for the same, or to what is final. -/
theorem robust_advance (hp : Peers env env' same) {p : Program α} (hr : p.Robust final)
    {s s' : Shared σ} (h : Shared.Like same s s') :
    (∃ task sh sh', advance env p s = (task, sh) ∧ advance env' p s' = (task, sh') ∧
      Shared.Like same sh sh' ∧ task.Robust final ∧
      reported (deeds env p s) = reported (deeds env' p s')) ∨
    ∃ q s₁ s₁' t t', final q ∧ Comes env p s t q s₁ ∧ Comes env' p s' t' q s₁' ∧
      Shared.Like same s₁ s₁' ∧ reported t = reported t' := by
  obtain ⟨q, s₁, s₁', t, t', hq, hcomes, hcomes', hlike, ht⟩ := hr.comes hp h
  rcases hq with hfinal | ⟨w, k, rfl, hw, hk⟩
  · exact .inr ⟨q, s₁, s₁', t, t', hfinal, hcomes, hcomes', hlike, ht⟩
  · have hover (s : Shared σ) : ¬ s.isOver w = true := by
      cases w with
      | sleep | loops => exact Bool.false_ne_true
      | _ => exact hw.elim
    refine .inl ⟨.waiting w k, s₁, s₁', ?_, ?_, hlike, ⟨hw, hk⟩, ?_⟩
    · rw [hcomes.advance, advance_wait_of_not_over (hover s₁)]
    · rw [hcomes'.advance, advance_wait_of_not_over (hover s₁')]
    · rw [hcomes.deeds, hcomes'.deeds, reported_append, reported_append, ht,
        deeds_wait_of_not_over (hover s₁), deeds_wait_of_not_over (hover s₁')]

/-- In both runs a loop index comes to wait for the same, or to the same end. -/
theorem robust_advance_of_isDone (hp : Peers env env' same) {p : Program α}
    (hr : p.Robust IsDone) {s s' : Shared σ} (h : Shared.Like same s s') :
    ∃ task sh sh', advance env p s = (task, sh) ∧ advance env' p s' = (task, sh') ∧
      Shared.Like same sh sh' ∧ task.Robust IsDone ∧
      reported (deeds env p s) = reported (deeds env' p s') := by
  rcases robust_advance hp hr h with hwaits |
    ⟨_, s₁, s₁', t, t', ⟨a, rfl⟩, hcomes, hcomes', hlike, ht⟩
  · exact hwaits
  · refine ⟨.ended a, s₁, s₁', hcomes.advance, hcomes'.advance, hlike, ⟨a, rfl⟩, ?_⟩
    rw [hcomes.deeds, hcomes'.deeds, reported_append, reported_append, ht]
    rfl

@[simp]
theorem allDeeds_map_deed (who : Option Nat) (t : List Deed) :
    allDeeds (t.map (.deed who)) = t := by
  rw [allDeeds, List.filterMap_map]
  exact List.filterMap_some

theorem allDeeds_append (h h' : List Happening) :
    allDeeds (h ++ h') = allDeeds h ++ allDeeds h' :=
  List.filterMap_append

namespace State

variable {program : Nat → Program (Option Failure)}

theorem perform_main_eq (env : Collaborators σ) (program : Nat → Program (Option Failure))
    {s : State σ α} {first : List Deed} {p : Program α} (hturn : s.main.turn? = some (first, p)) :
    (perform env program .main s).2 = (advanceMain env program p s).2 ∧
      s.history env .main = (first ++ deeds env p s.shared).map (.deed none) := by
  obtain ⟨shared, main, loops, joined, joinInterrupted⟩ := s
  cases main with
  | fresh | woken | paused =>
    cases hturn
    exact ⟨rfl, rfl⟩
  | _ => cases hturn

theorem perform_loop_eq (env : Collaborators σ) (program : Nat → Program (Option Failure))
    {s : State σ α} {i : Nat} {t : Task (Option Failure)} {first : List Deed}
    {p : Program (Option Failure)} (hloop : s.loop? i = some t)
    (hturn : t.turn? = some (first, p)) :
    (perform env program (.loop i) s).2 = (advanceLoop env i p s).2 ∧
      s.history env (.loop i) = (first ++ deeds env p s.shared).map (.deed (some i)) := by
  cases t with
  | fresh | woken | paused =>
    cases hturn
    refine ⟨?_, ?_⟩
    · simp only [perform, run_get_bind, hloop]
    · simp only [history, hloop]
      rfl
  | _ => cases hturn

/-- A loop index that was interrupted before it had control ends. -/
theorem perform_stillborn_eq (env : Collaborators σ) (program : Nat → Program (Option Failure))
    {s : State σ α} {i : Nat} (hloop : s.loop? i = some .stillborn) :
    (perform env program (.loop i) s).2 = (placeLoop i (.ended (some .interrupted)) s).2 ∧
      s.history env (.loop i) = [] := by
  refine ⟨?_, ?_⟩
  · simp only [perform, run_get_bind, hloop]
    rfl
  · simp only [history, hloop]
    rfl

/-- A loop index that is not ready stays as it is. -/
theorem perform_loop_idle (env : Collaborators σ) (program : Nat → Program (Option Failure))
    {s : State σ α} {i : Nat}
    (hidle : ∀ t, s.loop? i = some t → t ≠ .stillborn ∧ t.turn? = none) :
    (perform env program (.loop i) s).2 = s ∧ s.history env (.loop i) = [] := by
  rcases hloop : s.loop? i with _ | (_ | _ | _ | _ | _ | _)
  case some.fresh => cases (hidle _ hloop).2
  case some.stillborn => exact absurd rfl (hidle _ hloop).1
  case some.woken => cases (hidle _ hloop).2
  case some.paused => cases (hidle _ hloop).2
  all_goals
    refine ⟨?_, ?_⟩
    · simp only [perform, run_get_bind, hloop]
      rfl
    · simp only [history, hloop]
      rfl

/-- A main task that is not ready stays as it is. -/
theorem perform_main_idle (env : Collaborators σ) (program : Nat → Program (Option Failure))
    {s : State σ α} (hturn : s.main.turn? = none) :
    (perform env program .main s).2 = s ∧ s.history env .main = [] := by
  obtain ⟨shared, main, loops, joined, joinInterrupted⟩ := s
  cases main with
  | fresh | woken | paused => cases hturn
  | _ => exact ⟨rfl, rfl⟩

theorem run_onShared_bind {β γ : Type} (m : StateM (Shared σ) β) (f : β → StateM (State σ α) γ)
    (s : State σ α) : (onShared m >>= f) s =
      f (m s.shared).1 { s with shared := (m s.shared).2 } := rfl

theorem perform_loopEnded_eq (s : State σ α) : (perform env program .loopEnded s).2 =
    if s.joined + 1 = s.loops.length then
      (wakeMain isForLoops (if s.joinInterrupted then .interrupted else .resumed)
        { s with joined := s.joined + 1 }).2
    else { s with joined := s.joined + 1 } := by
  have hjob : perform env program .loopEnded s = (do
      let s ← get
      if s.joined = s.loops.length then
        wakeMain isForLoops (if s.joinInterrupted then .interrupted else .resumed) :
      StateM (State σ α) Unit) { s with joined := s.joined + 1 } := rfl
  rw [hjob, run_get_bind]
  split <;> rfl

section Waiting

variable {s : State σ α} (hmain : ∀ w k, s.main = .waiting w k → w.Ordinary)

include hmain

/-- A main task that waits for something ordinary is not woken by a daemon. -/
theorem wakeMain_of_ordinary {f : Wait → Bool} (hf : ∀ w, w.Ordinary → f w = false) (wake : Wake)
    (sh : Shared σ) : wakeMain f wake { s with shared := sh } = ((), { s with shared := sh }) :=
  wakeMain_of_not_awaited wake fun w k hwaits => hf w (hmain w k hwaits)

theorem perform_ticker_eq : (perform env program .ticker s).2 =
    if s.shared.ticker.isActive then { s with shared := (Shared.tickerTurn env s.shared).2 }
    else s := by
  have hf : ∀ w : Wait, w.Ordinary → isForTicker w = false := by
    rintro (_ | _ | _ | _ | _ | _) hw <;> first | rfl | exact hw.elim
  by_cases hactive : s.shared.ticker.isActive = true
  · simp only [perform, run_get_bind, hactive, if_true, run_onShared_bind]
    split
    · exact congrArg Prod.snd (wakeMain_of_ordinary hmain hf _ _)
    · rfl
  · simp only [perform, run_get_bind, hactive]
    rfl

theorem perform_consumer_eq : (perform env program .consumer s).2 =
    if s.shared.consumer.isActive then { s with shared := (Shared.consumerTurn env s.shared).2 }
    else s := by
  have hroom : ∀ w : Wait, w.Ordinary → isForRoom w = false := by
    rintro (_ | _ | _ | _ | _ | _) hw <;> first | rfl | exact hw.elim
  have hconsumer : ∀ w : Wait, w.Ordinary → isForConsumer w = false := by
    rintro (_ | _ | _ | _ | _ | _) hw <;> first | rfl | exact hw.elim
  by_cases hactive : s.shared.consumer.isActive = true
  · have hroused {f : StateM (State σ α) Unit} : (do
        if !s.shared.pipeline.isEmpty then wakeMain isForRoom .resumed
        f) { s with shared := (Shared.consumerTurn env s.shared).2 } =
          f { s with shared := (Shared.consumerTurn env s.shared).2 } := by
      cases s.shared.pipeline.isEmpty with
      | true => rfl
      | false =>
        simp only [Bool.not_false, if_true, run_bind, wakeMain_of_ordinary hmain hroom]
    simp only [perform, run_get_bind, hactive, if_true, run_onShared_bind]
    refine (congrArg Prod.snd hroused).trans ?_
    rw [run_get_bind]
    split
    · exact congrArg Prod.snd (wakeMain_of_ordinary hmain hconsumer _ _)
    · rfl
  · simp only [perform, run_get_bind, hactive]
    rfl

end Waiting

/-- Only tasks do something that may be reported. -/
theorem allDeeds_history {s : State σ α} {j : Job} (hmain : j ≠ .main) (hloop : ∀ i, j ≠ .loop i) :
    allDeeds (s.history env j) = [] := by
  cases j with
  | main => exact absurd rfl hmain
  | loop i => exact absurd rfl (hloop i)
  | loopEnded => rfl
  | consumer =>
    simp only [history, consumerHistory]
    split
    · split
      · rfl
      · split <;> rfl
    · rfl
  | ticker =>
    simp only [history, tickerHistory]
    split
    · split <;> rfl
    · rfl
  | alarm a => rfl

end State

end Runs

end Runbook.Schedule
