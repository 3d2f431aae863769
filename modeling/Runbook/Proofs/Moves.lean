import Runbook.Proofs.Calls
import Runbook.Proofs.History

/-!
# Moves of a schedule

`State.Move` lists all that a job can do to a state: which task goes on and where it stands
afterwards, which tasks are woken and why, and what changes in what is shared. The clock, the timers
and the jobs that are ready are left out, since a schedule may take any order.

* `State.perform_move`, `State.Step.pass_or_move`: a job is one of the moves, and so is a step
  unless it only lets time pass.
* `State.Reaches.along`, `State.Reaches.induction`: what holds at the beginning and is kept by every
  move holds of every schedule.
-/

namespace Runbook.Schedule

variable {σ α : Type}

/-! ### What is left out -/

/-- What is shared stays as it is, but for the clock, the timers and the jobs that are ready; and no
end of a loop index is forgotten or invented. -/
def Shared.Alike (s s' : Shared σ) : Prop :=
  s'.ends = s.ends ∧ ∃ clock timers current next, s' = { s with clock, timers, current, next }

namespace Shared

theorem Alike.refl (s : Shared σ) : s.Alike s := ⟨rfl, _, _, _, _, rfl⟩

theorem Alike.trans {s s₁ s₂ : Shared σ} (h : s.Alike s₁) (h₁ : s₁.Alike s₂) : s.Alike s₂ := by
  obtain ⟨he, _, _, _, _, rfl⟩ := h
  obtain ⟨he₁, _, _, _, _, rfl⟩ := h₁
  exact ⟨he₁.trans he, _, _, _, _, rfl⟩

theorem alike_schedule {j : Job} (hj : j ≠ .loopEnded) (s : Shared σ) :
    s.Alike (schedule j s).2 := by
  refine ⟨(ends_append_next s [j]).trans ?_, _, _, _, _, rfl⟩
  simp [hj]

theorem alike_arm (ms : Rat) (a : Alarm) (s : Shared σ) : s.Alike (arm ms a s).2 :=
  ⟨rfl, _, _, _, _, rfl⟩

theorem alike_disarm (p : Alarm → Bool) (s : Shared σ) : s.Alike (disarm p s).2 :=
  ⟨rfl, _, _, _, _, rfl⟩

end Shared

/-! ### Tasks that are woken or interrupted -/

namespace Task

/-- A task that waits is woken in one of the allowed ways, or a task stays as it is. -/
def Woken (allowed : Wait → Wake → Prop) (t t' : Task α) : Prop :=
  t' = t ∨ ∃ w k wake, t = .waiting w k ∧ allowed w wake ∧ t' = .woken wake k

/-- A task after an interruption. -/
def interrupted : Task α → Task α
  | .fresh _ => .stillborn
  | .waiting _ k | .woken _ k => .woken .interrupted k
  | t => t

/-- Where a task stands when it has been advanced: it may have slept for no time at all. -/
def Settles (t t' : Task α) : Prop :=
  t.Woken (fun w wake => (∃ ms, w = .sleep ms) ∧ wake = .resumed) t'

theorem Woken.mono {allowed allowed' : Wait → Wake → Prop} {t t' : Task α} (h : t.Woken allowed t')
    (hall : ∀ w wake, allowed w wake → allowed' w wake) : t.Woken allowed' t' := by
  rcases h with h | ⟨w, k, wake, ht, ha, ht'⟩
  · exact .inl h
  · exact .inr ⟨w, k, wake, ht, hall w wake ha, ht'⟩

theorem Woken.trans {allowed allowed' : Wait → Wake → Prop} {t t₁ t₂ : Task α}
    (h : t.Woken allowed t₁) (h₁ : t₁.Woken allowed' t₂) :
    t.Woken (fun w wake => allowed w wake ∨ allowed' w wake) t₂ := by
  rcases h with rfl | ⟨w, k, wake, rfl, ha, rfl⟩
  · exact h₁.mono fun w wake ha => .inr ha
  · rcases h₁ with rfl | ⟨w', k', wake', ht, -, -⟩
    · exact .inr ⟨w, k, wake, rfl, .inl ha, rfl⟩
    · cases ht

end Task

namespace State

/-- The tasks of loop indices after a change of one of them. -/
def withLoop (i : Nat) (t : Task (Option Failure)) (loops : List (Nat × Task (Option Failure))) :
    List (Nat × Task (Option Failure)) :=
  loops.map fun l => if l.1 == i then (i, t) else l

/-- Loop indices are told apart by their numbers. -/
def Distinct (s : State σ α) : Prop := (s.loops.map Prod.fst).Nodup

/-! ### Moves -/

/-- What a job can do to a state, and what happens then. -/
inductive Move (env : Collaborators σ) (program : Nat → Program (Option Failure)) (s : State σ α) :
    Job → List Happening → State σ α → Prop
  /-- A job whose task is not ready changes nothing. -/
  | skip {j : Job} (hj : j ≠ .loopEnded) : Move env program s j [] s
  /-- The main task goes on. -/
  | main {first t : List Deed} {p : Program α} {task task' : Task α} {sh sh' : Shared σ}
      (hturn : s.main.turn? = some (first, p)) (hgoes : GoesOn env p s.shared t task sh)
      (hloops : ∀ n k, task ≠ .waiting (.loops n) k) (htask : task.Settles task')
      (hsh : sh.Alike sh') :
      Move env program s .main ((first ++ t).map (.deed none))
        { s with main := task', shared := sh' }
  /-- The main task goes on until it waits for loop indices, which are started. -/
  | start {first t : List Deed} {p : Program α} {n : Nat} {k : Wake → Program α}
      {sh sh' : Shared σ} (hturn : s.main.turn? = some (first, p))
      (hgoes : GoesOn env p s.shared t (.waiting (.loops n) k) sh)
      (hsh : ({ sh with outcomes := [] } : Shared σ).Alike sh') :
      Move env program s .main ((first ++ t).map (.deed none))
        { s with
          main := .waiting (.loops n) k, shared := sh'
          loops := (List.range n).map fun i => (i, .fresh (program i))
          joined := 0, joinInterrupted := false }
  /-- A loop index goes on, but not to its end. -/
  | loop {i : Nat} {was task task' : Task (Option Failure)} {first t : List Deed}
      {p : Program (Option Failure)} {sh sh' : Shared σ} (hloop : s.loop? i = some was)
      (hturn : was.turn? = some (first, p)) (hgoes : GoesOn env p s.shared t task sh)
      (hend : ∀ o, task ≠ .ended o) (htask : task.Settles task') (hsh : sh.Alike sh') :
      Move env program s (.loop i) ((first ++ t).map (.deed (some i)))
        { s with loops := withLoop i task' s.loops, shared := sh' }
  /-- A loop index goes on to its end. -/
  | loopEnds {i : Nat} {was : Task (Option Failure)} {first t : List Deed}
      {p : Program (Option Failure)} {o : Option Failure} {sh sh' : Shared σ}
      (hloop : s.loop? i = some was) (hturn : was.turn? = some (first, p))
      (hgoes : GoesOn env p s.shared t (.ended o) sh)
      (hsh : ({ sh with
        outcomes := sh.outcomes ++ [(i, o)]
        next := sh.next ++ [.loopEnded] } : Shared σ).Alike sh') :
      Move env program s (.loop i) ((first ++ t).map (.deed (some i)))
        { s with loops := withLoop i (.ended o) s.loops, shared := sh' }
  /-- What the store was asked to do is done, and the main task is woken. -/
  | stored {k : Wake → Program α} (hmain : s.main = .waiting .store k) :
      Move env program s .main [] { s with main := .woken .resumed k }
  /-- A loop index that was interrupted before it had control ends. -/
  | stillborn {i : Nat} {sh : Shared σ} (hloop : s.loop? i = some .stillborn)
      (hsh : ({ s.shared with
        outcomes := s.shared.outcomes ++ [(i, some .interrupted)]
        next := s.shared.next ++ [.loopEnded] } : Shared σ).Alike sh) :
      Move env program s (.loop i) []
        { s with loops := withLoop i (.ended (some .interrupted)) s.loops, shared := sh }
  /-- The end of a loop index is noted; when it is the last one, the main task is woken. -/
  | note {main : Task α} {sh : Shared σ} (hjoined : s.joined < s.ended)
      (hmain : s.main.Woken (fun w wake => (∃ n, w = .loops n) ∧ s.joined + 1 = s.loops.length ∧
        wake = if s.joinInterrupted then .interrupted else .resumed) main)
      (hsh : s.shared.Alike sh) :
      Move env program s .loopEnded [] { s with joined := s.joined + 1, main, shared := sh }
  /-- The consumer goes on; the main task is woken when it waits for room or for the consumer. -/
  | consumer {main : Task α} {sh : Shared σ} (hactive : s.shared.consumer.isActive = true)
      (hmain : s.main.Woken (fun w wake => w = .room ∧ wake = .resumed ∨
        w = .consumer ∧ sh.consumer.phase = .ended ∧
          wake = if sh.consumer.stopped then .interrupted else .resumed) main)
      (hsh : (Shared.consumerTurn env s.shared).2.Alike sh) :
      Move env program s .consumer (consumerHistory s.shared) { s with main, shared := sh }
  /-- The ticker goes on; the main task is woken when it waits for its end. -/
  | ticker {main : Task α} {sh : Shared σ} (hactive : s.shared.ticker.isActive = true)
      (hmain : s.main.Woken (fun w wake => w = .ticker ∧ wake = .interrupted) main)
      (hsh : (Shared.tickerTurn env s.shared).2.Alike sh) :
      Move env program s .ticker (tickerHistory s.shared) { s with main, shared := sh }
  /-- The main task is woken from its sleep. -/
  | wakeMain {main : Task α} {sh : Shared σ}
      (hmain : s.main.Woken (fun w wake => (∃ ms, w = .sleep ms) ∧ wake = .resumed) main)
      (hsh : s.shared.Alike sh) :
      Move env program s (.alarm .wakeMain) [.alarm .wakeMain] { s with main, shared := sh }
  /-- A loop index is woken from its sleep. -/
  | wakeLoop {i : Nat} {ms : Rat} {k : Wake → Program (Option Failure)} {sh : Shared σ}
      (hloop : s.loop? i = some (.waiting (.sleep ms) k)) (hsh : s.shared.Alike sh) :
      Move env program s (.alarm (.wakeLoop i)) [.alarm (.wakeLoop i)]
        { s with loops := withLoop i (.woken .resumed k) s.loops, shared := sh }
  /-- An alarm for a task that does not sleep changes nothing. -/
  | idle (i : Nat) : Move env program s (.alarm (.wakeLoop i)) [.alarm (.wakeLoop i)] s
  /-- The ticker is woken, if it waits. -/
  | tick {phase : Phase} {sh : Shared σ}
      (hphase : phase = s.shared.ticker.phase ∨ s.shared.ticker.phase = .waiting ∧ phase = .woken)
      (hsh : ({ s.shared with ticker := { s.shared.ticker with phase } } : Shared σ).Alike sh) :
      Move env program s (.alarm .tick) [.alarm .tick] { s with shared := sh }
  /-- The run is asked to stop because its time is up. -/
  | timeout (reason : String) :
      Move env program s (.alarm (.timeout reason)) [.alarm (.timeout reason)]
        { s with shared := (Shared.cancel reason true s.shared).2 }
  /-- The run is asked to stop. -/
  | cancel (reason : String) :
      Move env program s (.alarm (.cancel reason)) [.alarm (.cancel reason)]
        { s with shared := (Shared.cancel reason false s.shared).2 }
  /-- The main task is interrupted, and no other one. -/
  | interrupt {sh : Shared σ}
      (hmain : ∀ w k, s.main = .waiting w k → (∃ ms, w = .sleep ms) ∨ w = .room ∨ w = .store)
      (hsh : s.shared.Alike sh) :
      Move env program s (.alarm .interrupt) [.alarm .interrupt]
        { s with main := s.main.interrupted, shared := sh }
  /-- The interruption of the main task is handed on to the consumer. -/
  | interruptConsumer {k : Wake → Program α} (hmain : s.main = .waiting .consumer k) :
      Move env program s (.alarm .interrupt) [.alarm .interrupt]
        { s with shared := (Shared.stopConsumer s.shared).2 }
  /-- The interruption of the main task is handed on to the ticker. -/
  | interruptTicker {k : Wake → Program α} (hmain : s.main = .waiting .ticker k) :
      Move env program s (.alarm .interrupt) [.alarm .interrupt]
        { s with shared := (Shared.stopTicker s.shared).2 }
  /-- The interruption of the main task is handed on to the loop indices. -/
  | interruptLoops {n : Nat} {k : Wake → Program α} {sh : Shared σ}
      (hmain : s.main = .waiting (.loops n) k) (hsh : s.shared.Alike sh) :
      Move env program s (.alarm .interrupt) [.alarm .interrupt]
        { s with
          loops := s.loops.map fun l => (l.1, l.2.interrupted)
          joinInterrupted := true, shared := sh }

variable {env : Collaborators σ} {program : Nat → Program (Option Failure)}

/-! ### What the parts of a job do -/

/-- A sleep sets a timer, or makes the task ready at once. -/
private theorem sleeping_settles {β : Type} (ms : Rat) (k : Wake → Program β) (a : Alarm) {j : Job}
    (hj : j ≠ .loopEnded) (sh : Shared σ) :
    (Task.waiting (.sleep ms) k).Settles (sleeping ms k a j sh).1 ∧
      sh.Alike (sleeping ms k a j sh).2 := by
  by_cases hms : ms ≤ 0
  · have heq : sleeping ms k a j sh = (.woken .resumed k, (Shared.schedule j sh).2) := by
      simp only [sleeping, hms, if_true]
      rfl
    rw [heq]
    exact ⟨.inr ⟨_, k, .resumed, rfl, ⟨⟨ms, rfl⟩, rfl⟩, rfl⟩, Shared.alike_schedule hj sh⟩
  · have heq : sleeping ms k a j sh = (.waiting (.sleep ms) k, (Shared.arm ms a sh).2) := by
      simp only [sleeping, hms, if_false]
      rfl
    rw [heq]
    exact ⟨.inl rfl, Shared.alike_arm ms a sh⟩

private theorem wakeMain_woken (f : Wait → Bool) (wake : Wake) (s : State σ α) :
    ∃ main sh, (wakeMain f wake s).2 = { s with main, shared := sh } ∧ s.shared.Alike sh ∧
      s.main.Woken (fun w wake' => f w = true ∧ wake' = wake) main := by
  obtain ⟨shared, main, loops, joined, ji⟩ := s
  cases main with
  | waiting w k =>
    by_cases hw : f w = true
    · refine ⟨.woken wake k, (Shared.schedule .main shared).2, ?_,
        Shared.alike_schedule (by simp) _, .inr ⟨w, k, wake, rfl, ⟨hw, rfl⟩, rfl⟩⟩
      simp only [wakeMain, run_get_bind, hw, if_true]
      rfl
    · refine ⟨.waiting w k, shared, ?_, .refl _, .inl rfl⟩
      simp only [wakeMain, run_get_bind, hw]
      rfl
  | _ => exact ⟨_, shared, rfl, .refl _, .inl rfl⟩

theorem startLoops_eq (n : Nat) (s : State σ α) :
    (startLoops program n s).2 = { s with
      loops := (List.range n).map fun i => (i, .fresh (program i))
      joined := 0
      joinInterrupted := false
      shared := { s.shared with
        outcomes := []
        next := s.shared.next ++ (List.range n).map .loop } } := by
  have hjobs : ∀ (is : List Nat) (s : State σ α),
      ((forIn is () fun i _ => do
        onShared (Shared.schedule (.loop i)); pure (ForInStep.yield ())) s : _ × State σ α).2 =
      { s with shared := { s.shared with next := s.shared.next ++ is.map .loop } } := by
    intro is
    induction is with
    | nil =>
      intro s
      rw [List.forIn_nil, List.map_nil]
      change s = _
      rw [List.append_nil]
    | cons i is ih =>
      intro s
      rw [List.forIn_cons]
      exact (ih _).trans (by simp)
  exact hjobs _ _

private theorem advanceMain_move {s : State σ α} {first : List Deed} {p : Program α}
    (hturn : s.main.turn? = some (first, p)) :
    Move env program s .main ((first ++ deeds env p s.shared).map (.deed none))
      (advanceMain env program p s).2 := by
  have hgoes := goesOn_advance env p s.shared
  rcases hadv : advance env p s.shared with ⟨task, sh⟩
  rw [hadv] at hgoes
  simp only [advanceMain, bind, StateT.bind, onShared, hadv]
  cases task with
  | waiting w k =>
    cases w with
    | sleep ms =>
      have hj : Job.main ≠ .loopEnded := by simp
      obtain ⟨htask, hsh⟩ := sleeping_settles ms k .wakeMain hj sh
      exact .main hturn hgoes (by simp) htask hsh
    | loops n =>
      change Move env program s .main _
        (startLoops program n { s with shared := sh, main := .waiting (.loops n) k }).2
      rw [startLoops_eq]
      have hnone : ((List.range n).map Job.loop).count .loopEnded = 0 :=
        List.count_eq_zero.mpr (by simp)
      refine .start hturn hgoes ⟨?_, _, _, _, _, rfl⟩
      exact (Shared.ends_append_next { sh with outcomes := [] } _).trans (by rw [hnone]; rfl)
    | _ => exact .main hturn hgoes (by simp) (.inl rfl) (.refl _)
  | _ => exact .main hturn hgoes (by simp) (.inl rfl) (.refl _)

private theorem advanceLoop_move {s : State σ α} {i : Nat} {t : Task (Option Failure)}
    {first : List Deed} {p : Program (Option Failure)} (hloop : s.loop? i = some t)
    (hturn : t.turn? = some (first, p)) :
    Move env program s (.loop i) ((first ++ deeds env p s.shared).map (.deed (some i)))
      (advanceLoop env i p s).2 := by
  have hgoes := goesOn_advance env p s.shared
  rcases hadv : advance env p s.shared with ⟨task, sh⟩
  rw [hadv] at hgoes
  simp only [advanceLoop, bind, StateT.bind, onShared, hadv]
  cases task with
  | waiting w k =>
    cases w with
    | sleep ms =>
      have hj : Job.loop i ≠ .loopEnded := by simp
      obtain ⟨htask, hsh⟩ := sleeping_settles ms k (.wakeLoop i) hj sh
      exact .loop hloop hturn hgoes (by simp) htask hsh
    | _ => exact .loop hloop hturn hgoes (by simp) (.inl rfl) (.refl _)
  | ended o => exact .loopEnds hloop hturn hgoes (.refl _)
  | _ => exact .loop hloop hturn hgoes (by simp) (.inl rfl) (.refl _)

theorem withLoop_of_distinct {i : Nat} {t t' : Task (Option Failure)}
    {before after : List (Nat × Task (Option Failure))}
    (h : ((before ++ (i, t) :: after).map Prod.fst).Nodup) :
    withLoop i t' (before ++ (i, t) :: after) = before ++ (i, t') :: after := by
  simp only [List.map_append, List.map_cons, List.nodup_append, List.nodup_cons] at h
  obtain ⟨-, ⟨hafter, -⟩, hbefore⟩ := h
  have hother (l : List (Nat × Task (Option Failure))) (hl : ∀ x ∈ l, x.1 ≠ i) :
      withLoop i t' l = l := by
    calc withLoop i t' l = l.map id := List.map_congr_left fun x hx => by simp [hl x hx]
      _ = l := List.map_id l
  have hb : withLoop i t' before = before := hother before fun x hx =>
    hbefore x.1 (List.mem_map_of_mem hx) i (by simp)
  have ha : withLoop i t' after = after := hother after fun x hx hxi =>
    hafter (hxi ▸ List.mem_map_of_mem hx)
  calc withLoop i t' (before ++ (i, t) :: after)
      = withLoop i t' before ++ (i, t') :: withLoop i t' after := by simp [withLoop]
    _ = before ++ (i, t') :: after := by rw [hb, ha]

private theorem interruptLoop_eq (i : Nat) (t : Task (Option Failure)) (s : State σ α) :
    ∃ sh, s.shared.Alike sh ∧ ((interruptLoop i t s).2 =
        { s with loops := withLoop i t.interrupted s.loops, shared := sh } ∨
      t.interrupted = t ∧ (interruptLoop i t s).2 = s) := by
  cases t with
  | fresh p => exact ⟨s.shared, .refl _, .inl rfl⟩
  | waiting w k =>
    exact ⟨_, (Shared.alike_disarm (fun a => a = .wakeLoop i) _).trans
      (Shared.alike_schedule (by simp) _), .inl rfl⟩
  | woken wake k => exact ⟨s.shared, .refl _, .inl rfl⟩
  | _ => exact ⟨s.shared, .refl _, .inr ⟨rfl, rfl⟩⟩

/-- All tasks of loop indices are interrupted, one after another. -/
private theorem interruptLoops_eq (ls before : List (Nat × Task (Option Failure))) (s : State σ α)
    (hs : s.loops = before ++ ls) (hd : s.Distinct) :
    ∃ sh, s.shared.Alike sh ∧
      ((forIn ls () fun (x : Nat × Task (Option Failure)) _ => do
        interruptLoop x.1 x.2; pure (ForInStep.yield ())) s : _ × State σ α).2 =
      { s with loops := before ++ ls.map fun l => (l.1, l.2.interrupted), shared := sh } := by
  -- The loop indices in front have been interrupted, and the others are as they were.
  induction ls generalizing before s with
  | nil =>
    refine ⟨s.shared, .refl _, ?_⟩
    rw [List.forIn_nil, List.map_nil, ← hs]
    rfl
  | cons l ls ih =>
    obtain ⟨i, t⟩ := l
    rw [List.forIn_cons]
    have hone : ∃ sh, s.shared.Alike sh ∧ (interruptLoop i t s).2 =
        { s with loops := before ++ (i, t.interrupted) :: ls, shared := sh } := by
      obtain ⟨sh, hsh, heq | ⟨ht, heq⟩⟩ := interruptLoop_eq i t s
      · rw [Distinct, hs] at hd
        rw [hs, withLoop_of_distinct hd] at heq
        exact ⟨sh, hsh, heq⟩
      · refine ⟨s.shared, .refl _, ?_⟩
        rw [heq, ht, ← hs]
    obtain ⟨sh, hsh, heq⟩ := hone
    obtain ⟨sh', hsh', heq'⟩ := ih (before ++ [(i, t.interrupted)])
      { s with loops := before ++ (i, t.interrupted) :: ls, shared := sh } (by simp)
      (by simpa [Distinct, hs] using hd)
    refine ⟨sh', hsh.trans hsh', ?_⟩
    rw [← heq] at heq'
    refine Eq.trans heq' ?_
    rw [heq]
    simp

private theorem interruptMain_move {s : State σ α} (hd : s.Distinct) :
    Move env program s (.alarm .interrupt) [.alarm .interrupt] (interruptMain s).2 := by
  have hready : s.shared.Alike (Shared.schedule .main
      (Shared.disarm (fun a => a = .wakeMain) s.shared).2).2 :=
    (Shared.alike_disarm _ _).trans (Shared.alike_schedule (by simp) _)
  obtain ⟨shared, main, loops, joined, ji⟩ := s
  cases main with
  | waiting w k =>
    cases w with
    | consumer => exact .interruptConsumer rfl
    | ticker => exact .interruptTicker rfl
    | loops n =>
      obtain ⟨sh, hsh, heq⟩ := interruptLoops_eq loops []
        { shared, main := .waiting (.loops n) k, loops, joined, joinInterrupted := true } rfl hd
      refine Eq.subst (motive := Move env program _ _ _) ?_ (Move.interruptLoops rfl hsh)
      exact heq.symm
    | _ => exact .interrupt (by simp) hready
  | _ => exact .interrupt (by simp) (.refl _)

/-! ### Jobs are moves -/

private theorem perform_main_move (s : State σ α) :
    Move env program s .main (s.history env .main) (perform env program .main s).2 := by
  obtain ⟨shared, main, loops, joined, ji⟩ := s
  cases main with
  | fresh p => exact advanceMain_move rfl
  | woken wake k => exact advanceMain_move rfl
  | paused p => exact advanceMain_move rfl
  | _ => exact .skip (by simp)

private theorem perform_loop_move (i : Nat) (s : State σ α) :
    Move env program s (.loop i) (s.history env (.loop i)) (perform env program (.loop i) s).2 := by
  rcases hloop : s.loop? i with _ | t
  · simp only [perform, history, run_get_bind, hloop]
    exact .skip (by simp)
  · cases t <;> simp only [perform, history, run_get_bind, hloop]
    case fresh p => exact advanceLoop_move hloop rfl
    case woken wake k => exact advanceLoop_move hloop rfl
    case paused p => exact advanceLoop_move hloop rfl
    case stillborn => exact .stillborn hloop (.refl _)
    all_goals exact .skip (by simp)

/-- The main task is woken, or not, at the end of a job. -/
private theorem wakeMain_if (c : Bool) (f : Wait → Bool) (wake : Wake) (s : State σ α) :
    ∃ main sh, ((if c then wakeMain f wake else pure () : StateM (State σ α) Unit) s).2 =
        { s with main, shared := sh } ∧ s.shared.Alike sh ∧
      s.main.Woken (fun w wake' => f w = true ∧ c = true ∧ wake' = wake) main := by
  cases c with
  | true => simpa using wakeMain_woken f wake s
  | false => exact ⟨s.main, s.shared, rfl, .refl _, .inl rfl⟩

private theorem perform_loopEnded_move {s : State σ α} (hjoined : s.joined < s.ended) :
    Move env program s .loopEnded (s.history env .loopEnded)
      (perform env program .loopEnded s).2 := by
  obtain ⟨main, sh, heq, hsh, hmain⟩ := wakeMain_if (s.joined + 1 = s.loops.length) isForLoops
    (if s.joinInterrupted then .interrupted else .resumed) { s with joined := s.joined + 1 }
  have hjob : (perform env program .loopEnded s).2 =
      { s with joined := s.joined + 1, main, shared := sh } := by
    rw [← heq]
    simp only [decide_eq_true_eq]
    rfl
  rw [hjob]
  refine .note hjoined (hmain.mono ?_) hsh
  rintro (_ | n | _ | _ | _ | _) wake ⟨hw, hall, rfl⟩ <;> cases hw
  exact ⟨⟨n, rfl⟩, of_decide_eq_true hall, rfl⟩

private theorem perform_consumer_move (s : State σ α) :
    Move env program s .consumer (s.history env .consumer) (perform env program .consumer s).2 := by
  by_cases hactive : s.shared.consumer.isActive = true
  -- The main task may be woken by the room that there is now or by the end of the consumer, but not
  -- by both, since it waits for one thing only.
  · obtain ⟨main, sh, heq, hsh, hmain⟩ := wakeMain_if (!s.shared.pipeline.isEmpty) isForRoom
      .resumed { s with shared := (Shared.consumerTurn env s.shared).2 }
    obtain ⟨main', sh', heq', hsh', hmain'⟩ := wakeMain_if (sh.consumer.phase = .ended)
      isForConsumer (if sh.consumer.stopped then .interrupted else .resumed)
      { s with main, shared := sh }
    have hjob : (perform env program .consumer s).2 = { s with main := main', shared := sh' } := by
      rw [← heq']
      have hrest (t : State σ α) (ht : t = { s with main, shared := sh }) :
          ((do
            let after := (← get).shared.consumer
            if after.phase = .ended then
              wakeMain isForConsumer (if after.stopped then .interrupted else .resumed) :
            StateM (State σ α) Unit) t).2 = ((if decide (sh.consumer.phase = .ended) then
              wakeMain isForConsumer (if sh.consumer.stopped then .interrupted else .resumed)
              else pure () : StateM (State σ α) Unit) { s with main, shared := sh }).2 := by
        subst ht
        simp only [decide_eq_true_eq]
        rfl
      simp only [perform, run_get_bind, hactive, if_true]
      cases hempty : s.shared.pipeline.isEmpty <;> rw [hempty] at heq <;> exact hrest _ heq
    rw [hjob]
    simp only [history, hactive, if_true]
    refine .consumer hactive ((hmain.trans hmain').mono ?_) (hsh.trans hsh')
    obtain ⟨-, _, _, _, _, rfl⟩ := hsh'
    rintro (_ | n | _ | _ | _ | _) wake (⟨hw, -, rfl⟩ | ⟨hw, hend, rfl⟩) <;> cases hw
    · exact .inl ⟨rfl, rfl⟩
    · exact .inr ⟨rfl, of_decide_eq_true hend, rfl⟩
  · simp only [perform, history, run_get_bind, hactive]
    exact .skip (by simp)

private theorem perform_ticker_move (s : State σ α) :
    Move env program s .ticker (s.history env .ticker) (perform env program .ticker s).2 := by
  by_cases hactive : s.shared.ticker.isActive = true
  · obtain ⟨main, sh, heq, hsh, hmain⟩ := wakeMain_if
      ((Shared.tickerTurn env s.shared).2.ticker.phase = .ended) isForTicker .interrupted
      { s with shared := (Shared.tickerTurn env s.shared).2 }
    have hjob : (perform env program .ticker s).2 = { s with main, shared := sh } := by
      rw [← heq]
      simp only [perform, run_get_bind, hactive, if_true, decide_eq_true_eq]
      rfl
    rw [hjob]
    simp only [history, hactive, if_true]
    refine .ticker hactive (hmain.mono ?_) hsh
    rintro (_ | n | _ | _ | _ | _) wake ⟨hw, -, rfl⟩ <;> cases hw
    exact ⟨rfl, rfl⟩
  · simp only [perform, history, run_get_bind, hactive]
    exact .skip (by simp)

private theorem ring_move {s : State σ α} (hd : s.Distinct) (a : Alarm) :
    Move env program s (.alarm a) [.alarm a] (ring a s).2 := by
  cases a with
  | wakeMain =>
    obtain ⟨main, sh, heq, hsh, hmain⟩ := wakeMain_woken isSleep .resumed s
    rw [ring, heq]
    refine .wakeMain (hmain.mono ?_) hsh
    rintro (ms | _ | _ | _ | _ | _) wake ⟨hw, rfl⟩ <;> cases hw
    exact ⟨⟨ms, rfl⟩, rfl⟩
  | wakeLoop i =>
    rcases hloop : s.loop? i with _ | t
    · simp only [ring, run_get_bind, hloop]
      exact .idle i
    · rcases t with _ | _ | ⟨w, k⟩ | _ | _
      case waiting =>
        cases w <;> simp only [ring, run_get_bind, hloop]
        case sleep ms => exact .wakeLoop hloop (Shared.alike_schedule (by simp) s.shared)
        all_goals exact .idle i
      all_goals
        simp only [ring, run_get_bind, hloop]
        exact .idle i
  | tick =>
    simp only [ring, run_get_bind]
    split
    · rename_i hphase
      exact .tick (.inr ⟨hphase, rfl⟩) (Shared.alike_schedule (by simp) _)
    · exact .tick (.inl rfl) (.refl _)
  | timeout reason => exact .timeout reason
  | cancel reason => exact .cancel reason
  | interrupt => exact interruptMain_move hd

/-- A job is one of the moves, as long as loop indices are told apart by their numbers. -/
theorem perform_move (env : Collaborators σ) (program : Nat → Program (Option Failure))
    {s : State σ α} (hd : s.Distinct) (j : Job) (hj : j = .loopEnded → s.joined < s.ended) :
    Move env program s j (s.history env j) (perform env program j s).2 := by
  cases j with
  | main => exact perform_main_move s
  | loop i => exact perform_loop_move i s
  | loopEnded => exact perform_loopEnded_move (hj rfl)
  | consumer => exact perform_consumer_move s
  | ticker => exact perform_ticker_move s
  | alarm a => exact ring_move hd a

/-- A step lets time pass, or is one of the moves. -/
theorem Step.pass_or_move {s s' : State σ α} {h : List Happening} (hs : Step env program s h s')
    (hd : s.Distinct) :
    (h = [] ∧ ∃ clock timers current next, s.shared.clock ≤ clock ∧
      s' = { s with shared := { s.shared with clock, timers, current, next } }) ∨
    ∃ j, Move env program s j h s' := by
  cases hs with
  | job j hj => exact .inr ⟨j, perform_move env program hd j hj⟩
  | pass clock timers current next hclock => exact .inl ⟨rfl, _, _, _, _, hclock, rfl⟩
  | giveWay hturn hgoes hgives =>
    refine .inr ⟨_, .main hturn hgoes ?_ (.inl rfl) (.refl _)⟩
    rintro n k rfl
    rcases hgives with ⟨q, hq⟩ | ⟨k', hk⟩
    · cases hq
    · cases hk
  | loopGivesWay hloop hturn hgoes =>
    exact .inr ⟨_, .loop hloop hturn hgoes (fun _ heq => nomatch heq) (.inl rfl) (.refl _)⟩
  | stored hmain => exact .inr ⟨_, .stored hmain⟩

theorem distinct_start (shared : Shared σ) (p : Program α) : (start shared p).Distinct :=
  List.nodup_nil

theorem keys_withLoop (i : Nat) (t : Task (Option Failure))
    (loops : List (Nat × Task (Option Failure))) :
    (withLoop i t loops).map Prod.fst = loops.map Prod.fst := by
  simp only [withLoop, List.map_map]
  refine List.map_congr_left fun l _ => ?_
  by_cases hl : l.1 = i <;> simp [hl]

/-- Loop indices stay distinct. -/
theorem Move.distinct {s s' : State σ α} {j : Job} {h : List Happening}
    (hm : Move env program s j h s') (hd : s.Distinct) : s'.Distinct := by
  cases hm with
  | start => simpa [Distinct, Function.comp_def] using List.nodup_range
  | loop => simpa only [Distinct, keys_withLoop] using hd
  | loopEnds => simpa only [Distinct, keys_withLoop] using hd
  | stillborn => simpa only [Distinct, keys_withLoop] using hd
  | wakeLoop => simpa only [Distinct, keys_withLoop] using hd
  | interruptLoops => simpa [Distinct, Function.comp_def] using hd
  | _ => exact hd

/-- What holds at the beginning, is kept by every move on the way and does not depend on time and
order, holds at the end of a schedule. -/
theorem Reaches.along {P : List Happening → State σ α → Prop} {s s' : State σ α}
    {h : List Happening} (hs : Reaches env program s h s') (hd : s.Distinct) (hinit : P [] s)
    (hpass : ∀ {h s₁} clock timers current next, P h s₁ →
      P h { s₁ with shared := { s₁.shared with clock, timers, current, next } })
    (hmove : ∀ {h s₁ j h₁ s₂}, Reaches env program s h s₁ → Reaches env program s (h ++ h₁) s₂ →
      P h s₁ → Move env program s₁ j h₁ s₂ → P (h ++ h₁) s₂) : P h s' := by
  have hall : Reaches env program s h s' ∧ s'.Distinct ∧ P h s' := by
    refine hs.invariant (P := fun h s' => Reaches env program s h s' ∧ s'.Distinct ∧ P h s')
      ⟨.refl s, hd, hinit⟩ ?_
    rintro h s₁ h₁ s₂ ⟨hs₁, hd₁, hp⟩ hstep
    refine ⟨hs₁.tail hstep, ?_⟩
    rcases hstep.pass_or_move hd₁ with ⟨rfl, clock, timers, current, next, -, rfl⟩ | ⟨j, hm⟩
    · rw [List.append_nil]
      exact ⟨hd₁, hpass clock timers current next hp⟩
    · exact ⟨hm.distinct hd₁, hmove hs₁ (hs₁.tail hstep) hp hm⟩
  exact hall.2.2

/-- What holds at the beginning, is kept by every move and does not depend on time and order, holds
of every schedule. -/
theorem Reaches.induction {P : List Happening → State σ α → Prop} {s s' : State σ α}
    {h : List Happening} (hs : Reaches env program s h s') (hd : s.Distinct) (hinit : P [] s)
    (hpass : ∀ {h s} clock timers current next, P h s →
      P h { s with shared := { s.shared with clock, timers, current, next } })
    (hmove : ∀ {h s j h₁ s₁}, P h s → Move env program s j h₁ s₁ → P (h ++ h₁) s₁) : P h s' :=
  hs.along hd hinit hpass fun _ _ => hmove

theorem Reaches.distinct {s s' : State σ α} {h : List Happening}
    (hs : Reaches env program s h s') (hd : s.Distinct) : s'.Distinct :=
  hs.induction (P := fun _ s => s.Distinct) hd hd (fun _ _ _ _ hp => hp) fun hp hm => hm.distinct hp

end State

end Runbook.Schedule
