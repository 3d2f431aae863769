import Runbook.Proofs.Trace
import Runbook.Schedule.State

/-!
# Histories of schedules

A schedule carries out jobs one after another, and its history lists what happens meanwhile: the
deeds of every task, the turns of the consumer, the flushes and the alarms.

`State.Step` leaves the order of jobs open. Any task may go on next, any alarm may go off at any
moment and time may pass; only the end of a loop index is noted no more often than loop indices have
ended. Besides, a task may give way at every call that something outside answers in its own time,
before the call is carried out or before its reply arrives, and the main task may wait for its
store. So what holds of all schedules holds in particular of the one that takes the jobs in the
order in which they became ready, and of all those in which collaborators take their time. A task
that has given way at a call is not interrupted there; an interruption passes it by.

* `GoesOn env p s t task s'`: the program `p` may go on, do `t` and leave its task at `task`.
* `State.Reaches env program s h s'`: a schedule leads from `s` to `s'`, and `h` is its history.
* `Task.Reached`: a task is where its program leads, given its deeds so far.
-/

namespace Runbook

namespace Schedule

variable {σ α : Type}

/-- Something that happens in a schedule. -/
inductive Happening where
  /-- A deed of the main task or, by its number, of the task of a loop index. -/
  | deed (task : Option Nat) (d : Deed)
  /-- The consumer has control, and has not been told to stop before. -/
  | turn
  /-- What has been gathered is written to the record. -/
  | flush
  | alarm (a : Alarm)

/-! ### The history of a job -/

/-- The deeds of a program while it has control. -/
def deeds (env : Collaborators σ) : Program α → Shared σ → List Deed
  | .done _, _ => []
  | .call c k, s =>
    .call c (Shared.answer env c s).1 ::
      deeds env (k (Shared.answer env c s).1) (Shared.answer env c s).2
  | .wait w k, s =>
    if s.isOver w then .wait w :: .wake .resumed :: deeds env (k .resumed) s else [.wait w]

section Over

variable {env : Collaborators σ} {w : Wait} {k : Wake → Program α} {s : Shared σ}

theorem advance_wait_of_over (h : s.isOver w = true) :
    advance env (.wait w k) s = advance env (k .resumed) s :=
  congrFun (if_pos h) s

theorem advance_wait_of_not_over (h : ¬ s.isOver w = true) :
    advance env (.wait w k) s = (.waiting w k, s) :=
  congrFun (if_neg h) s

theorem deeds_wait_of_over (h : s.isOver w = true) :
    deeds env (.wait w k) s = .wait w :: .wake .resumed :: deeds env (k .resumed) s :=
  if_pos h

theorem deeds_wait_of_not_over (h : ¬ s.isOver w = true) :
    deeds env (.wait w k) s = [.wait w] :=
  if_neg h

end Over

/-! ### Giving way -/

/-- How a program may go on while it has control: it does some deeds and leaves its task somewhere.
At a call that takes time it may give way, and the store may keep it waiting. -/
inductive GoesOn (env : Collaborators σ) :
    Program α → Shared σ → List Deed → Task α → Shared σ → Prop
  | done (a : α) (s : Shared σ) : GoesOn env (.done a) s [] (.ended a) s
  | call {c : Call} {k : c.Reply → Program α} {s s' : Shared σ} {t : List Deed} {task : Task α}
      (h : GoesOn env (k (Shared.answer env c s).1) (Shared.answer env c s).2 t task s') :
      GoesOn env (.call c k) s (.call c (Shared.answer env c s).1 :: t) task s'
  /-- What it waits for is over. -/
  | resume {w : Wait} {k : Wake → Program α} {s s' : Shared σ} {t : List Deed} {task : Task α}
      (hw : s.isOver w = true) (h : GoesOn env (k .resumed) s t task s') :
      GoesOn env (.wait w k) s (.wait w :: .wake .resumed :: t) task s'
  | wait {w : Wait} {k : Wake → Program α} {s : Shared σ} (hw : s.isOver w = true → w = .store) :
      GoesOn env (.wait w k) s [.wait w] (.waiting w k) s
  /-- It gives way before the call is carried out. -/
  | before {c : Call} {k : c.Reply → Program α} {s : Shared σ} (hc : c.TakesTime) :
      GoesOn env (.call c k) s [] (.paused (.call c k)) s
  /-- It gives way before the reply arrives. A program that has nothing left to do has ended. -/
  | after {c : Call} {k : c.Reply → Program α} {s : Shared σ} (hc : c.TakesTime)
      (hk : ∀ a, k (Shared.answer env c s).1 ≠ .done a) :
      GoesOn env (.call c k) s [.call c (Shared.answer env c s).1]
        (.paused (k (Shared.answer env c s).1)) (Shared.answer env c s).2

/-- A program may go on until it waits for something that is not over, or ends. -/
theorem goesOn_advance (env : Collaborators σ) (p : Program α) (s : Shared σ) :
    GoesOn env p s (deeds env p s) (advance env p s).1 (advance env p s).2 := by
  induction p generalizing s with
  | done a => exact .done a s
  | call c k ih => exact .call (ih _ _)
  | wait w k ih =>
    by_cases hw : s.isOver w = true
    · rw [deeds_wait_of_over hw, advance_wait_of_over hw]
      exact .resume hw (ih .resumed s)
    · rw [deeds_wait_of_not_over hw, advance_wait_of_not_over hw]
      exact .wait fun h => absurd h hw

/-- How a task whose turn it is goes on: what it does at once, and the program that follows. -/
def Task.turn? : Task α → Option (List Deed × Program α)
  | .fresh p | .paused p => some ([], p)
  | .woken wake k => some ([.wake wake], k wake)
  | _ => none

/-- What a task whose turn it is does at once is at most to wake up. -/
theorem Task.first_of_turn? {task : Task α} {first : List Deed} {p : Program α}
    (h : task.turn? = some (first, p)) : first = [] ∨ ∃ wake, first = [.wake wake] := by
  cases task with
  | fresh | paused => cases h; exact .inl rfl
  | woken wake k => cases h; exact .inr ⟨wake, rfl⟩
  | _ => cases h

section Keeps

variable {env : Collaborators σ} {P : List Happening → Shared σ → Prop} {who : Option Nat}
  {p : Program α} {s s' : Shared σ} {t : List Deed} {task : Task α} {h : List Happening}

/-- What is kept by every call, every wait and its end is kept by a program that goes on. -/
theorem GoesOn.keeps (hgoes : GoesOn env p s t task s')
    (hcall : ∀ {h s} c, P h s →
      P (h ++ [.deed who (.call c (Shared.answer env c s).1)]) (Shared.answer env c s).2)
    (hwait : ∀ {h s} w, P h s → P (h ++ [.deed who (.wait w)]) s)
    (hwake : ∀ {h s} wake, P h s → P (h ++ [.deed who (.wake wake)]) s) (hp : P h s) :
    P (h ++ t.map (.deed who)) s' := by
  induction hgoes generalizing h with
  | done | before => rwa [List.map_nil, List.append_nil]
  | call _ ih =>
    rw [List.map_cons, List.append_cons]
    exact ih (hcall _ hp)
  | resume _ _ ih =>
    rw [List.map_cons, List.map_cons, List.append_cons, List.append_cons]
    exact ih (hwake _ (hwait _ hp))
  | wait => exact hwait _ hp
  | after => exact hcall _ hp

/-- What is kept by every call, every wait and its end is kept by the turn of a task. -/
theorem GoesOn.keeps_turn {was : Task α} {first : List Deed} (hgoes : GoesOn env p s t task s')
    (hturn : was.turn? = some (first, p))
    (hcall : ∀ {h s} c, P h s →
      P (h ++ [.deed who (.call c (Shared.answer env c s).1)]) (Shared.answer env c s).2)
    (hwait : ∀ {h s} w, P h s → P (h ++ [.deed who (.wait w)]) s)
    (hwake : ∀ {h s} wake, P h s → P (h ++ [.deed who (.wake wake)]) s) (hp : P h s) :
    P (h ++ (first ++ t).map (.deed who)) s' := by
  rcases Task.first_of_turn? hturn with rfl | ⟨wake, rfl⟩
  · exact hgoes.keeps hcall hwait hwake hp
  · rw [List.singleton_append, List.map_cons, List.append_cons]
    exact hgoes.keeps hcall hwait hwake (hwake _ hp)

end Keeps

/-- The deeds of a task whose turn it is. -/
def Task.deeds (env : Collaborators σ) (s : Shared σ) (t : Task α) : List Deed :=
  match t.turn? with
  | some (first, p) => first ++ Schedule.deeds env p s
  | none => []

/-- What happens in a turn of the consumer. -/
def consumerHistory (s : Shared σ) : List Happening :=
  if s.consumer.stopped && s.consumer.phase = .fresh then []
  else if s.pipeline.marked || s.consumer.stopped then [.turn, .flush]
  else [.turn]

/-- What happens in a turn of the ticker. -/
def tickerHistory (s : Shared σ) : List Happening :=
  if !s.ticker.stopped && s.ticker.phase = .woken then [.flush] else []

namespace State

/-- What happens in a job. -/
def history (env : Collaborators σ) (s : State σ α) : Job → List Happening
  | .main => (s.main.deeds env s.shared).map (.deed none)
  | .loop i => (((s.loop? i).map (·.deeds env s.shared)).getD []).map (.deed (some i))
  | .loopEnded => []
  | .consumer => if s.shared.consumer.isActive then consumerHistory s.shared else []
  | .ticker => if s.shared.ticker.isActive then tickerHistory s.shared else []
  | .alarm a => [.alarm a]

/-! ### Schedules -/

/-- The beginning of a schedule of a main task. -/
def start (shared : Shared σ) (p : Program α) : State σ α := { shared, main := .fresh p }

/-- The number of loop indices that have ended. -/
def ended (s : State σ α) : Nat := s.loops.countP fun l => l.2.result?.isSome

/-- One step of a schedule, and what happens in it. -/
inductive Step (env : Collaborators σ) (program : Nat → Program (Option Failure)) :
    State σ α → List Happening → State σ α → Prop
  /-- A job is carried out. The end of a loop index is noted only once. -/
  | job {s : State σ α} (j : Job) (h : j = .loopEnded → s.joined < s.ended) :
      Step env program s (s.history env j) (perform env program j s).2
  /-- Time passes, and jobs and timers are put in order. -/
  | pass {s : State σ α} (clock : Rat) (timers : List (Rat × Alarm)) (current next : List Job)
      (h : s.shared.clock ≤ clock) :
      Step env program s [] { s with shared := { s.shared with clock, timers, current, next } }
  /-- The main task goes on until it gives way at a call, or waits for the store. -/
  | giveWay {s : State σ α} {first t : List Deed} {p : Program α} {task : Task α} {sh : Shared σ}
      (hturn : s.main.turn? = some (first, p)) (hgoes : GoesOn env p s.shared t task sh)
      (hgives : (∃ q, task = .paused q) ∨ ∃ k, task = .waiting .store k) :
      Step env program s ((first ++ t).map (.deed none)) { s with main := task, shared := sh }
  /-- A loop index goes on until it gives way at a call. -/
  | loopGivesWay {s : State σ α} {i : Nat} {was : Task (Option Failure)} {first t : List Deed}
      {p q : Program (Option Failure)} {sh : Shared σ} (hloop : s.loop? i = some was)
      (hturn : was.turn? = some (first, p)) (hgoes : GoesOn env p s.shared t (.paused q) sh) :
      Step env program s ((first ++ t).map (.deed (some i)))
        (setLoop i (.paused q) { s with shared := sh }).2
  /-- What the store was asked to do is done. -/
  | stored {s : State σ α} {k : Wake → Program α} (h : s.main = .waiting .store k) :
      Step env program s [] { s with main := .woken .resumed k }

/-- A schedule leads from one state to another with a history. -/
inductive Reaches (env : Collaborators σ) (program : Nat → Program (Option Failure)) :
    State σ α → List Happening → State σ α → Prop
  | refl (s : State σ α) : Reaches env program s [] s
  | tail {s s₁ s₂ : State σ α} {h h₁ : List Happening} :
      Reaches env program s h s₁ → Step env program s₁ h₁ s₂ → Reaches env program s (h ++ h₁) s₂

variable {env : Collaborators σ} {program : Nat → Program (Option Failure)}

theorem Reaches.step {s s' : State σ α} {h : List Happening} (hs : Step env program s h s') :
    Reaches env program s h s' := by
  simpa using (Reaches.refl s).tail hs

theorem Reaches.trans {s s₁ s₂ : State σ α} {h h₁ : List Happening}
    (hs : Reaches env program s h s₁) (hs₁ : Reaches env program s₁ h₁ s₂) :
    Reaches env program s (h ++ h₁) s₂ := by
  induction hs₁ with
  | refl => simpa using hs
  | tail _ hstep ih => simpa using ih.tail hstep

/-- What holds at the beginning and is kept by every step holds of every schedule. -/
theorem Reaches.invariant {P : List Happening → State σ α → Prop} {s s' : State σ α}
    {h : List Happening} (hs : Reaches env program s h s') (hinit : P [] s)
    (hstep : ∀ {h s h₁ s₁}, P h s → Step env program s h₁ s₁ → P (h ++ h₁) s₁) : P h s' := by
  induction hs with
  | refl => exact hinit
  | tail _ hs₁ ih => exact hstep ih hs₁

/-- Carries out some jobs, and notes what happens. -/
def carryOut (env : Collaborators σ) (program : Nat → Program (Option Failure)) :
    List Job → State σ α → List Happening × State σ α
  | [], s => ([], s)
  | j :: js, s =>
    let rest := carryOut env program js (perform env program j s).2
    (s.history env j ++ rest.1, rest.2)

/-- Whether jobs note the ends of loop indices only after these have ended. -/
def notesEnds (env : Collaborators σ) (program : Nat → Program (Option Failure)) :
    List Job → State σ α → Bool
  | [], _ => true
  | j :: js, s =>
    (j ≠ .loopEnded || s.joined < s.ended) && notesEnds env program js (perform env program j s).2

/-- Jobs that note ends only after them are a schedule. -/
theorem carryOut_reaches_of (env : Collaborators σ) (program : Nat → Program (Option Failure))
    (js : List Job) (s : State σ α) (hjs : notesEnds env program js s = true) :
    Reaches env program s (carryOut env program js s).1 (carryOut env program js s).2 := by
  induction js generalizing s with
  | nil => exact .refl s
  | cons j js ih =>
    rw [notesEnds, Bool.and_eq_true, Bool.or_eq_true] at hjs
    obtain ⟨hj, hjs⟩ := hjs
    refine (Reaches.step (.job j fun h => ?_)).trans (ih _ hjs)
    exact hj.elim (fun hne => absurd h (of_decide_eq_true hne)) of_decide_eq_true

/-- Jobs that note no ends are a schedule in any order. -/
theorem carryOut_reaches (env : Collaborators σ) (program : Nat → Program (Option Failure))
    (js : List Job) (hjs : .loopEnded ∉ js) (s : State σ α) :
    Reaches env program s (carryOut env program js s).1 (carryOut env program js s).2 := by
  refine carryOut_reaches_of env program js s ?_
  induction js generalizing s with
  | nil => rfl
  | cons j js ih =>
    rw [List.mem_cons, not_or] at hjs
    rw [notesEnds, ih hjs.2, decide_eq_true (Ne.symm hjs.1)]
    rfl

/-- Only its own job makes an alarm go off. -/
theorem eq_alarm_of_mem_history {s : State σ α} {j : Job} {a : Alarm}
    (h : .alarm a ∈ s.history env j) : j = .alarm a := by
  cases j with
  | main => simp [history] at h
  | loop i => simp [history] at h
  | loopEnded => cases h
  | consumer =>
    simp only [history, consumerHistory] at h
    split at h
    · split at h
      · cases h
      · split at h <;> simp at h
    · cases h
  | ticker =>
    simp only [history, tickerHistory] at h
    split at h
    · split at h <;> simp at h
    · cases h
  | alarm a' => rw [Happening.alarm.inj (List.mem_singleton.mp h)]

/-- No alarm goes off but those that are carried out. -/
theorem not_mem_carryOut {a : Alarm} {js : List Job} (hjs : .alarm a ∉ js) (s : State σ α) :
    .alarm a ∉ (carryOut env program js s).1 := by
  induction js generalizing s with
  | nil => exact List.not_mem_nil
  | cons j js ih =>
    rw [List.mem_cons, not_or] at hjs
    intro hm
    rcases List.mem_append.mp hm with hm | hm
    · exact hjs.1 (eq_alarm_of_mem_history hm).symm
    · exact ih hjs.2 _ hm

end State

end Schedule

end Runbook
