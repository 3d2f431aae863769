import Runbook.Page.Launcher
import Mathlib.Logic.Function.Basic

/-!
# Sessions side by side

Any number of sessions and shutdowns of one launcher may be under way. Each is a task with work of
its own, and waits for the reply to what it has asked for. When one of them gets its reply it goes
on to its next request; then another or the same one gets a reply. Only the lock is not given as
long as it is taken. Nothing is assumed about who gets a reply next, about who is interrupted where
it waits, or about the replies of the browser software, except that each new thing gets a number
that none had before it.

What a task may ask for, given what it has been told so far, is said by a protocol. It is enough to
look at the work of the task alone to see that it keeps to a protocol: every way to build work has a
lemma here. What has then been asked side by side was allowed to each.

* `Work.Follows P post s w`: from the state `s` of the protocol `P` on, the work `w` keeps to it.
* `System.Reaches s₀ past s`: the tasks can come from `s₀` to `s`; `past` lists the requests with
  their replies, the latest first.
* `System.Reaches.follows`: side by side, each task keeps to its protocol.
-/

namespace Runbook.Launcher

variable {S α β : Type}

/-! ### Protocols -/

/-- Which requests are allowed in a state, and the state after a reply. -/
structure Protocol (S : Type) where
  Allows : S → Request → Prop
  next : S → (q : Request) → q.Reply → S

namespace Work

/-- From a state on, the work keeps to a protocol, whatever the replies are, and when it ends, a
condition holds of the state and the result. -/
def Follows (P : Protocol S) (post : S → α → Prop) : S → Work α → Prop
  | s, done a => post s a
  | s, ask q k => P.Allows s q ∧ ∀ r, Follows P post (P.next s q r) (k r)

variable {P : Protocol S} {post post' : S → α → Prop} {s : S}

theorem follows_pure_iff {a : α} : (pure a : Work α).Follows P post s ↔ post s a := Iff.rfl

theorem follows_request_iff {q : Request} {post : S → q.Reply → Prop} :
    (request q).Follows P post s ↔ P.Allows s q ∧ ∀ r, post (P.next s q r) r :=
  Iff.rfl

theorem follows_bind_iff {w : Work α} {f : α → Work β} {post : S → β → Prop} :
    (w >>= f).Follows P post s ↔ w.Follows P (fun s a => (f a).Follows P post s) s := by
  change (w.bind f).Follows P post s ↔ _
  induction w generalizing s with
  | done a => rfl
  | ask q k ih => simp only [bind, Follows, ih]

/-- A request first, and then what depends on the reply. -/
theorem follows_request_bind_iff {q : Request} {f : q.Reply → Work β} {post : S → β → Prop} :
    (request q >>= f).Follows P post s ↔
      P.Allows s q ∧ ∀ r, (f r).Follows P post (P.next s q r) :=
  Iff.rfl

/-- Work keeps to a protocol that forbids nothing. -/
theorem follows_of_allows (hP : ∀ s q, P.Allows s q) (w : Work α) :
    w.Follows P (fun _ _ => True) s := by
  induction w generalizing s with
  | done a => trivial
  | ask q k ih => exact ⟨hP s q, fun r => ih r⟩

theorem Follows.mono {w : Work α} (h : w.Follows P post s) (himp : ∀ s a, post s a → post' s a) :
    w.Follows P post' s := by
  induction w generalizing s with
  | done a => exact himp s a h
  | ask q k ih => exact ⟨h.1, fun r => ih r (h.2 r)⟩

/-- Work that keeps to a protocol first, and then what does so from where the first has ended. -/
theorem Follows.bind {w : Work α} {f : α → Work β} {mid : S → α → Prop} {post : S → β → Prop}
    (h : w.Follows P mid s) (hf : ∀ s a, mid s a → (f a).Follows P post s) :
    (w >>= f).Follows P post s :=
  follows_bind_iff.mpr (h.mono hf)

/-- What is done with the lock, with the interruption that may come instead. -/
theorem follows_guarded {m : StateT Parts Work (Except Failure α)}
    {post : S → Except Failure α → Prop} (hacquire : P.Allows s .acquire)
    (hnone : post (P.next s .acquire none) (.error .interrupted))
    (hm : ∀ parts, (m.run parts).Follows P
      (fun s p => P.Allows s (.release p.2) ∧ post (P.next s (.release p.2) ()) p.1)
      (P.next s .acquire (some parts))) :
    (guarded m).Follows P post s := by
  refine follows_request_bind_iff.mpr ⟨hacquire, ?_⟩
  rintro (_ | parts)
  · exact hnone
  · exact (hm parts).bind fun _ _ hrelease => ⟨hrelease.1, fun _ => hrelease.2⟩

/-- Where logs are allowed and change nothing, a failure is only logged, and an interruption is not
caught. -/
theorem follows_onlyLogged (hallows : ∀ record, P.Allows s (.log record))
    (hnext : ∀ record r, P.next s (.log record) r = s) (event : String) (fields : Fields)
    (r : Except Failure Unit) :
    (onlyLogged event fields r).Follows P (fun s' outcome => s' = s ∧
      (outcome = .ok () ∧ r ≠ .error .interrupted ∨ outcome = r ∧ r = .error .interrupted)) s := by
  rcases r with (_ | _ | _) | _
  · exact ⟨hallows _, fun r => ⟨hnext _ r, .inl ⟨rfl, nofun⟩⟩⟩
  · exact ⟨hallows _, fun r => ⟨hnext _ r, .inl ⟨rfl, nofun⟩⟩⟩
  · exact ⟨rfl, .inr ⟨rfl, rfl⟩⟩
  · exact ⟨rfl, .inl ⟨rfl, nofun⟩⟩

end Work

/-! ### Tasks -/

/-- A request with its reply. -/
abbrev Answered := (q : Request) × q.Reply

namespace Answered

/-- The number of browser software that was started. -/
def started? : Answered → Option Nat
  | ⟨.start, .ok n⟩ => some n
  | _ => none

/-- The number of a browser that was launched. -/
def launched? : Answered → Option Nat
  | ⟨.launch _ _ _, .ok n⟩ => some n
  | _ => none

/-- The number of a context that was created. -/
def created? : Answered → Option Nat
  | ⟨.newContext _ _, .ok n⟩ => some n
  | _ => none

/-- The number of a browser that was asked to close, and how that came out. -/
def closed? : Answered → Option (Nat × Except Failure Unit)
  | ⟨.closeBrowser n, r⟩ => some (n, r)
  | _ => none

/-- The number of a context that was asked to close, and how that came out. -/
def closedContext? : Answered → Option (Nat × Except Failure Unit)
  | ⟨.closeContext n, r⟩ => some (n, r)
  | _ => none

/-- How the use of a page has ended. -/
def used? : Answered → Option (Except Failure Unit)
  | ⟨.use _, r⟩ => some r
  | _ => none

/-- The number of browser software that was asked to stop. -/
def stopped? : Answered → Option Nat
  | ⟨.stop n, _⟩ => some n
  | _ => none

end Answered

/-- What a task has to do. -/
inductive Job where
  | session (loopIndex : Int)
  | shutdown
  deriving DecidableEq

/-- How a task ends. -/
abbrev Outcome := Except Failure Unit

/-- The work of a task. -/
def Job.work (o : Options) : Job → Work Outcome
  | .session loopIndex => Launcher.session o loopIndex
  | .shutdown => Launcher.shutdown

/-- Tasks side by side. -/
structure System (ι : Type) where
  /-- What is behind the lock. -/
  parts : Parts := {}
  /-- The task that has the lock. -/
  holder : Option ι := none
  tasks : ι → Work Outcome

namespace System

variable {ι : Type} [DecidableEq ι]

/-- Tasks that have not begun. -/
def start (o : Options) (jobs : ι → Job) : System ι := { tasks := fun i => (jobs i).work o }

/-- Which replies are possible: the lock is given when it is free, and what is new gets a new
number. -/
def Possible (past : List (ι × Answered)) (s : System ι) : (q : Request) → q.Reply → Prop
  | .acquire, some parts => s.holder = none ∧ parts = s.parts
  | .start, .ok n => ∀ d ∈ past, d.2.started? ≠ some n
  | .launch _ _ _, .ok n => ∀ d ∈ past, d.2.launched? ≠ some n
  | .newContext _ _, .ok n => ∀ d ∈ past, d.2.created? ≠ some n
  | _, _ => True

/-- A task goes on, having got a reply. -/
def goOn (s : System ι) (i : ι) (q : Request) (r : q.Reply) (w : Work Outcome) : System ι :=
  let s := { s with tasks := Function.update s.tasks i w }
  match q, r with
  | .acquire, some _ => { s with holder := some i }
  | .release parts, _ => { s with holder := none, parts }
  | _, _ => s

/-- The tasks can come from one state to another; what was asked is listed with the replies, the
latest first. -/
inductive Reaches (s₀ : System ι) : List (ι × Answered) → System ι → Prop
  | refl : Reaches s₀ [] s₀
  | step {past : List (ι × Answered)} {s : System ι} {i : ι} {q : Request}
      {k : q.Reply → Work Outcome} {r : q.Reply} :
      Reaches s₀ past s → s.tasks i = .ask q k → s.Possible past q r →
      Reaches s₀ ((i, ⟨q, r⟩) :: past) (s.goOn i q r (k r))

variable {s₀ s : System ι} {past : List (ι × Answered)} {i j : ι}

@[simp]
theorem tasks_goOn (s : System ι) (i : ι) (q : Request) (r : q.Reply) (w : Work Outcome) :
    (s.goOn i q r w).tasks = Function.update s.tasks i w := by
  unfold goOn
  split <;> rfl

/-- Before what was asked last, a state was reached in which a task could ask for that. -/
theorem Reaches.exists_before {q : Request} {r : q.Reply}
    (h : Reaches s₀ ((i, ⟨q, r⟩) :: past) s) :
    ∃ s₁ k, Reaches s₀ past s₁ ∧ s₁.tasks i = .ask q k ∧ s₁.Possible past q r ∧
      s = s₁.goOn i q r (k r) := by
  cases h with
  | step h htask hpossible => exact ⟨_, _, h, htask, hpossible, rfl⟩

/-- Before what was asked later, a state was reached. -/
theorem Reaches.of_append {later earlier : List (ι × Answered)}
    (h : Reaches s₀ (later ++ earlier) s) : ∃ s₁, Reaches s₀ earlier s₁ := by
  induction later generalizing s with
  | nil => exact ⟨s, h⟩
  | cons d later ih =>
    obtain ⟨_, _, h₁, -⟩ := h.exists_before
    exact ih h₁

end System

/-! ### Tasks that keep to protocols -/

namespace Protocol

variable {ι : Type} [DecidableEq ι]

/-- The state that a task has come to. -/
def state (P : Protocol S) (s : S) (i : ι) : List (ι × Answered) → S
  | [] => s
  | (j, ⟨q, r⟩) :: past => if j = i then P.next (P.state s i past) q r else P.state s i past

variable {P : Protocol S} {s : S} {i j : ι} {q : Request} {r : q.Reply}
  {past : List (ι × Answered)}

@[simp]
theorem state_self : P.state s i ((i, ⟨q, r⟩) :: past) = P.next (P.state s i past) q r :=
  if_pos rfl

theorem state_of_ne (h : j ≠ i) : P.state s i ((j, ⟨q, r⟩) :: past) = P.state s i past := if_neg h

/-- A reply that leaves its task where it was changes no state. -/
theorem state_of_next (h : j = i → P.next (P.state s i past) q r = P.state s i past) :
    P.state s i ((j, ⟨q, r⟩) :: past) = P.state s i past := by
  by_cases hij : j = i
  · subst hij
    rw [state_self, h rfl]
  · exact state_of_ne hij

end Protocol

namespace System

variable {ι : Type} [DecidableEq ι] {s₀ s : System ι} {past : List (ι × Answered)} {i : ι}
  {P : ι → Protocol S} {post : ι → S → Outcome → Prop} {initial : S}

/-- **Side by side, each task keeps to its protocol.** -/
theorem Reaches.follows (h : Reaches s₀ past s)
    (h₀ : ∀ i, (s₀.tasks i).Follows (P i) (post i) initial) (i : ι) :
    (s.tasks i).Follows (P i) (post i) ((P i).state initial i past) := by
  induction h generalizing i with
  | refl => exact h₀ i
  | @step past s j q k r _ htask _ ih =>
    rw [tasks_goOn]
    by_cases hij : j = i
    · subst hij
      have hj := ih j
      rw [htask] at hj
      rw [Function.update_self, Protocol.state_self]
      exact hj.2 r
    · rw [Function.update_of_ne (Ne.symm hij), Protocol.state_of_ne hij]
      exact ih i

/-- What was asked was allowed. -/
theorem Reaches.allowed {q : Request} {r : q.Reply} (h : Reaches s₀ ((i, ⟨q, r⟩) :: past) s)
    (h₀ : ∀ i, (s₀.tasks i).Follows (P i) (post i) initial) :
    (P i).Allows ((P i).state initial i past) q := by
  obtain ⟨s₁, k, h₁, htask, -⟩ := h.exists_before
  have hi := h₁.follows h₀ i
  rw [htask] at hi
  exact hi.1

/-- What there is of some kind among what a task was answered, the latest first. -/
def collect (i : ι) (f : Answered → Option α) (past : List (ι × Answered)) : List α :=
  past.filterMap fun d => if d.1 = i then f d.2 else none

theorem mem_collect_iff {f : Answered → Option α} {a : α} :
    a ∈ collect i f past ↔ ∃ d ∈ past, d.1 = i ∧ f d.2 = some a := by
  simp [collect]

/-- What a task was answered can be told from the state of its protocol, if each allowed step tells
what it adds. -/
theorem Reaches.collect_eq {f : Answered → Option α} {g : S → List α} (h : Reaches s₀ past s)
    (h₀ : ∀ i, (s₀.tasks i).Follows (P i) (post i) initial) (hg : g initial = [])
    (hnext : ∀ s q r, (P i).Allows s q → g ((P i).next s q r) = (f ⟨q, r⟩).toList ++ g s) :
    collect i f past = g ((P i).state initial i past) := by
  induction past generalizing s with
  | nil => exact hg.symm
  | cons d past ih =>
    obtain ⟨j, q, r⟩ := d
    obtain ⟨_, _, h₁, -⟩ := h.exists_before
    by_cases hij : j = i
    · subst hij
      rw [Protocol.state_self, hnext _ q r (h.allowed h₀), ← ih h₁, collect, List.filterMap_cons]
      simp only [if_pos]
      cases f ⟨q, r⟩ <;> rfl
    · rw [Protocol.state_of_ne hij, ← ih h₁, collect, List.filterMap_cons, if_neg hij]
      rfl

end System

end Runbook.Launcher
