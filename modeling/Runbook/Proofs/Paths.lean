import Runbook.Proofs.Moves

/-!
# Paths of tasks

Whatever the schedule, a task is where its program leads, given the replies to its calls and the
ends of its waits so far.

* `Task.Reached p t task`: a task of the program `p` that has done `t` stands at `task`.
* `Reaches.main_reached`, `Reaches.main_ends`: the main task does what its program can do.
-/

namespace Runbook.Schedule

variable {σ α : Type}

/-- The deeds of a task in a history. -/
def deedsOf (who : Option Nat) (h : List Happening) : List Deed :=
  h.filterMap fun
    | .deed task d => if task = who then some d else none
    | _ => none

@[simp]
theorem deedsOf_nil (who : Option Nat) : deedsOf who [] = [] := rfl

@[simp]
theorem deedsOf_append (who : Option Nat) (h h' : List Happening) :
    deedsOf who (h ++ h') = deedsOf who h ++ deedsOf who h' :=
  List.filterMap_append

@[simp]
theorem deedsOf_map_deed (who task : Option Nat) (t : List Deed) :
    deedsOf who (t.map (.deed task)) = if task = who then t else [] := by
  rw [deedsOf, List.filterMap_map]
  change t.filterMap (fun d => if task = who then some d else none) = _
  by_cases h : task = who <;> simp [h]

@[simp]
theorem deedsOf_alarm (who : Option Nat) (a : Alarm) : deedsOf who [.alarm a] = [] := rfl

@[simp]
theorem deedsOf_consumerHistory (who : Option Nat) (s : Shared σ) :
    deedsOf who (consumerHistory s) = [] := by
  unfold consumerHistory
  split
  · rfl
  · split <;> rfl

@[simp]
theorem deedsOf_tickerHistory (who : Option Nat) (s : Shared σ) :
    deedsOf who (tickerHistory s) = [] := by
  unfold tickerHistory
  split <;> rfl

theorem exists_append_of_deedsOf {who : Option Nat} {h : List Happening} {t t' : List Deed}
    (ht : deedsOf who h = t ++ t') :
    ∃ a b, h = a ++ b ∧ deedsOf who a = t ∧ deedsOf who b = t' := by
  obtain ⟨a, b, rfl, ha, hb⟩ := List.filterMap_eq_append_iff.mp ht
  exact ⟨a, b, rfl, ha, hb⟩

/-- What a task does at some moment splits the history there. -/
theorem exists_split_of_deedsOf {who : Option Nat} {h : List Happening} {g g' : List Deed}
    {d : Deed} (hsplit : deedsOf who h = g ++ d :: g') :
    ∃ k k', h = k ++ .deed who d :: k' ∧ deedsOf who k = g := by
  obtain ⟨k₁, k₂, rfl, hk₁, hk₂⟩ := List.filterMap_eq_append_iff.mp hsplit
  obtain ⟨m, x, k', rfl, hm, hx, -⟩ := List.filterMap_eq_cons_iff.mp hk₂
  have heq : x = .deed who d := by
    cases x with
    | deed task d' =>
      dsimp only at hx
      split at hx
      · rename_i htask
        cases hx
        rw [htask]
      · cases hx
    | _ => cases hx
  refine ⟨k₁ ++ m, k', by rw [heq, List.append_assoc], ?_⟩
  rw [deedsOf_append, deedsOf, hk₁, deedsOf, List.filterMap_eq_nil_iff.mpr hm, List.append_nil]

namespace Task

/-- Between `t` and `q` a program gives way, before a call that takes time or after it. -/
def GivesWay (t : List Deed) (q : Program α) : Prop :=
  q.TakesTime ∨ ∃ before c r, t = before ++ [.call c r] ∧ c.TakesTime

/-- A task of the program `p` that has done `t` stands where `t` leads. -/
inductive Reached (p : Program α) : List Deed → Task α → Prop
  | fresh : Reached p [] (.fresh p)
  | stillborn : Reached p [] .stillborn
  | waiting {t : List Deed} {w : Wait} {k : Wake → Program α} :
      p.Leads t (.wait w k) → Reached p (t ++ [.wait w]) (.waiting w k)
  | woken {t : List Deed} {w : Wait} {wake : Wake} {k : Wake → Program α} :
      p.Leads t (.wait w k) → Reached p (t ++ [.wait w]) (.woken wake k)
  | paused {t : List Deed} {q : Program α} :
      p.Leads t q → (∀ a, q ≠ .done a) → GivesWay t q → Reached p t (.paused q)
  | ended {t : List Deed} {a : α} : p.Ends t a → Reached p t (.ended a)

theorem exists_ended {β : Type} {t : Task α} {f : α → β} {b : β} (h : t.result?.map f = some b) :
    ∃ a, t = .ended a ∧ f a = b := by
  cases t with
  | ended a => exact ⟨a, rfl, Option.some.inj h⟩
  | _ => cases h

variable {p : Program α} {t : List Deed} {task task' : Task α}

theorem Reached.wake {allowed : Wait → Wake → Prop} (h : task.Reached p t)
    (hw : task.Woken allowed task') : task'.Reached p t := by
  rcases hw with rfl | ⟨w, k, wake, rfl, -, rfl⟩
  · exact h
  · cases h with
    | waiting h => exact .woken h

theorem Reached.interrupt (h : task.Reached p t) : task.interrupted.Reached p t := by
  cases h with
  | fresh => exact .stillborn
  | stillborn => exact .stillborn
  | waiting h => exact .woken h
  | woken h => exact .woken h
  | paused h hq hgives => exact .paused h hq hgives
  | ended h => exact .ended h

theorem Reached.ends {a : α} (h : (Task.ended a).Reached p t) : p.Ends t a := by
  cases h with
  | ended h => exact h

/-- A program that goes on does what it can do. -/
theorem reached_goesOn {env : Collaborators σ} {q : Program α} {s s' : Shared σ} {u : List Deed}
    (hgoes : GoesOn env q s u task s') (h : p.Leads t q) : task.Reached p (t ++ u) := by
  induction hgoes generalizing t with
  | done a s =>
    rw [List.append_nil]
    exact .ended h
  | call _ ih =>
    rw [List.append_cons]
    exact ih (h.trans (.call (.refl _)))
  | resume _ _ ih =>
    rw [List.append_cons, List.append_cons, List.append_assoc t]
    exact ih (h.trans (.wait (.refl _)))
  | wait => exact .waiting h
  | before hc =>
    rw [List.append_nil]
    exact .paused h nofun (.inl hc)
  | after hc hk => exact .paused (h.trans (.call (.refl _))) hk (.inr ⟨_, _, _, rfl, hc⟩)

/-- A program that goes on to its end does what it can do. -/
theorem ends_deeds {env : Collaborators σ} {s : Shared σ} {a : α}
    (h : (advance env p s).1 = .ended a) : p.Ends (Schedule.deeds env p s) a := by
  have hreached := reached_goesOn (goesOn_advance env p s) (.refl p)
  rw [h] at hreached
  exact hreached.ends

/-- A task whose turn it is goes on as its program can. -/
theorem Reached.turn {env : Collaborators σ} {first u : List Deed} {q : Program α}
    {s s' : Shared σ} (h : task.Reached p t) (hturn : task.turn? = some (first, q))
    (hgoes : GoesOn env q s u task' s') : task'.Reached p (t ++ (first ++ u)) := by
  cases h with
  | fresh =>
    cases hturn
    exact reached_goesOn hgoes (.refl p)
  | @woken t w wake k h =>
    cases hturn
    have hnext := reached_goesOn hgoes (h.trans (.wait (.refl (k wake))))
    simpa using hnext
  | paused h =>
    cases hturn
    exact reached_goesOn hgoes h
  | _ => cases hturn

end Task

namespace State

variable {env : Collaborators σ} {program : Nat → Program (Option Failure)}

/-- A move keeps the main task on the paths of its program. -/
theorem Move.main_reached {p : Program α} {s s' : State σ α} {t : List Deed} {j : Job}
    {h : List Happening} (hm : Move env program s j h s') (hp : s.main.Reached p t) :
    s'.main.Reached p (t ++ deedsOf none h) := by
  cases hm with
  | main hturn hgoes hloops htask hsh => simpa using (hp.turn hturn hgoes).wake htask
  | start hturn hgoes hsh => simpa using hp.turn hturn hgoes
  | stored hmain =>
    rw [hmain] at hp
    cases hp with
    | waiting hp => simpa using Task.Reached.woken hp
  | note hjoined hmain hsh => simpa using hp.wake hmain
  | consumer hactive hmain hsh => simpa using hp.wake hmain
  | ticker hactive hmain hsh => simpa using hp.wake hmain
  | wakeMain hmain hsh => simpa using hp.wake hmain
  | interrupt hmain hsh => simpa using hp.interrupt
  | _ => simpa using hp

theorem Reaches.main_reached {p : Program α} {s s' : State σ α} {h : List Happening}
    (hs : Reaches env program s h s') (hd : s.Distinct) (hp : s.main = .fresh p) :
    s'.main.Reached p (deedsOf none h) := by
  refine hs.induction (P := fun h s => s.main.Reached p (deedsOf none h)) hd ?_ ?_ ?_
  · rw [hp]
    exact .fresh
  · intro h s _ _ _ _ hreached
    exact hreached
  · intro h s j h₁ s₁ hreached hm
    rw [deedsOf_append]
    exact hm.main_reached hreached

/-- A main task that has ended has gone through its program. -/
theorem Reaches.main_ends {p : Program α} {a : α} {s s' : State σ α} {h : List Happening}
    (hs : Reaches env program s h s') (hd : s.Distinct) (hp : s.main = .fresh p)
    (ha : s'.main = .ended a) : p.Ends (deedsOf none h) a := by
  have hreached := hs.main_reached hd hp
  rw [ha] at hreached
  exact hreached.ends

end State

end Runbook.Schedule
