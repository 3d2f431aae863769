import Runbook.Proofs.Requests
import Runbook.Proofs.Watching

/-!
# Strands

A task of a schedule keeps control from one wait to the next, but for the calls that something
outside answers. Strands are programs that run at once in a finer way, and give way at every call:
any of them may do the next deed, and between two deeds time may pass, the consumer and the ticker
may have their turns, and the queue and the draws may change. Only nobody interrupts them.

* `Strands`: what several programs share, and what each of them has still to do.
* `Strands.Reaches env w h w'`: the strands `w` come to `w'`, and `h` is the history of their deeds.
* `Strands.Reaches.leads`: every strand does what its program can do.
* `Strands.Reaches.watched`, `Strands.Reaches.heard`: what is watched is what the history says, and
  so is the request to stop.
-/

namespace Runbook.Schedule

variable {σ α β : Type}

/-- Programs that run at once, by their numbers. -/
structure Strands (σ α : Type) where
  shared : Shared σ
  /-- What each of them has still to do. -/
  rest : Nat → Program α

namespace Strands

/-- Whether the program of a number has come to its end. -/
def hasEnded (w : Strands σ α) (i : Nat) : Bool :=
  match w.rest i with
  | .done _ => true
  | _ => false

theorem exists_done {w : Strands σ α} {i : Nat} (h : w.hasEnded i = true) :
    ∃ a, w.rest i = .done a := by
  unfold hasEnded at h
  split at h
  · exact ⟨_, ‹_›⟩
  · cases h

/-- The program of a number is changed. -/
def put (rest : Nat → Program α) (i : Nat) (p : Program α) : Nat → Program α :=
  fun j => if j = i then p else rest j

/-- One thing that happens, and what the strands do in it. -/
inductive Step (env : Collaborators σ) (w : Strands σ α) : List Happening → Strands σ α → Prop
  /-- A strand makes a call, and anybody may come next. -/
  | call {i : Nat} {c : Call} {k : c.Reply → Program α} (h : w.rest i = .call c k) :
      Step env w [.deed (some i) (.call c (Shared.answer env c w.shared).1)]
        ⟨(Shared.answer env c w.shared).2, put w.rest i (k (Shared.answer env c w.shared).1)⟩
  /-- A wait of a strand is over. -/
  | wait {i : Nat} {v : Wait} {k : Wake → Program α} (h : w.rest i = .wait v k) :
      Step env w [.deed (some i) (.wait v), .deed (some i) (.wake .resumed)]
        ⟨w.shared, put w.rest i (k .resumed)⟩
  | consumer : Step env w [] ⟨(Shared.consumerTurn env w.shared).2, w.rest⟩
  | ticker : Step env w [] ⟨(Shared.tickerTurn env w.shared).2, w.rest⟩
  /-- All may change but the shared variables, the world outside and the request to stop. -/
  | pass {shared : Shared σ} (hglobals : shared.globals = w.shared.globals)
      (houtside : shared.outside = w.shared.outside)
      (hcancellation : shared.cancellation = w.shared.cancellation) :
      Step env w [] ⟨shared, w.rest⟩

/-- Strands come from one state to another, with a history of what they do. -/
inductive Reaches (env : Collaborators σ) :
    Strands σ α → List Happening → Strands σ α → Prop
  | refl (w : Strands σ α) : Reaches env w [] w
  | tail {w w₁ w₂ : Strands σ α} {h h₁ : List Happening} :
      Reaches env w h w₁ → Step env w₁ h₁ w₂ → Reaches env w (h ++ h₁) w₂

variable {env : Collaborators σ} {w w' : Strands σ α} {h h₁ : List Happening}

theorem Reaches.trans {w₁ : Strands σ α} (hs : Reaches env w h w₁)
    (hs₁ : Reaches env w₁ h₁ w') : Reaches env w (h ++ h₁) w' := by
  induction hs₁ with
  | refl => rwa [List.append_nil]
  | tail _ hstep ih =>
    rw [← List.append_assoc]
    exact ih.tail hstep

/-- The next deed of a strand. -/
def goOn (env : Collaborators σ) (i : Nat) (w : Strands σ α) : List Happening × Strands σ α :=
  match w.rest i with
  | .done _ => ([], w)
  | .call c k =>
    let (r, shared) := Shared.answer env c w.shared
    ([.deed (some i) (.call c r)], ⟨shared, put w.rest i (k r)⟩)
  | .wait v k =>
    ([.deed (some i) (.wait v), .deed (some i) (.wake .resumed)],
      ⟨w.shared, put w.rest i (k .resumed)⟩)

/-- Strands go on one deed each, in a given order. -/
def goOnAll (env : Collaborators σ) : List Nat → Strands σ α → List Happening × Strands σ α
  | [], w => ([], w)
  | i :: is, w =>
    let rest := goOnAll env is (goOn env i w).2
    ((goOn env i w).1 ++ rest.1, rest.2)

theorem reaches_goOn (env : Collaborators σ) (i : Nat) (w : Strands σ α) :
    Reaches env w (goOn env i w).1 (goOn env i w).2 := by
  unfold goOn
  split
  · exact .refl w
  · rename_i c k hi
    exact Reaches.tail (.refl w) (.call hi)
  · rename_i v k hi
    exact Reaches.tail (.refl w) (.wait hi)

/-- Strands may go on in any order. -/
theorem reaches_goOnAll (env : Collaborators σ) (is : List Nat) (w : Strands σ α) :
    Reaches env w (goOnAll env is w).1 (goOnAll env is w).2 := by
  induction is generalizing w with
  | nil => exact .refl w
  | cons i is ih => exact (reaches_goOn env i w).trans (ih _)

/-! ### What strands do -/

/-- A strand does what its program can do, and the others do nothing. -/
theorem leads_put {rest : Nat → Program α} {i : Nat} {t : List Deed} {q : Program α}
    (hi : (rest i).Leads t q) (j : Nat) :
    (rest j).Leads (deedsOf (some j) (t.map (.deed (some i)))) (put rest i q j) := by
  rw [deedsOf_map_deed, put]
  by_cases hj : j = i
  · subst hj
    rwa [if_pos rfl, if_pos rfl]
  · rw [if_neg hj, if_neg fun heq => hj (Option.some.inj heq).symm]
    exact .refl _

theorem Step.leads (hs : Step env w h w') (i : Nat) :
    (w.rest i).Leads (deedsOf (some i) h) (w'.rest i) := by
  cases hs with
  | call hj => exact leads_put (t := [_]) (hj ▸ .call (.refl _)) i
  | wait hj => exact leads_put (t := [_, _]) (hj ▸ .wait (.refl _)) i
  | _ => exact .refl _

/-- Every strand does what its program can do. -/
theorem Reaches.leads (hs : Reaches env w h w') (i : Nat) :
    (w.rest i).Leads (deedsOf (some i) h) (w'.rest i) := by
  induction hs with
  | refl => exact .refl _
  | tail _ hstep ih =>
    rw [deedsOf_append]
    exact ih.trans (hstep.leads i)

/-- Nothing happens but deeds of strands, and no strand is interrupted. -/
theorem Step.own (hs : Step env w h w') {x : Happening} (hx : x ∈ h) :
    ∃ i d, x = .deed (some i) d ∧ d ≠ .wake .interrupted := by
  cases hs with
  | call =>
    obtain rfl := List.mem_singleton.mp hx
    exact ⟨_, _, rfl, nofun⟩
  | wait =>
    rcases List.mem_cons.mp hx with rfl | hx
    · exact ⟨_, _, rfl, nofun⟩
    · obtain rfl := List.mem_singleton.mp hx
      exact ⟨_, _, rfl, nofun⟩
  | _ => cases hx

theorem Reaches.own (hs : Reaches env w h w') {x : Happening} (hx : x ∈ h) :
    ∃ i d, x = .deed (some i) d ∧ d ≠ .wake .interrupted := by
  induction hs with
  | refl => cases hx
  | tail _ hstep ih => exact (List.mem_append.mp hx).elim ih hstep.own

/-! ### What the history says -/

theorem Step.watched {W : Watch env β} {b : β} (hs : Step env w h₁ w')
    (hw : Watched W b h w.shared) : Watched W b (h ++ h₁) w'.shared := by
  cases hs with
  | call => exact hw.call _ _
  | wait => exact hw.append (by simp)
  | consumer =>
    rw [List.append_nil]
    exact hw.same (W.see_consumerTurn _)
  | ticker =>
    rw [List.append_nil]
    exact hw.same (W.see_tickerTurn _)
  | pass hglobals houtside =>
    rw [List.append_nil]
    exact hw.same (by rw [Watch.see, Watch.see, hglobals, houtside])

/-- What is watched is what the history says. -/
theorem Reaches.watched (W : Watch env β) (hs : Reaches env w h w') :
    Watched W (W.see w.shared) h w'.shared := by
  induction hs with
  | refl => exact .start W _
  | tail _ hstep ih => exact hstep.watched ih

theorem Step.heard {earlier : Option Cancellation} (hs : Step env w h₁ w')
    (hh : Heard earlier h w.shared.cancellation) :
    Heard earlier (h ++ h₁) w'.shared.cancellation := by
  cases hs with
  | call => exact hh.call env _ _
  | wait => exact hh.append (by simp [Happening.request]) (by simp)
  | consumer =>
    rw [List.append_nil, (Shared.consumerTurn_leaves env w.shared).2]
    exact hh
  | ticker =>
    rw [List.append_nil, (Shared.tickerTurn_leaves env w.shared).2]
    exact hh
  | pass _ _ hcancellation =>
    rw [List.append_nil, hcancellation]
    exact hh

/-- The request to stop is the first one in the history, and every look has found it. -/
theorem Reaches.heard (hs : Reaches env w h w') :
    Heard w.shared.cancellation h w'.shared.cancellation := by
  induction hs with
  | refl => exact .start _
  | tail _ hstep ih => exact hstep.heard ih

end Strands

end Runbook.Schedule
