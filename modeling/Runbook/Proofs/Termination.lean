import Runbook.Proofs.Resolution
import Runbook.Proofs.Winding

/-!
# Termination

An action that holds others is executed by a recursion that nothing counts, and a loop goes on until
a bound is reached. Yet every execution comes to an end. The configuration of a nested action weighs
less than that of its holder, whatever becomes of the texts in between; and a clock that advances by
the pauses of a loop brings it to one of its bounds, of which each loop has one.

Programs are finite trees. So the recursion is shown to have a solution among them, and only one,
which is the dispatch. Executions of a loop are described by cycles instead, without a bound on
their number and with the time that has really passed.

* `Program.not_endless`: no execution of a program goes on for ever.
* `Action.eq_dispatch_iff`: the recursion of the dispatch, without levels, has one solution.
* `LoopUntil.Cycles`: a loop that goes round until something ends it.
* `LoopUntil.Goes.le_iterations`: it goes round no more often than its bounds allow.
* `Stacked`: actions under way that stand one inside another in the definition.
* `Whole.dispatch_terminates`: the executions of actions come to an end.
-/

namespace Runbook

open Program Schedule Rehearsal

/-! ### Programs come to an end -/

namespace Program

variable {α : Type} {f : Nat → Deed}

/-- A program goes on and on: it can do arbitrarily long beginnings of an endless list of deeds. -/
def Endless (p : Program α) (f : Nat → Deed) : Prop :=
  ∀ n, ∃ m q, n ≤ m ∧ p.Leads ((List.range m).map f) q

theorem map_range_succ (f : Nat → Deed) (n : Nat) :
    (List.range (n + 1)).map f = f 0 :: (List.range n).map fun i => f (i + 1) := by
  rw [List.range_succ_eq_map, List.map_cons, List.map_map]
  rfl

/-- A program that begins with a call goes on and on after some reply. -/
theorem Endless.after_call {c : Call} {k : c.Reply → Program α} (h : (call c k).Endless f) :
    ∃ r, (k r).Endless fun i => f (i + 1) := by
  have hfirst (n : Nat) : ∃ m r q, n ≤ m ∧ f 0 = .call c r ∧
      (k r).Leads ((List.range m).map fun i => f (i + 1)) q := by
    obtain ⟨m, q, hm, hleads⟩ := h (n + 1)
    obtain ⟨m, rfl⟩ := Nat.exists_eq_add_of_le' (Nat.le_trans (Nat.le_add_left 1 n) hm)
    rw [map_range_succ] at hleads
    generalize f 0 = d at hleads
    cases hleads with
    | call hleads => exact ⟨m, _, _, Nat.le_of_succ_le_succ hm, rfl, hleads⟩
  obtain ⟨-, r, -, -, hr, -⟩ := hfirst 0
  refine ⟨r, fun n => ?_⟩
  obtain ⟨m, r', q, hm, hr', hleads⟩ := hfirst n
  cases hr.symm.trans hr'
  exact ⟨m, q, hm, hleads⟩

/-- A program that begins with a wait goes on and on after some end of it. -/
theorem Endless.after_wait {w : Wait} {k : Wake → Program α} (h : (wait w k).Endless f) :
    ∃ wake, (k wake).Endless fun i => f (i + 2) := by
  have hfirst (n : Nat) : ∃ m wake q, n ≤ m ∧ f 1 = .wake wake ∧
      (k wake).Leads ((List.range m).map fun i => f (i + 2)) q := by
    obtain ⟨m, q, hm, hleads⟩ := h (n + 2)
    obtain ⟨m, rfl⟩ := Nat.exists_eq_add_of_le' (Nat.le_trans (Nat.le_add_left 2 n) hm)
    rw [map_range_succ, map_range_succ] at hleads
    generalize f 0 = d, f (0 + 1) = d' at hleads
    cases hleads with
    | wait hleads => exact ⟨m, _, _, Nat.le_of_add_le_add_right hm, rfl, hleads⟩
  obtain ⟨-, wake, -, -, hwake, -⟩ := hfirst 0
  refine ⟨wake, fun n => ?_⟩
  obtain ⟨m, wake', q, hm, hwake', hleads⟩ := hfirst n
  cases hwake.symm.trans hwake'
  exact ⟨m, q, hm, hleads⟩

/-- Whatever a program is told, it comes to an end. -/
theorem not_endless (p : Program α) (f : Nat → Deed) : ¬ p.Endless f := by
  induction p generalizing f with
  | done a =>
    intro h
    obtain ⟨m, q, hm, hleads⟩ := h 1
    obtain ⟨m, rfl⟩ := Nat.exists_eq_add_of_le' hm
    rw [map_range_succ] at hleads
    cases hleads
  | call c k ih =>
    intro h
    obtain ⟨r, h⟩ := h.after_call
    exact ih r _ h
  | wait w k ih =>
    intro h
    obtain ⟨wake, h⟩ := h.after_wait
    exact ih wake _ h

end Program

/-! ### The recursion of the dispatch -/

namespace Action

/-- Only the dispatch dispatches what an action holds as it dispatches itself. -/
theorem eq_dispatch_iff {ctx : LoopContext} {D : Dispatcher} :
    (∀ frame config, D frame config = dispatchWith Catalogue.registry ctx D frame config) ↔
      D = dispatch Catalogue.registry ctx := by
  constructor
  · intro h
    have hall (n : Nat) : ∀ frame config, Json.weightFields config < n →
        D frame config = dispatch Catalogue.registry ctx frame config := by
      induction n with
      | zero => exact fun _ _ hlt => absurd hlt (Nat.not_lt_zero _)
      | succ n ih =>
        intro frame config hlt
        rw [h, dispatch_eq]
        refine bind_congr fun _ => Act.ofExcept_bind_congr fun kind hget =>
          Act.resolving_bind_congr fun s globals now resolved hgives => ?_
        exact execute_congr hget (Template.rewritten_of_gives hgives) fun frame c hc =>
          ih frame c (by omega)
    funext frame config
    exact hall _ frame config (Nat.lt_succ_self _)
  · rintro rfl frame config
    exact dispatch_eq

end Action

/-! ### Loops that go round -/

namespace LoopUntil

/-- The beginning of a cycle: a look at the request to stop, and at the loop's element. -/
def opens (ctx : LoopContext) (frame : Frame) (loop : Loop) (n : Nat) : Work Bool := do
  Work.lift (Act.checkpoint "loop cancelled")
  Work.lift (setLocalIndex (n + 1))
  conditionMet ctx frame loop

/-- The rest of a cycle after which the loop goes on: its actions, and the pause. -/
def rest (nested : Dispatcher) (frame : Frame) (loop : Loop) (n : Nat) : Work Unit := do
  Work.lift (Action.runNested nested frame loop.actions s!"{frame.actionId}-loop-{n + 1}"
    (some "loop cancelled during action execution"))
  Work.report fun fields => Fields.set fields "iterations" (.nat (n + 1))
  Work.lift (Act.await (.sleep pause))

section Cycles

variable (ctx : LoopContext) (nested : Dispatcher) (frame : Frame) (loop : Loop) (started : Rat)

/-- A cycle after `n` others in which the loop ends: it is asked to stop, its element is in its
state, a bound is reached by the time that has passed, or its actions fail. -/
inductive Ceases (n : Nat) (f : Fields) (v : LoopState) :
    List Deed → Except Failure String → Fields → LoopState → Prop
  | failed {t : List Deed} {e : Failure} {f' : Fields} {v' : LoopState}
      (hopens : (opens ctx frame loop n).Ends f v t (.error e) f' v') :
      Ceases n f v t (.error e) f' v'
  | met {t t' : List Deed} {r : Except Failure String} {f₁ f' : Fields} {v₁ v' : LoopState}
      (hopens : (opens ctx frame loop n).Ends f v t (.ok true) f₁ v₁)
      (hexit : (exit n "condition met").Ends f₁ v₁ t' r f' v') : Ceases n f v (t ++ t') r f' v'
  | stopped {t t' : List Deed} {now : Rat} {r : Except Failure String} {f₁ f' : Fields}
      {v₁ v' : LoopState} (hopens : (opens ctx frame loop n).Ends f v t (.ok false) f₁ v₁)
      (hreached : loop.bounds.reached n (now - started) ≠ [])
      (hstop : (forceStop frame loop n (loop.bounds.reached n (now - started))).Ends f₁ v₁ t' r
        f' v') : Ceases n f v (t ++ .call .now now :: t') r f' v'
  | broken {t t' : List Deed} {now : Rat} {e : Failure} {f₁ f' : Fields} {v₁ v' : LoopState}
      (hopens : (opens ctx frame loop n).Ends f v t (.ok false) f₁ v₁)
      (hreached : loop.bounds.reached n (now - started) = [])
      (hrest : (rest nested frame loop n).Ends f₁ v₁ t' (.error e) f' v') :
      Ceases n f v (t ++ .call .now now :: t') (.error e) f' v'

/-- A cycle after `n` others after which the loop goes on. -/
inductive Continues (n : Nat) (f : Fields) (v : LoopState) :
    List Deed → Fields → LoopState → Prop
  | intro {t t' : List Deed} {now : Rat} {f₁ f' : Fields} {v₁ v' : LoopState}
      (hopens : (opens ctx frame loop n).Ends f v t (.ok false) f₁ v₁)
      (hreached : loop.bounds.reached n (now - started) = [])
      (hrest : (rest nested frame loop n).Ends f₁ v₁ t' (.ok ()) f' v') :
      Continues n f v (t ++ .call .now now :: t') f' v'

/-- A loop goes round, after `n` cycles, until one of them ends it. -/
inductive Cycles : Nat → Fields → LoopState → List Deed → Except Failure String → Fields →
    LoopState → Prop
  | ceases {n : Nat} {f f' : Fields} {v v' : LoopState} {t : List Deed}
      {r : Except Failure String} (h : Ceases ctx nested frame loop started n f v t r f' v') :
      Cycles n f v t r f' v'
  | again {n : Nat} {f f₁ f' : Fields} {v v₁ v' : LoopState} {t t' : List Deed}
      {r : Except Failure String} (h : Continues ctx nested frame loop started n f v t f₁ v₁)
      (hrest : Cycles (n + 1) f₁ v₁ t' r f' v') : Cycles n f v (t ++ t') r f' v'

/-- A loop has gone round `n` times and goes on. -/
inductive Goes (f : Fields) (v : LoopState) : Nat → List Deed → Fields → LoopState → Prop
  | start : Goes f v 0 [] f v
  | again {n : Nat} {f₁ f' : Fields} {v₁ v' : LoopState} {t t' : List Deed}
      (h : Goes f v n t f₁ v₁) (hnext : Continues ctx nested frame loop started n f₁ v₁ t' f' v') :
      Goes f v (n + 1) (t ++ t') f' v'

end Cycles

/-- Among some deeds there are so many pauses of loops. -/
inductive Paused : Nat → List Deed → Prop
  | none (t : List Deed) : Paused 0 t
  | more {n : Nat} {t : List Deed} (h : Paused n t) (t' : List Deed) :
      Paused (n + 1) (t ++ .wait (.sleep pause) :: .wake .resumed :: t')

theorem Paused.append {n : Nat} {t : List Deed} (h : Paused n t) (t' : List Deed) :
    Paused n (t ++ t') := by
  cases h with
  | none => exact .none _
  | @more n t h u =>
    have hmore := Paused.more h (u ++ t')
    simpa using hmore

/-- Since a moment, the clock has advanced by at least the pauses of loops whenever somebody looks
at it. -/
def Timely (started : Rat) (t : List Deed) : Prop :=
  ∀ before now after n, t = before ++ .call .now now :: after → Paused n before →
    ((n * pause : Nat) : Rat) ≤ now - started

/-! ### Bounds that are reached -/

namespace Bounds

/-- A bound is set. -/
def IsSet (b : Bounds) : Prop := b.maxLoops ≠ none ∨ b.timeoutMs ≠ none

theorem le_of_pauses_le {ms n : Nat} (h : pauses ms ≤ n) : ms ≤ n * pause := by
  rw [pauses, pause] at h
  rw [pause]
  omega

/-- After as many iterations as there can be, a bound is reached. -/
theorem reached_ne_nil {b : Bounds} (hb : b.IsSet) {n : Nat} {elapsed : Rat}
    (hn : b.iterations ≤ n) (helapsed : ((n * pause : Nat) : Rat) ≤ elapsed) :
    b.reached n elapsed ≠ [] := by
  have htime {ms : Nat} (h : pauses ms ≤ n) : (ms : Rat) ≤ elapsed :=
    Rat.le_trans (Rat.natCast_le_natCast.mpr (le_of_pauses_le h)) helapsed
  obtain ⟨_ | most, _ | ms⟩ := b
  · exact absurd hb (by simp [IsSet])
  · simp [reached, htime hn]
  · have hmost : most ≤ n := hn
    simp [reached, hmost]
  · have hmin : min most (pauses ms) ≤ n := hn
    have hor : most ≤ n ∨ pauses ms ≤ n := by omega
    rcases hor with hmost | hpauses
    · simp [reached, hmost]
    · simp [reached, htime hpauses]

end Bounds

/-- Settings that are accepted set a bound. -/
theorem isSet_of_validate {config : Json} {params : Fields}
    (h : kind.validate config = .ok params) : (Bounds.ofParams params).IsSet := by
  obtain ⟨y, -, rfl, hrefuse⟩ := (ActionKind.validate_eq_ok_iff rfl).mp h
  change refuse y.fields = none at hrefuse
  unfold refuse at hrefuse
  split at hrefuse
  · cases hrefuse
  · rename_i hunset
    rw [Bool.and_eq_true, Decidable.not_and_iff_or_not] at hunset
    simpa [Bounds.IsSet, Bounds.ofParams] using hunset

/-! ### Loops are what they are described as -/

/-- The time that has passed as a loop takes it after `n` cycles: no less than its pauses. -/
def passed (started : Rat) (n : Nat) (now : Rat) : Rat :=
  if now - started ≤ ((n * pause : Nat) : Rat) then ((n * pause : Nat) : Rat) else now - started

theorem passed_of_le {started now : Rat} {n : Nat}
    (h : ((n * pause : Nat) : Rat) ≤ now - started) : passed started n now = now - started := by
  rw [passed]
  split
  · exact Rat.le_antisymm h ‹_›
  · rfl

section Iterate

variable {ctx : LoopContext} {nested : Dispatcher} {frame : Frame} {loop : Loop} {started : Rat}
  {n m : Nat} {f f' : Fields} {v v' : LoopState} {t before : List Deed} {r : Except Failure String}

/-- A cycle fails at its beginning, or the loop's element is in its state, or it goes on with a look
at the clock. -/
theorem ends_begin_iff {goOn : List String → Work String} :
    (begin ctx frame loop started n goOn).Ends f v t r f' v' ↔
      (∃ e, (opens ctx frame loop n).Ends f v t (.error e) f' v' ∧ r = .error e) ∨
      (∃ t₁ t₂ f₁ v₁, t = t₁ ++ t₂ ∧ (opens ctx frame loop n).Ends f v t₁ (.ok true) f₁ v₁ ∧
        (exit n "condition met").Ends f₁ v₁ t₂ r f' v') ∨
      ∃ t₁ now t₂ f₁ v₁, t = t₁ ++ .call .now now :: t₂ ∧
        (opens ctx frame loop n).Ends f v t₁ (.ok false) f₁ v₁ ∧
        (goOn (loop.bounds.reached n (passed started n now))).Ends f₁ v₁ t₂ r f' v' := by
  have heq : begin ctx frame loop started n goOn = opens ctx frame loop n >>= fun met =>
      if met then exit n "condition met"
      else Work.lift (Act.ask .now) >>= fun now =>
        goOn (loop.bounds.reached n (passed started n now)) := by
    rw [begin, opens]
    simp only [bind_assoc]
    rfl
  rw [heq, Work.ends_bind_iff]
  constructor
  · rintro (⟨t₁, met, f₁, v₁, t₂, rfl, h₁, h₂⟩ | ⟨e, h₁, rfl⟩)
    · cases met with
      | true => exact .inr (.inl ⟨t₁, t₂, f₁, v₁, rfl, h₁, h₂⟩)
      | false =>
        rcases Work.ends_bind_iff.mp h₂ with ⟨t₃, now, f₂, v₂, t₄, rfl, h₃, h₄⟩ | ⟨e, h₃, -⟩
        · obtain ⟨hnow, rfl⟩ := Work.ends_lift_iff.mp h₃
          obtain ⟨_, rfl, hok, rfl⟩ := Act.ends_ask_iff.mp hnow
          cases hok
          exact .inr (.inr ⟨t₁, now, t₄, f₂, v₂, rfl, h₁, h₄⟩)
        · obtain ⟨hnow, -⟩ := Work.ends_lift_iff.mp h₃
          obtain ⟨_, -, hok, -⟩ := Act.ends_ask_iff.mp hnow
          cases hok
    · exact .inl ⟨e, h₁, rfl⟩
  · rintro (⟨e, h₁, rfl⟩ | ⟨t₁, t₂, f₁, v₁, rfl, h₁, h₂⟩ | ⟨t₁, now, t₂, f₁, v₁, rfl, h₁, h₂⟩)
    · exact .inr ⟨e, h₁, rfl⟩
    · exact .inl ⟨t₁, true, f₁, v₁, t₂, rfl, h₁, h₂⟩
    · refine .inl ⟨t₁, false, f₁, v₁, _, rfl, h₁, ?_⟩
      refine Work.ends_bind_iff.mpr (.inl ⟨[.call .now now], now, f₁, v₁, t₂, rfl, ?_, h₂⟩)
      exact Work.ends_lift_iff.mpr ⟨Act.ends_ask_iff.mpr ⟨now, rfl, rfl, rfl⟩, rfl⟩

/-- A cycle ends with its pause. -/
theorem Continues.paused (h : Continues ctx nested frame loop started n f v t f' v')
    (hbefore : Paused m before) : Paused (m + 1) (before ++ t) := by
  obtain ⟨-, -, hrest⟩ := h
  rename_i t t' now f₁ v₁
  obtain ⟨u, rfl⟩ : ∃ u, t' = u ++ [.wait (.sleep pause), .wake .resumed] := by
    rw [rest] at hrest
    rcases Work.ends_bind_iff.mp hrest with ⟨t₁, _, _, _, t₂, rfl, -, h₂⟩ | ⟨e, -, he⟩
    · rcases Work.ends_bind_iff.mp h₂ with ⟨t₃, _, _, _, t₄, rfl, -, h₄⟩ | ⟨e, -, he⟩
      · obtain ⟨hawait, -⟩ := Work.ends_lift_iff.mp h₄
        rcases (Act.ends_await_iff.mp hawait).2 with ⟨rfl, -⟩ | ⟨-, he⟩
        · exact ⟨t₁ ++ t₃, by simp⟩
        · cases he
      · cases he
    · cases he
  have hmore := ((hbefore.append t).append (.call .now now :: u)).more []
  simpa using hmore

/-- At a moment when the clock is on time, nobody can tell how the loop takes the time. -/
theorem Timely.passed_eq {t₁ t₂ : List Deed} {now : Rat}
    (h : Timely started (before ++ (t₁ ++ .call .now now :: t₂))) (hbefore : Paused n before) :
    ((n * pause : Nat) : Rat) ≤ now - started ∧ passed started n now = now - started := by
  have hle := h (before ++ t₁) now t₂ n (by simp) (hbefore.append t₁)
  exact ⟨hle, passed_of_le hle⟩

theorem iterate_succ : iterate ctx nested frame loop started (m + 1) n =
    begin ctx frame loop started n fun reasons =>
      if reasons = [] then rest nested frame loop n >>= fun _ =>
        iterate ctx nested frame loop started m (n + 1)
      else forceStop frame loop n reasons := by
  rw [iterate]
  refine congrArg _ (funext fun reasons => ?_)
  cases reasons with
  | nil =>
    rw [rest]
    simp only [bind_assoc]
    rfl
  | cons => rfl

/-- When the clock is on time, a loop does what it does by going round. -/
theorem ends_iterate_iff (hbounds : loop.bounds.IsSet) (hm : m + n = loop.bounds.iterations)
    (hbefore : Paused n before) (htimely : Timely started (before ++ t)) :
    (iterate ctx nested frame loop started m n).Ends f v t r f' v' ↔
      Cycles ctx nested frame loop started n f v t r f' v' := by
  induction m generalizing n f v t before with
  | zero =>
    have hstops {now : Rat} (hle : ((n * pause : Nat) : Rat) ≤ now - started) :
        loop.bounds.reached n (now - started) ≠ [] :=
      Bounds.reached_ne_nil hbounds (by omega) hle
    rw [iterate, ends_begin_iff]
    constructor
    · rintro (⟨e, h₁, rfl⟩ | ⟨t₁, t₂, f₁, v₁, rfl, h₁, h₂⟩ | ⟨t₁, now, t₂, f₁, v₁, rfl, h₁, h₂⟩)
      · exact .ceases (.failed h₁)
      · exact .ceases (.met h₁ h₂)
      · obtain ⟨hle, heq⟩ := htimely.passed_eq hbefore
        rw [heq] at h₂
        exact .ceases (.stopped h₁ (hstops hle) h₂)
    · intro h
      cases h with
      | ceases h =>
        cases h with
        | failed h₁ => exact .inl ⟨_, h₁, rfl⟩
        | met h₁ h₂ => exact .inr (.inl ⟨_, _, _, _, rfl, h₁, h₂⟩)
        | stopped h₁ _ h₂ =>
          obtain ⟨-, heq⟩ := htimely.passed_eq hbefore
          exact .inr (.inr ⟨_, _, _, _, _, rfl, h₁, heq.symm ▸ h₂⟩)
        | broken _ hreached => exact absurd hreached (hstops (htimely.passed_eq hbefore).1)
      | again h =>
        obtain ⟨-, hreached, -⟩ := h
        rw [List.append_assoc] at htimely
        exact absurd hreached (hstops (htimely.passed_eq hbefore).1)
  | succ m ih =>
    rw [iterate_succ, ends_begin_iff]
    constructor
    · rintro (⟨e, h₁, rfl⟩ | ⟨t₁, t₂, f₁, v₁, rfl, h₁, h₂⟩ | ⟨t₁, now, t₂, f₁, v₁, rfl, h₁, h₂⟩)
      · exact .ceases (.failed h₁)
      · exact .ceases (.met h₁ h₂)
      · rw [(htimely.passed_eq hbefore).2] at h₂
        split at h₂
        · rename_i hreached
          rcases Work.ends_bind_iff.mp h₂ with ⟨t₃, _, f₂, v₂, t₄, rfl, h₃, h₄⟩ | ⟨e, h₃, rfl⟩
          · have hcontinues : Continues ctx nested frame loop started n f v
                (t₁ ++ .call .now now :: t₃) f₂ v₂ := .intro h₁ hreached h₃
            have hsplit : t₁ ++ .call .now now :: (t₃ ++ t₄) =
                (t₁ ++ .call .now now :: t₃) ++ t₄ := by simp
            rw [hsplit, ← List.append_assoc] at htimely
            rw [hsplit]
            exact .again hcontinues
              ((ih (by omega) (hcontinues.paused hbefore) htimely).mp h₄)
          · exact .ceases (.broken h₁ hreached h₃)
        · exact .ceases (.stopped h₁ ‹_› h₂)
    · intro h
      cases h with
      | ceases h =>
        cases h with
        | failed h₁ => exact .inl ⟨_, h₁, rfl⟩
        | met h₁ h₂ => exact .inr (.inl ⟨_, _, _, _, rfl, h₁, h₂⟩)
        | stopped h₁ hreached h₂ =>
          obtain ⟨-, heq⟩ := htimely.passed_eq hbefore
          refine .inr (.inr ⟨_, _, _, _, _, rfl, h₁, ?_⟩)
          rwa [heq, if_neg hreached]
        | broken h₁ hreached h₂ =>
          obtain ⟨-, heq⟩ := htimely.passed_eq hbefore
          refine .inr (.inr ⟨_, _, _, _, _, rfl, h₁, ?_⟩)
          rw [heq, if_pos hreached]
          exact Work.ends_bind_iff.mpr (.inr ⟨_, h₂, rfl⟩)
      | @again _ _ f₁ _ _ v₁ _ t₁ t₂ _ h hrest =>
        have hpaused := h.paused hbefore
        have hnext := (ih (by omega) hpaused (by rwa [List.append_assoc])).mpr hrest
        obtain ⟨h₁, hreached, h₂⟩ := h
        rw [List.append_assoc] at htimely
        obtain ⟨-, heq⟩ := htimely.passed_eq hbefore
        refine .inr (.inr ⟨_, _, _, _, _, by rw [List.append_assoc]; rfl, h₁, ?_⟩)
        rw [heq, if_pos hreached]
        exact Work.ends_bind_iff.mpr (.inl ⟨_, _, _, _, _, rfl, h₂, hnext⟩)

/-- A loop goes round no more often than its bounds allow. -/
theorem Goes.le_iterations (hbounds : loop.bounds.IsSet)
    (h : Goes ctx nested frame loop started f v n t f' v') (htimely : Timely started t) :
    n ≤ loop.bounds.iterations := by
  have hpaused {n : Nat} {t : List Deed} {f' : Fields} {v' : LoopState}
      (h : Goes ctx nested frame loop started f v n t f' v') : Paused n t := by
    induction h with
    | start => exact .none []
    | again _ hnext ih => exact hnext.paused ih
  cases h with
  | start => exact Nat.zero_le _
  | again h hnext =>
    obtain ⟨-, hreached, -⟩ := hnext
    obtain ⟨hle, -⟩ := htimely.passed_eq (hpaused h)
    refine Nat.lt_of_not_le fun hle' => ?_
    exact Bounds.reached_ne_nil hbounds hle' hle hreached

end Iterate

/-- Afterwards the local loop index is what it was before. -/
theorem ends_restoringLocalIndex_iff {α : Type} {m : Work α} {f f' : Fields} {v v' : LoopState}
    {t : List Deed} {r : Except Failure α} : (restoringLocalIndex m).Ends f v t r f' v' ↔
      ∃ v₁, m.Ends f v t r f' v₁ ∧ v' = { v₁ with localLoopIndex := v.localLoopIndex } := by
  change ((m.run.run f).run v >>= fun x =>
    pure ((x.1.1, x.1.2), { x.2 with localLoopIndex := v.localLoopIndex })).Ends t
      ((r, f'), v') ↔ _
  rw [Program.ends_bind_iff]
  constructor
  · rintro ⟨t₁, ⟨⟨r₁, f₁⟩, v₁⟩, t₂, rfl, h₁, h₂⟩
    obtain ⟨rfl, heq⟩ := Program.ends_pure_iff.mp h₂
    simp only [Prod.mk.injEq] at heq
    obtain ⟨⟨rfl, rfl⟩, rfl⟩ := heq
    exact ⟨v₁, by rwa [List.append_nil], rfl⟩
  · rintro ⟨v₁, h, rfl⟩
    exact ⟨t, ((r, f'), v₁), [], (List.append_nil t).symm, h, Program.ends_pure_iff.mpr ⟨rfl, rfl⟩⟩

/-- When the clock is on time, what the looping action does is to look at the clock and then to go
round; afterwards the local loop index is what it was before. -/
theorem ends_behave_iff {ctx : LoopContext} {nested : Dispatcher} {frame : Frame}
    {config : Json} {params f f' : Fields} {v v' : LoopState} {started : Rat} {t : List Deed}
    {r : Except Failure String} (hvalid : kind.validate config = .ok params)
    (htimely : Timely started t) :
    (kind.behave ctx nested frame params).Ends f v (.call .now started :: t) r f' v' ↔
      ∃ v₁, Cycles ctx nested frame (Loop.ofParams params) started 0 f v t r f' v₁ ∧
        v' = { v₁ with localLoopIndex := v.localLoopIndex } := by
  have hbounds : (Loop.ofParams params).bounds.IsSet := isSet_of_validate hvalid
  have hlooks : (kind.behave ctx nested frame params).Ends f v (.call .now started :: t) r f' v' ↔
      (restoringLocalIndex (iterate ctx nested frame (Loop.ofParams params) started
        (Loop.ofParams params).bounds.iterations 0)).Ends f v t r f' v' := by
    change (Work.lift (Act.ask .now) >>= fun started =>
      restoringLocalIndex (iterate ctx nested frame (Loop.ofParams params) started
        (Loop.ofParams params).bounds.iterations 0)).Ends _ _ _ _ _ _ ↔ _
    rw [Work.ends_bind_iff]
    constructor
    · rintro (⟨t₁, now, f₁, v₁, t₂, heq, h₁, h₂⟩ | ⟨e, h₁, -⟩)
      · obtain ⟨hnow, rfl⟩ := Work.ends_lift_iff.mp h₁
        obtain ⟨_, rfl, hok, rfl⟩ := Act.ends_ask_iff.mp hnow
        cases hok
        cases heq
        exact h₂
      · obtain ⟨_, -, hok, -⟩ := Act.ends_ask_iff.mp (Work.ends_lift_iff.mp h₁).1
        cases hok
    · intro h
      refine .inl ⟨[.call .now started], started, f, v, t, rfl, ?_, h⟩
      exact Work.ends_lift_iff.mpr ⟨Act.ends_ask_iff.mpr ⟨started, rfl, rfl, rfl⟩, rfl⟩
  rw [hlooks, ends_restoringLocalIndex_iff]
  refine exists_congr fun v₁ => and_congr_left fun _ => ?_
  exact ends_iterate_iff hbounds (Nat.add_zero _) (.none []) htimely

end LoopUntil

/-! ### Actions that hold each other -/

/-- Actions under way, the innermost first: each of them is held by the next one as it is written,
and the last one is an action of a step. -/
inductive Stacked (automation : Automation) : List Running → Prop
  | none : Stacked automation []
  | action {step : Step} {action : ActionItem} (hstep : step ∈ automation.orderedSteps)
      (haction : action ∈ step.orderedActions) :
      Stacked automation [⟨Loop.frameOf step action, action.config⟩]
  | iteration {S : List Running} {run : Running} {a : NestedAction}
      (h : Stacked automation (run :: S)) (htype : run.frame.actionType = "playwright:loop_until")
      (ha : LoopUntil.Holds run.frame run.config a) : Stacked automation (run.nested a :: run :: S)
  | branch {S : List Running} {run : Running} {a : NestedAction}
      (h : Stacked automation (run :: S)) (htype : run.frame.actionType = "playwright:if_else")
      (ha : IfElse.Lists run.frame run.config a) : Stacked automation (run.nested a :: run :: S)

namespace Stacked

variable {automation : Automation} {free : Bool} {S S' : List Running} {run : Running}
  {t : List Deed}

theorem tail (h : Stacked automation (run :: S)) : Stacked automation S := by
  cases h with
  | action => exact .none
  | iteration h => exact h
  | branch h => exact h

theorem cons (h : Stacked automation S) (hadmits : Admits automation free S run) :
    Stacked automation (run :: S) := by
  cases hadmits with
  | action _ hstep haction => exact .action hstep haction
  | iteration _ htype ha => exact .iteration h htype ha
  | branch htype ha => exact .branch h htype ha

/-- The actions under way and what the innermost one is dispatched with weigh no more than what the
outermost one is dispatched with. -/
theorem length_add_weight_le (h : Stacked automation (run :: S)) :
    ∃ step ∈ automation.orderedSteps, ∃ action ∈ step.orderedActions,
      S.length + Json.weightFields run.config ≤ Json.weightFields action.config := by
  generalize hall : run :: S = all at h
  induction h generalizing run S with
  | none => cases hall
  | @action step action hstep haction =>
    cases hall
    exact ⟨step, hstep, action, haction, by simp⟩
  | @iteration S' holder a h _ ha ih =>
    cases hall
    obtain ⟨step, hstep, action, haction, hle⟩ := ih rfl
    have hlt := ha.weightFields_lt
    refine ⟨step, hstep, action, haction, ?_⟩
    change S'.length + 1 + Json.weightFields a.config ≤ _
    omega
  | @branch S' holder a h _ ha ih =>
    cases hall
    obtain ⟨step, hstep, action, haction, hle⟩ := ih rfl
    have hlt := ha.weightFields_lt
    refine ⟨step, hstep, action, haction, ?_⟩
    change S'.length + 1 + Json.weightFields a.config ≤ _
    omega

end Stacked

/-- Actions under way that hold each other still do so when the task goes on, and so does what it
dispatches. -/
theorem Passage.stacked {automation : Automation} {look : Bool → Deed → Bool} {free : Bool}
    {S S' : List Running} {t : List Deed} (h : Passage automation look free S t S')
    (hS : Stacked automation S) : Stacked automation S' := by
  induction h with
  | nil => exact hS
  | cons hd _ ih =>
    refine ih ?_
    cases hd with
    | quiet => exact hS
    | step => exact hS
    | refuse => exact hS
    | begin hadmits => exact hS.cons hadmits
    | finish => exact hS.tail
    | interrupt => exact .none

/-- What is dispatched is held by what is under way. -/
theorem Passage.stacked_of_dispatched {automation : Automation} {look : Bool → Deed → Bool}
    {free : Bool} {S S' : List Running} {i : Int} {frame : Frame} {config : Fields}
    {after : List Deed}
    (h : Passage automation look free S (.call (.dispatched i frame config) () :: after) S')
    (hS : Stacked automation S) : Stacked automation (⟨frame, config⟩ :: S) := by
  cases h with
  | cons hd =>
    cases hd with
    | quiet hd => exact hd.elim
    | begin hadmits => exact hS.cons hadmits
    | refuse hadmits => exact hS.cons hadmits

namespace Whole

/-- **Termination.** Whatever it is told, the execution of an action comes to an end. It is what the
recursion of the dispatch says without levels, and nothing else is. When the clock advances by the
pauses of loops, the looping action does what goes round without a bound on the number of cycles,
and it goes round no more often than the bounds of its configuration, as it has been resolved,
allow. In every schedule, the actions under way when another one is dispatched hold each other as
they stand in the definition, and are no more than what the first of them is dispatched with
weighs. -/
theorem dispatch_terminates {σ : Type} (env : Collaborators σ) (runner : Runner)
    (automation : Automation) (record : RunRecord) (shared : Shared σ) {h : List Happening}
    {s : State σ Ended}
    (hs : Scheduled env { runner with registry := Catalogue.registry } automation record shared
      h s) :
    (∀ ctx frame config v f,
      ¬ ((Action.dispatch Catalogue.registry ctx frame config).run.run v).Endless f) ∧
    (∀ ctx D,
      (∀ frame config, D frame config = Action.dispatchWith Catalogue.registry ctx D frame config) ↔
        D = Action.dispatch Catalogue.registry ctx) ∧
    (∀ ctx nested frame config params started f v, LoopUntil.kind.validate config = .ok params →
      (∀ n t f' v', LoopUntil.Goes ctx nested frame (.ofParams params) started f v n t f' v' →
        LoopUntil.Timely started t → n ≤ (LoopUntil.Bounds.ofParams params).iterations) ∧
      ∀ t r f' v', LoopUntil.Timely started t →
        ((LoopUntil.kind.behave ctx nested frame params).Ends f v (.call .now started :: t) r f' v' ↔
          ∃ v₁, LoopUntil.Cycles ctx nested frame (.ofParams params) started 0 f v t r f' v₁ ∧
            v' = { v₁ with localLoopIndex := v.localLoopIndex })) ∧
    ∀ who before i frame config after,
      deedsOf who h = before ++ .call (.dispatched i frame config) () :: after →
      ∃ S, Proceeds automation false [] before S ∧ Stacked automation (⟨frame, config⟩ :: S) ∧
        ∃ step ∈ automation.orderedSteps, ∃ action ∈ step.orderedActions,
          S.length + Json.weightFields config ≤ Json.weightFields action.config := by
  refine ⟨fun ctx frame config v f => not_endless _ f, fun ctx D => Action.eq_dispatch_iff,
    fun ctx nested frame config params started f v hvalid => ⟨fun n t f' v' hgoes htimely => ?_,
      fun t r f' v' htimely => LoopUntil.ends_behave_iff hvalid htimely⟩,
    fun who before i frame config after hsplit => ?_⟩
  · exact hgoes.le_iterations (LoopUntil.isSet_of_validate hvalid) htimely
  · obtain ⟨S', hproceeds⟩ := hs.proceeds rfl who
    rw [hsplit] at hproceeds
    obtain ⟨S, hbefore, hafter⟩ := hproceeds.split
    have hstacked := hafter.stacked_of_dispatched (hbefore.stacked .none)
    exact ⟨S, hbefore, hstacked, hstacked.length_add_weight_le⟩

/-! ### A rehearsal -/

/-- An automation that logs something in a loop of two iterations. -/
def circling : Automation :=
  { id := "auto-1", name := "Auto"
    steps := [{ id := "s0", name := "Step 0", actions := [
      { id := "a0", actionType := "playwright:loop_until"
        config := [
          ("max_loops", .int 2),
          ("loop_actions", .list [.object [
            ("action_type", .text "playwright:log"),
            ("action_config", .object [("message", .text "again")])]])] }] }] }

/-- What happens in a rehearsal until the loop pauses. -/
def circled : List Happening × State World Ended :=
  State.carryOut World.collaborators (loopProgram sampleRunner circling sampleRecord.id)
    [.main] (State.start (sampleShared 1704067200000) (run sampleRunner circling sampleRecord))

/-- An action of a loop is dispatched one level below it. -/
theorem loop_holds_action : ∃ h s before i frame config after S,
    Scheduled World.collaborators sampleRunner circling sampleRecord (sampleShared 1704067200000)
      h s ∧
    deedsOf none h = before ++ .call (.dispatched i frame config) () :: after ∧
    frame.actionType = "playwright:log" ∧
    Proceeds circling false [] before S ∧ Stacked circling (⟨frame, config⟩ :: S) ∧
    ∃ step ∈ circling.orderedSteps, ∃ action ∈ step.orderedActions,
      S.length + Json.weightFields config ≤ Json.weightFields action.config := by
  have hs : Scheduled World.collaborators sampleRunner circling sampleRecord
      (sampleShared 1704067200000) circled.1 circled.2 :=
    State.carryOut_reaches _ _ _ (by decide) _
  have htypes : dispatchedTypes (deedsOf none circled.1) =
      ["playwright:loop_until", "playwright:log"] := by
    decide +kernel
  obtain ⟨before, i, frame, config, after, hsplit, htype⟩ :=
    exists_of_dispatchedTypes (by rw [htypes]; exact List.mem_cons_of_mem _ List.mem_cons_self)
  obtain ⟨-, -, -, hnesting⟩ := dispatch_terminates World.collaborators sampleRunner circling
    sampleRecord (sampleShared 1704067200000) hs
  obtain ⟨S, hproceeds, hstacked, hweight⟩ := hnesting none before i frame config after hsplit
  exact ⟨_, _, before, i, frame, config, after, S, hs, hsplit, htype, hproceeds, hstacked, hweight⟩

end Whole

end Runbook
