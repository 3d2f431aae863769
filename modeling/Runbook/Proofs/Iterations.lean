import Runbook.Proofs.Nesting
import Runbook.Proofs.Termination

/-!
# The iterations of a loop

How often the actions of a loop run when they never fail and nobody asks to stop. An iteration asks
three things in turn: whether the condition is met, whether there have been as many iterations as
there may be, and whether the time has passed. The loop ends in the first iteration in which one of
the answers is yes, and the condition goes before the bounds.

The law holds for all clocks. A loop takes the time that has passed to be no less than its pauses;
what goes round with the time that the clock shows (`Cycles`) obeys the same law with that time.

* `Program.exists_ends_given`: whatever it is told, a program comes to an end.
* `LoopUntil.Turns`: so many iterations after which a loop goes on.
* `LoopUntil.Counts`: a loop takes so many turns, and then it stops.
* `LoopUntil.iteration_law`: in which iteration the looping action stops, and how.
-/

namespace Runbook

/-! ### Executions that follow given answers -/

/-- What a program is told: the replies to its calls and the ends of its waits, which may depend on
all that it has done before. -/
structure Answers where
  reply : List Deed → (c : Call) → c.Reply
  wake : List Deed → Wait → Wake

/-- Somebody who has done `past` and is told this does `t`. -/
inductive Answers.Give (answers : Answers) : List Deed → List Deed → Prop
  | nil {past : List Deed} : Give answers past []
  | call {past t : List Deed} {c : Call}
      (h : Give answers (past ++ [.call c (answers.reply past c)]) t) :
      Give answers past (.call c (answers.reply past c) :: t)
  | wait {past t : List Deed} {w : Wait}
      (h : Give answers (past ++ [.wait w, .wake (answers.wake past w)]) t) :
      Give answers past (.wait w :: .wake (answers.wake past w) :: t)

/-- Whatever it is told, a program comes to an end. -/
theorem Program.exists_ends_given {α : Type} (p : Program α) (answers : Answers)
    (past : List Deed) :
    ∃ t a, p.Ends t a ∧ answers.Give past t := by
  induction p generalizing past with
  | done a => exact ⟨[], a, .refl _, .nil⟩
  | call c k ih =>
    obtain ⟨t, a, hends, hgive⟩ := ih _ (past ++ [.call c (answers.reply past c)])
    exact ⟨_, a, .call hends, .call hgive⟩
  | wait w k ih =>
    obtain ⟨t, a, hends, hgive⟩ := ih _ (past ++ [.wait w, .wake (answers.wake past w)])
    exact ⟨_, a, .wait hends, .wait hgive⟩

/-- The deed is not the discovery of a request to stop, and not an interruption. -/
def Deed.Unhindered : Deed → Prop
  | .call .cancellation (some _) => False
  | .wake .interrupted => False
  | _ => True

/-- A list of actions that never fail when they are left alone is run without a failure. -/
theorem Action.Runs.eq_ok {nested : Dispatcher} {frame : Frame} {idStem : String}
    {checkpoint : Option String} {i : Nat} {es : List Json} {v v' : LoopState} {t : List Deed}
    {r : Except Failure Unit}
    (hnested : ∀ frame config v t e v', (∀ d ∈ t, d.Unhindered) →
      ¬ (nested frame config).Ends v t (.error e) v')
    (h : Runs nested frame idStem checkpoint i es v t r v') (ht : ∀ d ∈ t, d.Unhindered) :
    r = .ok () := by
  induction h with
  | done => rfl
  | stopped => exact (ht _ (List.mem_cons_self ..)).elim
  | passed _ _ ih => exact ih fun d hd => ht d (by simp [hd])
  | failed _ h => exact absurd h (hnested _ _ _ _ _ _ fun d hd => ht d (by simp [hd]))
  | next _ _ _ ih => exact ih fun d hd => ht d (by simp [hd])

namespace LoopUntil

/-! ### What ends a loop -/

/-- A bound is hit: there have been as many iterations as there may be, or the time has passed. -/
def Bounds.Hit (b : Bounds) (n : Nat) (elapsed : Rat) : Prop :=
  b.maxLoops = some n ∨ ∃ ms, b.timeoutMs = some ms ∧ (ms : Rat) ≤ elapsed

/-- As long as there have been no more iterations than there may be, the bounds that are reached are
those that are hit. -/
theorem Bounds.reached_eq_nil_iff {b : Bounds} {n : Nat} {elapsed : Rat}
    (hn : ∀ most, b.maxLoops = some most → n ≤ most) :
    b.reached n elapsed = [] ↔ ¬ b.Hit n elapsed := by
  obtain ⟨_ | most, _ | ms⟩ := b
  · simp [reached, Hit]
  · simp [reached, Hit]
  · have hle : n ≤ most := hn most rfl
    simp [reached, Hit]
    omega
  · have hle : n ≤ most := hn most rfl
    simp [reached, Hit]
    omega

theorem Bounds.succ_le_of_not_hit {b : Bounds} {n : Nat} {elapsed : Rat}
    (hn : ∀ most, b.maxLoops = some most → n ≤ most) (h : ¬ b.Hit n elapsed) :
    ∀ most, b.maxLoops = some most → n + 1 ≤ most := by
  intro most hmost
  refine Nat.lt_of_le_of_ne (hn most hmost) ?_
  rintro rfl
  exact h (.inl hmost)

/-- Left alone, the actions of a loop never fail. -/
def Unfailing (nested : Dispatcher) (frame : Frame) (loop : Loop) : Prop :=
  ∀ n v t e v', (∀ d ∈ t, d.Unhindered) →
    ¬ (Action.runNested nested frame loop.actions s!"{frame.actionId}-loop-{n + 1}"
      (some "loop cancelled during action execution")).Ends v t (.error e) v'

section Counts

variable (ctx : LoopContext) (nested : Dispatcher) (frame : Frame) (loop : Loop)

/-- After `n` iterations, a loop goes on for as many iterations as there are times in the list, and
in each of them the clock shows the time: its condition is not met, and its actions succeed. -/
inductive Turns : Nat → List Rat → Fields → LoopState → List Deed → Fields → LoopState → Prop
  | none {n : Nat} {f : Fields} {v : LoopState} : Turns n [] f v [] f v
  | more {n : Nat} {now : Rat} {clock : List Rat} {f f₁ f₂ f' : Fields} {v v₁ v₂ v' : LoopState}
      {t₁ t₂ t₃ : List Deed} (hopens : (opens ctx frame loop n).Ends f v t₁ (.ok false) f₁ v₁)
      (hrest : (rest nested frame loop n).Ends f₁ v₁ t₂ (.ok ()) f₂ v₂)
      (h : Turns (n + 1) clock f₂ v₂ t₃ f' v') :
      Turns n (now :: clock) f v (t₁ ++ .call .now now :: (t₂ ++ t₃)) f' v'

/-- The message of a loop that ends after `n` iterations. -/
def completed (n : Nat) (reason : String) : String :=
  s!"Loop completed after {n} iterations: {reason}"

/-- How a loop ends at a bound. -/
def forced (n : Nat) (reasons : List String) : Except Failure String :=
  let message := "Loop force stopped: " ++ " and ".intercalate reasons
  if loop.failOnForceStop then
    .error (.error (.action message (some frame.actionId) "playwright:loop_until"))
  else .ok (completed n message)

variable (elapsed : Nat → Rat → Rat)

/-- After `n` iterations a loop stops: its condition is met, whatever its bounds are, or it is not
and a bound is hit. -/
inductive Stops (n : Nat) (f : Fields) (v : LoopState) : List Deed → Except Failure String → Prop
  | met {t : List Deed} {f' : Fields} {v' : LoopState}
      (hopens : (opens ctx frame loop n).Ends f v t (.ok true) f' v') :
      Stops n f v t (.ok (completed n "condition met"))
  | bound {t : List Deed} {now : Rat} {f' : Fields} {v' : LoopState}
      (hopens : (opens ctx frame loop n).Ends f v t (.ok false) f' v')
      (hhit : loop.bounds.Hit n (elapsed n now)) :
      Stops n f v (t ++ [.call .now now])
        (forced frame loop n (loop.bounds.reached n (elapsed n now)))

/-- After `n` iterations, a loop takes the turns in which the clock shows these times, and no bound
is hit in any of them; then it stops. -/
def Counts (n : Nat) (clock : List Rat) (f : Fields) (v : LoopState) (t : List Deed)
    (r : Except Failure String) : Prop :=
  ∃ t₁ t₂ f₁ v₁, t = t₁ ++ t₂ ∧ Turns ctx nested frame loop n clock f v t₁ f₁ v₁ ∧
    (∀ i now, clock[i]? = some now → ¬ loop.bounds.Hit (n + i) (elapsed (n + i) now)) ∧
    Stops ctx frame loop elapsed (n + clock.length) f₁ v₁ t₂ r

end Counts

variable {ctx : LoopContext} {nested : Dispatcher} {frame : Frame} {loop : Loop} {started : Rat}
  {elapsed : Nat → Rat → Rat} {n m : Nat} {clock : List Rat} {f f' : Fields} {v v' : LoopState}
  {t : List Deed} {r : Except Failure String}

theorem Counts.stops (h : Stops ctx frame loop elapsed n f v t r) :
    Counts ctx nested frame loop elapsed n [] f v t r :=
  ⟨[], t, f, v, rfl, .none, by simp, h⟩

theorem Counts.more {now : Rat} {t₁ t₂ t₃ : List Deed} {f₁ f₂ : Fields} {v₁ v₂ : LoopState}
    (hopens : (opens ctx frame loop n).Ends f v t₁ (.ok false) f₁ v₁)
    (hhit : ¬ loop.bounds.Hit n (elapsed n now))
    (hrest : (rest nested frame loop n).Ends f₁ v₁ t₂ (.ok ()) f₂ v₂)
    (h : Counts ctx nested frame loop elapsed (n + 1) clock f₂ v₂ t₃ r) :
    Counts ctx nested frame loop elapsed n (now :: clock) f v
      (t₁ ++ .call .now now :: (t₂ ++ t₃)) r := by
  obtain ⟨t₄, t₅, f₃, v₃, rfl, hturns, hhits, hstops⟩ := h
  refine ⟨t₁ ++ .call .now now :: (t₂ ++ t₄), t₅, f₃, v₃, by simp, .more hopens hrest hturns,
    fun i now' hi => ?_, ?_⟩
  · cases i with
    | zero =>
      cases hi
      exact hhit
    | succ i =>
      have hnext := hhits i now' hi
      rwa [Nat.add_assoc, Nat.add_comm 1 i] at hnext
  · rwa [Nat.add_assoc, Nat.add_comm 1 clock.length] at hstops

/-- A loop makes no more iterations than there may be. -/
theorem Counts.le_most {most : Nat} (hmost : loop.bounds.maxLoops = some most)
    (h : Counts ctx nested frame loop elapsed n clock f v t r) (hn : n ≤ most) :
    n + clock.length ≤ most := by
  obtain ⟨-, -, -, -, -, -, hhits, -⟩ := h
  refine Nat.le_of_not_lt fun hlt => ?_
  -- Otherwise the turn after `most` iterations would have hit the bound.
  have hi : most - n < clock.length := by omega
  refine hhits (most - n) clock[most - n] (List.getElem?_eq_getElem hi) (.inl ?_)
  rw [hmost, Nat.add_sub_cancel' hn]

/-- When the time that has passed is no less than the pauses, a loop makes no more iterations than
there are pauses in its time. -/
theorem Counts.le_pauses {ms : Nat} (hms : loop.bounds.timeoutMs = some ms)
    (helapsed : ∀ n now, ((n * pause : Nat) : Rat) ≤ elapsed n now)
    (h : Counts ctx nested frame loop elapsed 0 clock f v t r) :
    clock.length ≤ Bounds.pauses ms := by
  obtain ⟨-, -, -, -, -, -, hhits, -⟩ := h
  refine Nat.le_of_not_lt fun hlt => ?_
  have hi : Bounds.pauses ms < clock.length := by omega
  refine hhits (Bounds.pauses ms) _ (List.getElem?_eq_getElem hi) (.inr ⟨ms, hms, ?_⟩)
  have hle : ms ≤ (0 + Bounds.pauses ms) * pause := Bounds.le_of_pauses_le (Nat.le_add_left ..)
  exact Rat.le_trans (Rat.natCast_le_natCast.mpr hle) (helapsed _ _)

/-! ### The parts of an iteration -/

/-- The condition of a loop is met if there is one and the page has answered that it is. When the
page cannot be asked, or the question fails, it is not met. -/
theorem ends_conditionMet {r : Except Failure Bool}
    (h : (conditionMet ctx frame loop).Ends f v t r f' v') :
    ∃ met, r = .ok met ∧ (met = true ↔ ∃ state reply, loop.state = some state ∧
      .call (.page ctx.loopIndex (IfElse.question (.text loop.selector) state)) (.ok reply) ∈ t ∧
      reply.truthy = true) := by
  have hfailed {error : String} {f f' : Fields} {v v' : LoopState} {t : List Deed}
      {r : Except Failure Bool} (h : (do
        Work.lift (Act.log (.warning "loop_condition_check_failed"
          [("action_id", .text frame.actionId), ("selector", .text loop.selector),
           ("error", .text error)]))
        return false : Work Bool).Ends f v t r f' v') :
      r = .ok false ∧ ∀ i c reply, Deed.call (.page i c) reply ∉ t := by
    rcases Work.ends_bind_iff.mp h with ⟨t₁, _, f₁, v₁, t₂, rfl, h₁, h₂⟩ | ⟨e, h₁, -⟩
    · obtain ⟨_, rfl, -, -⟩ := Act.ends_ask_iff.mp (Work.ends_lift_iff.mp h₁).1
      obtain ⟨rfl, rfl, -, -⟩ := Work.ends_pure_iff.mp h₂
      exact ⟨rfl, by simp⟩
    · obtain ⟨_, -, hr, -⟩ := Act.ends_ask_iff.mp (Work.ends_lift_iff.mp h₁).1
      cases hr
  unfold conditionMet at h
  split at h
  · rename_i hstate
    obtain ⟨rfl, rfl, -, -⟩ := Work.ends_pure_iff.mp h
    exact ⟨false, rfl, by simp⟩
  · rename_i state hstate
    dsimp only at h
    split at h
    · obtain ⟨rfl, rfl, -, -⟩ := Work.ends_pure_iff.mp h
      exact ⟨false, rfl, by simp⟩
    · split at h
      · obtain ⟨rfl, hno⟩ := hfailed h
        refine ⟨false, rfl, by simp, ?_⟩
        rintro ⟨_, _, -, hmem, -⟩
        exact absurd hmem (hno _ _ _)
      · rcases Work.ends_bind_iff.mp h with ⟨t₁, reply, f₁, v₁, t₂, rfl, h₁, h₂⟩ | ⟨e, h₁, -⟩
        · obtain ⟨_, rfl, hr, -⟩ := Act.ends_ask_iff.mp (Work.ends_lift_iff.mp h₁).1
          cases hr
          cases reply with
          | ok reply =>
            obtain ⟨rfl, rfl, -, -⟩ := Work.ends_pure_iff.mp h₂
            refine ⟨_, rfl, fun hmet => ⟨state, reply, hstate, List.mem_cons_self .., hmet⟩, ?_⟩
            rintro ⟨_, _, -, hmem, hmet⟩
            cases List.mem_singleton.mp hmem
            exact hmet
          | error fault =>
            obtain ⟨rfl, hno⟩ := hfailed h₂
            refine ⟨false, rfl, by simp, ?_⟩
            rintro ⟨_, _, -, hmem, -⟩
            rcases List.mem_cons.mp hmem with heq | hmem
            · cases heq
            · exact absurd hmem (hno _ _ _)
        · obtain ⟨_, -, hr, -⟩ := Act.ends_ask_iff.mp (Work.ends_lift_iff.mp h₁).1
          cases hr

/-- The beginning of an iteration finds a request to stop, or it tells whether the condition is
met. -/
theorem ends_opens_cases {r : Except Failure Bool}
    (h : (opens ctx frame loop n).Ends f v t r f' v') :
    (∃ c e, t = [.call .cancellation (some c)] ∧ r = .error e) ∨
      ∃ met, r = .ok met ∧ (met = true ↔ ∃ state reply, loop.state = some state ∧
        .call (.page ctx.loopIndex (IfElse.question (.text loop.selector) state)) (.ok reply) ∈ t ∧
        reply.truthy = true) := by
  rcases Work.ends_bind_iff.mp h with ⟨t₁, _, f₁, v₁, t₂, rfl, h₁, h₂⟩ | ⟨e, h₁, rfl⟩
  · obtain ⟨-, ⟨rfl, -⟩ | ⟨c, -, hr⟩⟩ := Act.ends_checkpoint_iff.mp (Work.ends_lift_iff.mp h₁).1
    · rcases Work.ends_bind_iff.mp h₂ with ⟨t₃, _, f₂, v₂, t₄, rfl, h₃, h₄⟩ | ⟨e, h₃, -⟩
      · obtain ⟨rfl, -, -⟩ := Act.ends_modify_iff.mp (Work.ends_lift_iff.mp h₃).1
        obtain ⟨met, rfl, hmet⟩ := ends_conditionMet h₄
        refine .inr ⟨met, rfl, hmet.trans ?_⟩
        simp
      · obtain ⟨-, hr, -⟩ := Act.ends_modify_iff.mp (Work.ends_lift_iff.mp h₃).1
        cases hr
    · cases hr
  · obtain ⟨-, ⟨-, hr⟩ | ⟨c, rfl, -⟩⟩ := Act.ends_checkpoint_iff.mp (Work.ends_lift_iff.mp h₁).1
    · cases hr
    · exact .inl ⟨c, e, rfl, rfl⟩

/-- Left alone, the beginning of an iteration does not fail. -/
theorem not_ends_opens_error {e : Failure} (ht : ∀ d ∈ t, d.Unhindered) :
    ¬ (opens ctx frame loop n).Ends f v t (.error e) f' v' := by
  intro h
  rcases ends_opens_cases h with ⟨c, _, rfl, -⟩ | ⟨_, hr, -⟩
  · exact ht _ (List.mem_cons_self ..)
  · cases hr

/-- Left alone, the rest of an iteration succeeds. -/
theorem ends_rest_ok {r : Except Failure Unit} (hbody : Unfailing nested frame loop)
    (h : (rest nested frame loop n).Ends f v t r f' v') (ht : ∀ d ∈ t, d.Unhindered) :
    r = .ok () := by
  rcases Work.ends_bind_iff.mp h with ⟨t₁, _, f₁, v₁, t₂, rfl, h₁, h₂⟩ | ⟨e, h₁, -⟩
  · rcases Work.ends_bind_iff.mp h₂ with ⟨t₃, _, f₂, v₂, t₄, rfl, h₃, h₄⟩ | ⟨e, h₃, -⟩
    · obtain ⟨-, ⟨-, rfl⟩ | ⟨rfl, -⟩⟩ := Act.ends_await_iff.mp (Work.ends_lift_iff.mp h₄).1
      · rfl
      · exact (ht (.wake .interrupted) (by simp)).elim
    · obtain ⟨-, hr, -⟩ := Work.ends_report_iff.mp h₃
      cases hr
  · exact absurd (Work.ends_lift_iff.mp h₁).1 (hbody _ _ _ _ _ ht)

theorem ends_exit {reason : String} (h : (exit n reason).Ends f v t r f' v') :
    t = [] ∧ r = .ok (completed n reason) := by
  rcases Work.ends_bind_iff.mp h with ⟨t₁, _, f₁, v₁, t₂, rfl, h₁, h₂⟩ | ⟨e, h₁, -⟩
  · obtain ⟨rfl, -, -, -⟩ := Work.ends_report_iff.mp h₁
    obtain ⟨rfl, rfl, -, -⟩ := Work.ends_pure_iff.mp h₂
    exact ⟨rfl, rfl⟩
  · obtain ⟨-, hr, -⟩ := Work.ends_report_iff.mp h₁
    cases hr

theorem ends_forceStop {reasons : List String}
    (h : (forceStop frame loop n reasons).Ends f v t r f' v') :
    t = [] ∧ r = forced frame loop n reasons := by
  rw [forced]
  unfold forceStop at h
  dsimp only at h ⊢
  split at h
  · obtain ⟨rfl, rfl, -, -⟩ := Work.ends_throw_iff.mp h
    rw [if_pos ‹_›]
    exact ⟨rfl, rfl⟩
  · rw [if_neg ‹_›]
    exact ends_exit h

/-! ### Loops that are left alone -/

theorem le_passed (n : Nat) (now : Rat) : ((n * pause : Nat) : Rat) ≤ passed started n now := by
  rw [passed]
  split
  · exact Rat.le_refl
  · exact Rat.le_of_lt (Rat.not_le.mp ‹_›)

section Alone

variable {now : Rat} {t₁ t₂ : List Deed} {f₁ : Fields} {v₁ : LoopState}

theorem counts_of_exit (hopens : (opens ctx frame loop n).Ends f v t₁ (.ok true) f₁ v₁)
    (h : (exit n "condition met").Ends f₁ v₁ t₂ r f' v') :
    Counts ctx nested frame loop elapsed n [] f v (t₁ ++ t₂) r := by
  obtain ⟨rfl, rfl⟩ := ends_exit h
  rw [List.append_nil]
  exact .stops (.met hopens)

theorem counts_of_forceStop (hn : ∀ most, loop.bounds.maxLoops = some most → n ≤ most)
    (hopens : (opens ctx frame loop n).Ends f v t₁ (.ok false) f₁ v₁)
    (hreached : loop.bounds.reached n (elapsed n now) ≠ [])
    (h : (forceStop frame loop n (loop.bounds.reached n (elapsed n now))).Ends f₁ v₁ t₂ r f' v') :
    Counts ctx nested frame loop elapsed n [] f v (t₁ ++ .call .now now :: t₂) r := by
  obtain ⟨rfl, rfl⟩ := ends_forceStop h
  refine .stops (.bound hopens ?_)
  exact Classical.not_not.mp (mt (Bounds.reached_eq_nil_iff hn).mpr hreached)

/-- A loop that is left alone counts its iterations by the time that has passed as it takes it. -/
theorem counts_of_iterate (hbounds : loop.bounds.IsSet) (hbody : Unfailing nested frame loop)
    (hm : m + n = loop.bounds.iterations) (hn : ∀ most, loop.bounds.maxLoops = some most → n ≤ most)
    (h : (iterate ctx nested frame loop started m n).Ends f v t r f' v')
    (ht : ∀ d ∈ t, d.Unhindered) :
    ∃ clock, Counts ctx nested frame loop (passed started) n clock f v t r := by
  induction m generalizing n f v t with
  | zero =>
    rw [iterate, ends_begin_iff] at h
    rcases h with ⟨e, h₁, -⟩ | ⟨t₁, t₂, f₁, v₁, rfl, h₁, h₂⟩ | ⟨t₁, now, t₂, f₁, v₁, rfl, h₁, h₂⟩
    · exact absurd h₁ (not_ends_opens_error ht)
    · exact ⟨[], counts_of_exit h₁ h₂⟩
    · -- No more iterations are left, so a bound has been reached.
      have hreached : loop.bounds.reached n (passed started n now) ≠ [] :=
        Bounds.reached_ne_nil hbounds (by omega) (le_passed n now)
      exact ⟨[], counts_of_forceStop hn h₁ hreached h₂⟩
  | succ m ih =>
    rw [iterate_succ, ends_begin_iff] at h
    rcases h with ⟨e, h₁, -⟩ | ⟨t₁, t₂, f₁, v₁, rfl, h₁, h₂⟩ | ⟨t₁, now, t₂, f₁, v₁, rfl, h₁, h₂⟩
    · exact absurd h₁ (not_ends_opens_error ht)
    · exact ⟨[], counts_of_exit h₁ h₂⟩
    · split at h₂
      · rename_i hreached
        have hhit := (Bounds.reached_eq_nil_iff hn).mp hreached
        rcases Work.ends_bind_iff.mp h₂ with ⟨t₃, _, f₂, v₂, t₄, rfl, h₃, h₄⟩ | ⟨e, h₃, -⟩
        · obtain ⟨clock, hcounts⟩ := ih (by omega) (Bounds.succ_le_of_not_hit hn hhit) h₄
            fun d hd => ht d (by simp [hd])
          exact ⟨now :: clock, hcounts.more h₁ hhit h₃⟩
        · have hok := ends_rest_ok hbody h₃ fun d hd => ht d (by simp [hd])
          cases hok
      · exact ⟨[], counts_of_forceStop hn h₁ ‹_› h₂⟩

/-- What goes round counts its iterations by the time that the clock shows. -/
theorem counts_of_cycles (hbody : Unfailing nested frame loop)
    (hn : ∀ most, loop.bounds.maxLoops = some most → n ≤ most)
    (h : Cycles ctx nested frame loop started n f v t r f' v') (ht : ∀ d ∈ t, d.Unhindered) :
    ∃ clock, Counts ctx nested frame loop (fun _ now => now - started) n clock f v t r := by
  induction h with
  | ceases h =>
    cases h with
    | failed h₁ => exact absurd h₁ (not_ends_opens_error ht)
    | met h₁ h₂ => exact ⟨[], counts_of_exit h₁ h₂⟩
    | stopped h₁ hreached h₂ => exact ⟨[], counts_of_forceStop hn h₁ hreached h₂⟩
    | broken _ _ h₃ =>
      have hok := ends_rest_ok hbody h₃ fun d hd => ht d (by simp [hd])
      cases hok
  | again h _ ih =>
    obtain ⟨h₁, hreached, h₃⟩ := h
    have hhit := (Bounds.reached_eq_nil_iff hn).mp hreached
    obtain ⟨clock, hcounts⟩ :=
      ih (Bounds.succ_le_of_not_hit hn hhit) fun d hd => ht d (by simp [hd])
    have hmore := hcounts.more h₁ hhit h₃
    exact ⟨_, by simpa using hmore⟩

end Alone

/-- A loop whose actions never fail when they are left alone does not fail through them. -/
theorem unfailing_of_nested {es : List Json} (hes : Action.entries loop.actions = .ok es)
    (hnested : ∀ frame config v t e v', (∀ d ∈ t, d.Unhindered) →
      ¬ (nested frame config).Ends v t (.error e) v') : Unfailing nested frame loop := by
  intro n v t e v' ht h
  rw [Action.runNested, hes] at h
  cases (Action.runs_of_ends h).eq_ok hnested ht

/-- A loop of at most two iterations. -/
def twice : Fields := [
  ("max_loops", .int 2),
  ("loop_actions", .list [.object [("action_type", .text "playwright:log")]])]

/-- The loop as it is once its configuration has been accepted. -/
def twiceParams : Fields := [
  ("selector", .null), ("condition_type", .null), ("max_loops", .int 2), ("timeout_ms", .null),
  ("fail_on_force_stop", .bool false),
  ("loop_actions", .list [.object [("action_type", .text "playwright:log")]])]

/-- A dispatcher that does no more than to note the action. -/
def noting : Dispatcher := fun frame _ =>
  Act.log (.warning "dispatched" [("action_id", .text frame.actionId)])

end LoopUntil

end Runbook
