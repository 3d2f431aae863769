import Mathlib.Algebra.Group.Nat.Defs
import Runbook.Proofs.Deferral
import Runbook.Proofs.Together
import Runbook.Proofs.Watching

/-!
# Loop indices one after another

A sequential run executes its loop indices in the order of their numbers, with a delay between two
of them, and stops at the first one that fails. Each of them begins with variables of its own that
are empty, and sees the shared variables as those before it have left them.

A delay is kept as a number of seconds. When there is no number that large, the run fails at its
first delay, though no loop index has failed; and when the nearest number is another one, it waits
for a little more or less.

* `Loop.Runs`: what a loop index does from its beginning to its end.
* `Whole.InSuccession`: loop indices are executed one after another, with a delay in between.
* `Whole.in_succession_iff`: a sequential run executes them so exactly when its delay can be kept,
  or it comes to no delay.
-/

namespace Runbook

open Program Schedule Rehearsal

/-! ### Places in lists -/

/-- Two places in a list are the same, or one of them is before the other one. -/
theorem same_or_before_of_append_cons {α : Type} {l l' m m' : List α} {d d' : α}
    (h : l ++ d :: l' = m ++ d' :: m') :
    (l = m ∧ d = d' ∧ l' = m') ∨ (d ∈ m ∧ d' ∈ l') ∨ (d' ∈ l ∧ d ∈ m') := by
  rcases List.append_eq_append_iff.mp h with ⟨as, rfl, has⟩ | ⟨as, rfl, has⟩
  · cases as with
    | nil => exact .inl ⟨(List.append_nil l).symm, List.cons.inj has⟩
    | cons x as =>
      obtain ⟨rfl, rfl⟩ := List.cons.inj has
      exact .inr (.inl (by simp))
  · cases as with
    | nil =>
      obtain ⟨rfl, rfl⟩ := List.cons.inj has
      exact .inl ⟨List.append_nil m, rfl, rfl⟩
    | cons x as =>
      obtain ⟨rfl, rfl⟩ := List.cons.inj has
      exact .inr (.inr (by simp))

theorem intercalate_cons_append {α : Type} (sep l : List α) (ls : List (List α)) (l' : List α) :
    sep.intercalate (l :: (ls ++ [l'])) = l ++ (sep ++ sep.intercalate (ls ++ [l'])) := by
  cases ls <;> simp [List.intercalate, List.intersperse]

/-! ### The count of loop indices -/

namespace AutomationConfig

theorem count_of_check {write : Json → String} {x y : Json}
    (h : multiRunModel.check write x = .ok y) : 1 ≤ (multiRunOf y.fields).count := by
  have hfails (z : Json) : Kind.check write (.integer (some 1) (some 1000)) z ≠ .error [] := by
    unfold Kind.check Kind.checkInteger
    split
    · rintro ⟨⟩
    · split <;> rintro ⟨⟩
  have hbefore : ∀ field ∈ [Field.withDefault "enabled" .boolean (.bool false),
      .mk "mode" none (.choice ["sequential", "parallel"]) (some (.text "sequential"))
        (.normalized "sequential")], field.name ≠ "count" := by decide
  rcases Kind.get?_of_check hbefore hfails h with hcount | ⟨given, value, -, hchecked, hcount⟩
  · rw [multiRunOf, Fields.int?, hcount]
    exact Nat.le_refl 1
  · unfold Kind.check Kind.checkInteger at hchecked
    split at hchecked
    · cases hchecked
    · rename_i i hi
      split at hchecked <;> cases hchecked
      rename_i hleast
      rw [multiRunOf, Fields.int?, hcount]
      simp at hleast ⊢
      omega

/-- Settings that are accepted have at least one loop index. -/
theorem one_le_runCount {raw : Json} {config : AutomationConfig} (h : parse raw = .ok config) :
    1 ≤ config.runCount := by
  have hobject {fields : Fields} (h : ofObject fields = .ok config) :
      1 ≤ config.multirun.count := by
    unfold ofObject at h
    split at h
    · cases h
      decide
    · split at h
      · cases h
      · split at h <;> cases h
        rename_i y hy
        rw [ofFields]
        have hbefore : ∀ field ∈ [Field.withDefault "variables" (.list 0 variableModel) (.list [])],
            field.name ≠ "multirun" := by decide
        rcases Kind.get?_of_check hbefore (Kind.check_model_ne_error_nil _ _ _ _) hy
          with hmultirun | ⟨given, value, -, hchecked, hmultirun⟩
        · refine Nat.le_of_eq ?_
          rw [hmultirun]
        · rw [hmultirun]
          cases value with
          | object g => exact count_of_check hchecked
          | _ => exact Nat.le_refl 1
  have hcount : 1 ≤ config.multirun.count := by
    unfold parse at h
    split at h
    · cases h
      decide
    · split at h
      · cases h
        decide
      · split at h
        · cases h
        · exact hobject h
        · cases h
    · exact hobject h
    · cases h
  rw [runCount]
  split
  · exact hcount
  · exact Nat.le_refl 1

end AutomationConfig

/-! ### One loop index -/

namespace Loop

/-- A loop index does `t` and comes to a result: it looks at the clock, and goes through its steps
in a session, with no runtime variables yet and outside of every loop. -/
def Runs (r : Runner) (automation : Automation) (config : AutomationConfig) (runId : String)
    (i : Nat) (t : List Deed) (result : Except Failure Unit) : Prop :=
  ∃ now t' s', t = .call .now now :: t' ∧
    (inSession r i (runSteps r (contextOf r automation config runId i now)
      automation.orderedSteps)).Ends { runtimeVars := [], localLoopIndex := 0 } t' result s'

theorem ends_run_iff {r : Runner} {automation : Automation} {config : AutomationConfig}
    {runId : String} {i : Nat} {t : List Deed} {result : Except Failure Unit} :
    (run r automation config runId i).Ends t result ↔
      Runs r automation config runId i t result := by
  rw [run, ends_ask_bind_iff]
  constructor
  · rintro ⟨now, t', rfl, h⟩
    obtain ⟨t₁, ⟨result', s'⟩, t₂, rfl, h₁, h₂⟩ := ends_bind_iff.mp h
    obtain ⟨rfl, rfl⟩ := ends_pure_iff.mp h₂
    rw [List.append_nil]
    exact ⟨now, t₁, s', rfl, h₁⟩
  · rintro ⟨now, t', s', rfl, h⟩
    refine ⟨now, t', rfl, ends_bind_iff.mpr ⟨t', (result, s'), [], by simp, h, ?_⟩⟩
    exact ends_pure_iff.mpr ⟨rfl, rfl⟩

end Loop

namespace Whole

/-! ### Delays -/

/-- A delay of so many milliseconds, to the millisecond. -/
def pause (ms : Nat) : List Deed := if ms = 0 then [] else [.wait (.sleep ms), .wake .resumed]

/-- There is a number of seconds for so many milliseconds, or there is no delay. -/
def Expressible (ms : Nat) : Prop := ms = 0 ∨ ∃ seconds, Duration.seconds? ms = some seconds

/-- There is a number of seconds that says exactly so many milliseconds, or there is no delay. -/
def Precise (ms : Nat) : Prop :=
  ms = 0 ∨ ∃ seconds, Duration.seconds? ms = some seconds ∧ Duration.millis seconds = ms

/-- What a delay comes to: as many milliseconds as the nearest number of seconds says. -/
def gap (ms : Nat) : List Deed :=
  if ms = 0 then []
  else
    match Duration.seconds? ms with
    | none => []
    | some seconds => [.wait (.sleep (Duration.millis seconds)), .wake .resumed]

theorem gap_of_precise {ms : Nat} (h : Precise ms) : gap ms = pause ms := by
  rw [gap, pause]
  rcases h with rfl | ⟨seconds, hseconds, hexact⟩
  · rfl
  · simp only [hseconds, hexact]

theorem Precise.expressible {ms : Nat} (h : Precise ms) : Expressible ms :=
  h.imp_right fun ⟨seconds, hseconds, _⟩ => ⟨seconds, hseconds⟩

/-- Where a delay comes to as many milliseconds as it says, a number of seconds says so, too. -/
theorem Expressible.precise {ms : Nat} {t t' : List Deed} (hms : Expressible ms)
    (h : pause ms ++ t = gap ms ++ t') : Precise ms := by
  rcases hms with hzero | ⟨seconds, hseconds⟩
  · exact .inl hzero
  · rw [pause, gap, hseconds] at h
    split at h
    · exact .inl ‹_›
    · obtain ⟨hsleep, -⟩ := List.cons.inj h
      injection hsleep with hsleep
      injection hsleep with hms
      exact .inr ⟨seconds, hseconds, hms.symm⟩

theorem eq_gap_of_delay {ms : Nat} {t : List Deed} (h : (delay ms).Ends t (.ok ())) :
    t = gap ms ∧ (ms = 0 ∨ ∃ seconds, Duration.seconds? ms = some seconds) := by
  rw [delay] at h
  rw [gap]
  split at h
  · rename_i hms
    rw [if_pos hms]
    exact ⟨(ends_pure_iff.mp h).1, .inl hms⟩
  · rename_i hms
    rw [if_neg hms]
    split at h
    · cases (ends_pure_iff.mp h).2
    · rename_i seconds hseconds
      obtain ⟨wake, t', rfl, h'⟩ := ends_await_bind_iff.mp h
      cases wake with
      | interrupted => cases (ends_pure_iff.mp h').2
      | resumed =>
        obtain ⟨rfl, -⟩ := ends_pure_iff.mp h'
        rw [hseconds]
        exact ⟨rfl, .inr ⟨seconds, rfl⟩⟩

/-- A delay that is not interrupted fails only where there is no number that large, and it does so
at once. -/
theorem eq_nil_of_delay {ms : Nat} {t : List Deed} {e : Failure}
    (h : (delay ms).Ends t (.error e))
    (hcalm : ∀ a d b, t ≠ a ++ .wait (.sleep d) :: .wake .interrupted :: b) :
    t = [] ∧ ¬ Expressible ms := by
  rw [delay] at h
  split at h
  · cases (ends_pure_iff.mp h).2
  · rename_i hms
    split at h
    · rename_i hseconds
      refine ⟨(ends_pure_iff.mp h).1, ?_⟩
      rintro (hzero | ⟨seconds, hsome⟩)
      · exact hms hzero
      · rw [hseconds] at hsome
        cases hsome
    · obtain ⟨wake, t', rfl, h'⟩ := ends_await_bind_iff.mp h
      cases wake with
      | interrupted => exact absurd rfl (hcalm [] _ t')
      | resumed => cases (ends_pure_iff.mp h').2

/-! ### Several loop indices -/

/-- Loop indices from `i` on are executed one after another, `remaining` more at most after the
first one, with the same deeds between any two. Those before the last one succeed, and unless it is
the last one of all, the last one fails. -/
inductive Successive (executes : Nat → List Deed → Except Failure Unit → Prop) (runId : String)
    (between : List Deed) (i remaining : Nat) (t : List Deed) (raised : Option Failure) : Prop
  | intro (earlier : List (List Deed)) (last : List Deed) (result : Except Failure Unit)
      (ht : t = between.intercalate (earlier ++ [last]) ++
        loopFailed runId (i + earlier.length) result)
      (hcount : earlier.length ≤ remaining)
      (hearlier : ∀ j (hj : j < earlier.length), executes (i + j) earlier[j] (.ok ()))
      (hlast : executes (i + earlier.length) last result)
      (hstop : earlier.length < remaining → failureOf result ≠ none)
      (hraised : raised = failureOf result)

namespace Successive

variable {executes : Nat → List Deed → Except Failure Unit → Prop} {runId : String}
  {between t t' : List Deed} {i remaining : Nat} {raised : Option Failure}

/-- The first loop index fails, and no other one is executed. -/
theorem failed (runId : String) (between : List Deed) (remaining : Nat) {e : Failure}
    (h : executes i t (.error e)) :
    Successive executes runId between i remaining (t ++ loopFailed runId i (.error e)) (some e) :=
  .intro [] t (.error e) (by simp [List.intercalate]) (Nat.zero_le _)
    (fun j hj => absurd hj (Nat.not_lt_zero j)) h (fun _ => nofun) rfl

/-- There is only one loop index, and it succeeds. -/
theorem last (runId : String) (between : List Deed) (h : executes i t (.ok ())) :
    Successive executes runId between i 0 t none :=
  .intro [] t (.ok ()) (by simp [List.intercalate, loopFailed]) (Nat.zero_le _)
    (fun j hj => absurd hj (Nat.not_lt_zero j)) h (fun hlt => absurd hlt (Nat.lt_irrefl 0)) rfl

/-- One loop index succeeds, and the others follow after a delay. -/
theorem cons (h : executes i t (.ok ()))
    (hrest : Successive executes runId between (i + 1) remaining t' raised) :
    Successive executes runId between i (remaining + 1) (t ++ (between ++ t')) raised := by
  obtain ⟨earlier, last, result, rfl, hcount, hearlier, hlast, hstop, hraised⟩ := hrest
  have hlength : i + 1 + earlier.length = i + (t :: earlier).length := by
    rw [List.length_cons]
    omega
  rw [hlength] at hlast
  refine .intro (t :: earlier) last result ?_ ?_ ?_ hlast ?_ hraised
  · rw [List.cons_append, intercalate_cons_append, hlength]
    simp
  · rw [List.length_cons]
    omega
  · intro j hj
    cases j with
    | zero => exact h
    | succ j =>
      have hj' : j < earlier.length := Nat.lt_of_succ_lt_succ hj
      have hends := hearlier j hj'
      rwa [Nat.add_right_comm] at hends
  · intro hlt
    rw [List.length_cons] at hlt
    exact hstop (by omega)

/-- The first loop index fails, or it succeeds and is the last one, or it succeeds and something
follows between it and the others. -/
theorem first (h : Successive executes runId between i remaining t raised) :
    (∃ t₁ e, executes i t₁ (.error e) ∧ t = t₁ ++ loopFailed runId i (.error e) ∧
      raised = some e) ∨
    (executes i t (.ok ()) ∧ remaining = 0 ∧ raised = none) ∨
    ∃ t₁ t₂, executes i t₁ (.ok ()) ∧ 0 < remaining ∧ t = t₁ ++ (between ++ t₂) := by
  obtain ⟨earlier, last, result, rfl, hcount, hearlier, hlast, hstop, rfl⟩ := h
  cases earlier with
  | nil =>
    have hone : between.intercalate ([] ++ [last]) = last := by simp [List.intercalate]
    rw [hone]
    cases result with
    | error e => exact .inl ⟨last, e, hlast, rfl, rfl⟩
    | ok =>
      have hzero : remaining = 0 := Nat.eq_zero_of_not_pos fun hpos => hstop hpos rfl
      exact .inr (.inl ⟨by simpa [loopFailed] using hlast, hzero, rfl⟩)
  | cons t₁ earlier =>
    have hpos : 0 < remaining := Nat.lt_of_lt_of_le (Nat.succ_pos _) hcount
    rw [List.cons_append, intercalate_cons_append, List.append_assoc, List.append_assoc]
    exact .inr (.inr ⟨t₁, _, hearlier 0 (Nat.succ_pos _), hpos, rfl⟩)

/-- Unless something follows after the first loop index, it does not matter what that would be. -/
theorem of_first (between' : List Deed) (h : Successive executes runId between i remaining t raised)
    (hno : ∀ t₁ t₂, executes i t₁ (.ok ()) → 0 < remaining → t ≠ t₁ ++ t₂) :
    Successive executes runId between' i remaining t raised := by
  rcases h.first with ⟨t₁, e, h₁, rfl, rfl⟩ | ⟨h₁, rfl, rfl⟩ | ⟨t₁, t₂, h₁, hpos, ht⟩
  · exact failed runId between' remaining h₁
  · exact last runId between' h₁
  · exact absurd ht (hno t₁ _ h₁ hpos)

end Successive

/-- What comes of a first loop index: it fails, or it succeeds and is the last one, or a delay
follows and then the others, unless the delay fails. -/
inductive Onwards (loop : Nat → Program (Except Failure Unit)) (runId : String) (delayMs i : Nat)
    (result : Except Failure (Option RunError)) : Nat → List Deed → Prop
  | failed {remaining : Nat} {t : List Deed} {e : Failure} (h : (loop i).Ends t (.error e))
      (hraised : raisedOf result = some e) :
      Onwards loop runId delayMs i result remaining (t ++ loopFailed runId i (.error e))
  | last {t : List Deed} (h : (loop i).Ends t (.ok ())) (hresult : result = .ok none) :
      Onwards loop runId delayMs i result 0 t
  | halted {remaining : Nat} {t t' : List Deed} {e : Failure} (h : (loop i).Ends t (.ok ()))
      (hdelay : (delay delayMs).Ends t' (.error e)) (hresult : result = .error e) :
      Onwards loop runId delayMs i result (remaining + 1) (t ++ t')
  | next {remaining : Nat} {t t' t'' : List Deed} (h : (loop i).Ends t (.ok ()))
      (hdelay : (delay delayMs).Ends t' (.ok ()))
      (hrest : (sequentially loop runId delayMs (i + 1) remaining).Ends t'' result) :
      Onwards loop runId delayMs i result (remaining + 1) (t ++ (t' ++ t''))

theorem onwards_of_sequentially {loop : Nat → Program (Except Failure Unit)} {runId : String}
    {delayMs remaining i : Nat} {t : List Deed} {result : Except Failure (Option RunError)}
    (h : (sequentially loop runId delayMs i remaining).Ends t result) :
    Onwards loop runId delayMs i result remaining t := by
  have hknown {t₁ t₂ : List Deed} {e : RunError} (h₁ : (loop i).Ends t₁ (.error (.error e)))
      (h₂ : (do
        logLoopFailed runId i e
        return .ok (some e) : Program (Except Failure (Option RunError))).Ends t₂ result) :
      Onwards loop runId delayMs i result remaining (t₁ ++ t₂) := by
    obtain ⟨_, t₃, rfl, h₃⟩ := ends_ask_bind_iff.mp h₂
    obtain ⟨rfl, rfl⟩ := ends_pure_iff.mp h₃
    exact .failed h₁ rfl
  have hunknown {t₁ t₂ : List Deed} {e : Failure} (h₁ : (loop i).Ends t₁ (.error e))
      (hsilent : loopFailed runId i (.error e) = [])
      (h₂ : (return .error e : Program (Except Failure (Option RunError))).Ends t₂ result) :
      Onwards loop runId delayMs i result remaining (t₁ ++ t₂) := by
    obtain ⟨rfl, rfl⟩ := ends_pure_iff.mp h₂
    rw [← hsilent]
    exact .failed h₁ rfl
  cases remaining with
  | zero =>
    rw [sequentially] at h
    obtain ⟨t₁, x, t₂, rfl, h₁, h₂⟩ := ends_bind_iff.mp h
    rcases x with (e | f | _) | _
    · exact hknown h₁ h₂
    · exact hunknown h₁ rfl h₂
    · exact hunknown h₁ rfl h₂
    · obtain ⟨rfl, rfl⟩ := ends_pure_iff.mp h₂
      rw [List.append_nil]
      exact .last h₁ rfl
  | succ remaining =>
    rw [sequentially] at h
    obtain ⟨t₁, x, t₂, rfl, h₁, h₂⟩ := ends_bind_iff.mp h
    rcases x with (e | f | _) | _
    · exact hknown h₁ h₂
    · exact hunknown h₁ rfl h₂
    · exact hunknown h₁ rfl h₂
    · obtain ⟨t₃, y, t₄, rfl, h₃, h₄⟩ := ends_bind_iff.mp h₂
      cases y with
      | ok => exact .next h₁ h₃ h₄
      | error e =>
        obtain ⟨rfl, rfl⟩ := ends_pure_iff.mp h₄
        rw [List.append_nil]
        exact .halted h₁ h₃ rfl

/-- Unless they are interrupted, and if there is a number for the delay, loop indices are executed
one after another with a gap in between. -/
theorem successive_of_sequentially {loop : Nat → Program (Except Failure Unit)} {runId : String}
    {delayMs remaining i : Nat} {t : List Deed} {result : Except Failure (Option RunError)}
    (hdelay : Expressible delayMs)
    (h : (sequentially loop runId delayMs i remaining).Ends t result)
    (hcalm : ∀ a d b, t ≠ a ++ .wait (.sleep d) :: .wake .interrupted :: b) :
    Successive (fun i => (loop i).Ends) runId (gap delayMs) i remaining t (raisedOf result) := by
  induction remaining generalizing i t with
  | zero =>
    cases onwards_of_sequentially h with
    | failed h₁ hraised =>
      rw [hraised]
      exact .failed runId _ _ h₁
    | last h₁ hresult =>
      subst hresult
      exact .last runId _ h₁
  | succ remaining ih =>
    cases onwards_of_sequentially h with
    | failed h₁ hraised =>
      rw [hraised]
      exact .failed runId _ _ h₁
    | @halted _ t₁ t₂ e h₁ hhalt hresult =>
      obtain ⟨-, hno⟩ := eq_nil_of_delay hhalt fun a d b heq => hcalm (t₁ ++ a) d b (by simp [heq])
      exact absurd hdelay hno
    | @next _ t₁ t₂ t₃ h₁ hpause hrest =>
      obtain ⟨rfl, -⟩ := eq_gap_of_delay hpause
      exact .cons h₁ (ih hrest fun a d b heq =>
        hcalm (t₁ ++ (gap delayMs ++ a)) d b (by simp [heq]))

/-! ### Sequential runs -/

/-- A task does `t` between the moments when the time limit is set and when it is lifted, and
before and afterwards it does nothing that has to do with loop indices. -/
inductive Limited (deeds t : List Deed) : Prop
  | intro {before after : List Deed} {ms : Rat} {reason : String}
      (hdeeds : deeds = before ++ .call (.armTimeout ms reason) () ::
        (t ++ .call .disarmTimeout () :: after))
      (haside : Aside (before ++ after))

namespace Limited

variable {deeds t t' : List Deed}

theorem unique (h : Limited deeds t) (h' : Limited deeds t') : t = t' := by
  obtain ⟨rfl, haside⟩ := h
  obtain ⟨heq, haside'⟩ := h'
  rcases same_or_before_of_append_cons heq with ⟨-, -, hrest⟩ | ⟨hm, -⟩ | ⟨hm, -⟩
  · rcases same_or_before_of_append_cons hrest with ⟨rfl, -⟩ | ⟨-, hm⟩ | ⟨-, hm⟩
    · rfl
    · exact (haside _ (List.mem_append_right _ hm)).elim
    · exact (haside' _ (List.mem_append_right _ hm)).elim
  · exact (haside' _ (List.mem_append_left _ hm)).elim
  · exact (haside _ (List.mem_append_left _ hm)).elim

theorem joins (h : Limited deeds t) : deeds.countP Deed.joins = t.countP Deed.joins := by
  obtain ⟨rfl, haside⟩ := h
  have hzero := haside.joins
  rw [List.countP_append] at hzero
  rw [List.countP_append, List.countP_cons_of_neg (by simp [Deed.joins]), List.countP_append,
    List.countP_cons_of_neg (by simp [Deed.joins])]
  omega

end Limited

/-- A task executes loop indices from the first one on, one after another and no more than `n`, with
a delay between any two, and nothing else of the kind. Those before the last one succeed, and unless
all have been executed, the last one fails. Its failure is the one that is raised. -/
def InSuccession (executes : Nat → List Deed → Except Failure Unit → Prop) (runId : String)
    (n delayMs : Nat) (deeds : List Deed) (raised : Option Failure) : Prop :=
  ∃ t, Limited deeds t ∧ Successive executes runId (pause delayMs) 0 (n - 1) t raised

/-- A task executes the first loop index, and it fails. -/
def FirstFails (executes : Nat → List Deed → Except Failure Unit → Prop) (deeds : List Deed) :
    Prop :=
  ∃ t t' e, Limited deeds (t ++ t') ∧ executes 0 t (.error e)

section Sequentially

variable {loop : Nat → Program (Except Failure Unit)} {runId : String} {n delayMs : Nat}
  {deeds t : List Deed} {result : Except Failure (Option RunError)}

/-- Loop indices with a gap in between are in succession exactly when it is as long as the delay, or
there is none. -/
theorem inSuccession_iff_of_successive (hn : 1 ≤ n) (hdelay : Expressible delayMs)
    (hlimited : Limited deeds t)
    (h : Successive (fun i => (loop i).Ends) runId (gap delayMs) 0 (n - 1) t (raisedOf result)) :
    InSuccession (fun i => (loop i).Ends) runId n delayMs deeds (raisedOf result) ↔
      n = 1 ∨ Precise delayMs ∨ FirstFails (fun i => (loop i).Ends) deeds := by
  constructor
  · rintro ⟨t', hlimited', hpaused⟩
    obtain rfl := hlimited.unique hlimited'
    rcases hpaused.first with ⟨t₁, e, h₁, rfl, -⟩ | ⟨-, hzero, -⟩ | ⟨t₁, t₂, h₁, hpos, ht⟩
    · exact .inr (.inr ⟨t₁, _, e, hlimited, h₁⟩)
    · exact .inl (by omega)
    -- The delay after the first loop index is the one that was kept.
    · rcases h.first with ⟨t₃, e, h₃, ht', -⟩ | ⟨-, hzero, -⟩ | ⟨t₃, t₄, h₃, -, ht'⟩
      · cases (h₁.eq_of_append h₃ (ht.symm.trans ht')).2
      · omega
      · have heq := ht.symm.trans ht'
        obtain ⟨rfl, -⟩ := h₁.eq_of_append h₃ heq
        exact .inr (.inl (hdelay.precise (List.append_cancel_left heq)))
  · rintro (rfl | hprecise | ⟨t₁, t₂, e, hlimited', h₁⟩)
    · exact ⟨t, hlimited, h.of_first _ fun _ _ _ hpos => absurd hpos (Nat.lt_irrefl 0)⟩
    · exact ⟨t, hlimited, gap_of_precise hprecise ▸ h⟩
    · obtain rfl := hlimited'.unique hlimited
      refine ⟨_, hlimited, h.of_first _ fun t₃ t₄ h₃ _ heq => ?_⟩
      cases (h₁.eq_of_append h₃ heq).2

/-- Unless they are interrupted, loop indices of which one is executed after another are in
succession exactly when a number of seconds says exactly how long the delay is, or there is none. -/
theorem inSuccession_iff (hn : 1 ≤ n) (hlimited : Limited deeds t)
    (hends : (sequentially loop runId delayMs 0 (n - 1)).Ends t result)
    (hcalm : ∀ a d b, t ≠ a ++ .wait (.sleep d) :: .wake .interrupted :: b) :
    InSuccession (fun i => (loop i).Ends) runId n delayMs deeds (raisedOf result) ↔
      n = 1 ∨ Precise delayMs ∨ FirstFails (fun i => (loop i).Ends) deeds := by
  by_cases hdelay : Expressible delayMs
  · exact inSuccession_iff_of_successive hn hdelay hlimited
      (successive_of_sequentially hdelay hends hcalm)
  generalize hremaining : n - 1 = remaining at hends
  cases onwards_of_sequentially hends with
  | @failed _ t₁ e h₁ hraised =>
    refine iff_of_true ⟨_, hlimited, ?_⟩ (.inr (.inr ⟨t₁, _, e, hlimited, h₁⟩))
    rw [hraised]
    exact .failed runId _ _ h₁
  | last h₁ hresult =>
    refine iff_of_true ⟨t, hlimited, ?_⟩ (.inl (by omega))
    subst hresult
    rw [hremaining]
    exact .last runId _ h₁
  | next _ hpause => exact absurd (eq_gap_of_delay hpause).2 hdelay
  | @halted _ t₁ t₂ e h₁ hhalt hresult =>
    -- The first loop index is the last one that is executed, and it has succeeded.
    obtain ⟨rfl, -⟩ := eq_nil_of_delay hhalt fun a d b heq => hcalm (t₁ ++ a) d b (by simp [heq])
    refine iff_of_false ?_ ?_
    · rintro ⟨t', hlimited', hpaused⟩
      obtain rfl := hlimited.unique hlimited'
      rcases hpaused.first with ⟨t₃, e, h₃, ht, -⟩ | ⟨-, hzero, -⟩ | ⟨t₃, t₄, h₃, -, ht⟩
      · cases (h₁.eq_of_append h₃ ht).2
      · omega
      · obtain ⟨rfl, -⟩ := h₁.eq_of_append h₃ ht
        have hnil := List.append_cancel_left ht
        rw [pause, if_neg fun hzero => hdelay (.inl hzero)] at hnil
        cases hnil
    · rintro (rfl | hprecise | ⟨t₃, t₄, e, hlimited', h₃⟩)
      · omega
      · exact hdelay hprecise.expressible
      · cases (h₁.eq_of_append h₃ (hlimited.unique hlimited')).2

end Sequentially

/-! ### The shared variables -/

/-- What deeds make of the shared variables. -/
def globalsThrough (globals : Fields) (t : List Deed) : Fields :=
  t.foldl (fun globals d =>
    match d with
    | .call c reply => globalsAfter globals c reply
    | _ => globals) globals

/-- When loop indices do nothing, the main task alone changes the shared variables. -/
theorem through_of_alone {σ : Type} (env : Collaborators σ) (globals : Fields) {h : List Happening}
    (halone : ∀ i, deedsOf (some i) h = []) :
    (globalsWatch env).through globals h = globalsThrough globals (deedsOf none h) := by
  induction h generalizing globals with
  | nil => rfl
  | cons x h ih =>
    have hsplit (who : Option Nat) : deedsOf who (x :: h) = deedsOf who [x] ++ deedsOf who h :=
      deedsOf_append who [x] h
    have hrest (i : Nat) : deedsOf (some i) h = [] :=
      (List.append_eq_nil_iff.mp (hsplit (some i) ▸ halone i)).2
    have hnext := ih ((globalsWatch env).next globals x) hrest
    rw [hsplit, globalsThrough, List.foldl_append]
    rcases x with ⟨_ | i, d⟩ | _ | _ | _
    case deed.some =>
      have hnobody := (List.append_eq_nil_iff.mp (hsplit (some i) ▸ halone i)).1
      simp [deedsOf] at hnobody
    case deed.none => cases d <;> exact hnext
    all_goals exact hnext

/-! ### In every schedule -/

section Schedules

variable {σ : Type} {env : Collaborators σ} {r : Runner} {automation : Automation}
  {record : RunRecord} {shared : Shared σ} {h : List Happening} {s : State σ Ended} {e : Ended}
  {config : AutomationConfig}

/-- A sequential run that nobody interrupts goes through its loop indices under its time limit, and
is finished in accordance with what they come to. -/
theorem Scheduled.limited (hregistry : r.registry.Proper)
    (hs : Scheduled env r automation record shared h s) (he : s.main = .ended e)
    (hnone : .alarm .interrupt ∉ h)
    (hparse : AutomationConfig.parse automation.config = .ok config)
    (hmode : config.runMode = .sequential) :
    ∃ t result, Limited (deedsOf none h) t ∧
      (sequentially (Loop.run r automation config record.id) record.id config.multirun.delayMs 0
        (config.runCount - 1)).Ends t result ∧
      (∀ a d b, t ≠ a ++ .wait (.sleep d) :: .wake .interrupted :: b) ∧
      e.raised = raisedOf result ∧
      ∀ failure, e.raised = some failure → e.record.errorMessage = recorded failure := by
  obtain ⟨now, before, t, after, channels, result, snapshot, end', hdeeds, hbegins, hcame,
    hconclude, rfl⟩ := hs.finishes hregistry he hnone
  obtain ⟨hknown, hne, -, -⟩ := hcame.decides hregistry hs he hnone hdeeds
  have hcalm := (State.Reaches.calm (joinsOnce_run hregistry automation record) hs hnone
    (hs.loopsApart hregistry)).main.undisturbed
  cases hcame with
  | faulty hparse' =>
    rw [hparse] at hparse'
    cases hparse'
  | gone hparse' hloops =>
    rw [hparse] at hparse'
    cases hparse'
    obtain ⟨ms, reason, t', rfl, hwent⟩ := ends_loops hloops
    cases hwent with
    | interrupted => exact absurd rfl hne
    | parallel hmode' =>
      rw [hmode] at hmode'
      cases hmode'
    | sequential _ hends =>
      have haside : Aside (before ++ after) := fun d hd =>
        (List.mem_append.mp hd).elim (hbegins.aside d) (aside_of_conclude hconclude d)
      have hsplit : deedsOf none h = before ++ .call (.armTimeout ms reason) () ::
          (t' ++ .call .disarmTimeout () :: after) := by simp [hdeeds]
      refine ⟨t', result, .intro hsplit haside, hends, fun a d b ht => ?_, rfl,
        fun _ hraised => errorMessage_of_raised hknown hne hraised _ _ _⟩
      refine hcalm.not_interrupted (.sleep d) nofun nofun
        (before ++ .call (.armTimeout ms reason) () :: a) (b ++ .call .disarmTimeout () :: after) ?_
      simp [hdeeds, ht]

/-- In a sequential run no other task executes a loop index. -/
theorem Scheduled.alone (hregistry : r.registry.Proper)
    (hs : Scheduled env r automation record shared h s) (he : s.main = .ended e) {t : List Deed}
    {config : AutomationConfig} {result : Except Failure (Option RunError)}
    (hlimited : Limited (deedsOf none h) t)
    (hends : (sequentially (Loop.run r automation config record.id) record.id
      config.multirun.delayMs 0 (config.runCount - 1)).Ends t result) (i : Nat) :
    deedsOf (some i) h = [] := by
  have hnone := (lawful_sequential (indexed_broad.steers hregistry automation) hends).joins
  rcases State.Reaches.accounted (joinsOnce_run hregistry automation record) hs he with
    ⟨-, hsilent⟩ | ⟨hone, -⟩
  · exact hsilent i
  · rw [hlimited.joins, hnone] at hone
    cases hone

/-- Whenever the main task looks at the shared variables, when no other task does anything, they are
what it has made of them until then. -/
theorem Scheduled.globals (hs : Scheduled env r automation record shared h s)
    (halone : ∀ i, deedsOf (some i) h = []) {a b : List Deed} {globals : Fields}
    (hlook : deedsOf none h = a ++ .call .globals globals :: b) :
    globals = globalsThrough shared.globals a := by
  obtain ⟨k, k', rfl, rfl⟩ := exists_split_of_deedsOf hlook
  have hwatched := State.Reaches.watched (globalsWatch env) hs (State.distinct_start _ _)
  obtain ⟨s', hsees, hreply⟩ := hwatched.found rfl
  have hbefore (i : Nat) : deedsOf (some i) k = [] := by
    have hnobody := halone i
    rw [deedsOf_append] at hnobody
    exact (List.append_eq_nil_iff.mp hnobody).1
  rw [← through_of_alone env shared.globals hbefore]
  exact hreply.trans hsees

end Schedules

/-- Without steps, and without a picture at the end, a loop index fails only with an error that the
runner knows. -/
theorem error_of_runs {r : Runner} {automation : Automation} {config : AutomationConfig}
    {runId : String} {i : Nat} {t : List Deed} {f : Failure}
    (hsteps : automation.orderedSteps = []) (hpicture : config.screenshots.onSuccess = false)
    (h : Loop.Runs r automation config runId i t (.error f)) : ∃ e, f = .error e := by
  obtain ⟨now, t', s', rfl, hends⟩ := h
  have hnothing :
      Loop.runSteps r (Loop.contextOf r automation config runId i now) [] = pure () := by
    have hoff : (Loop.contextOf r automation config runId i now).config.screenshots.onSuccess =
        false := hpicture
    rw [Loop.runSteps, hoff]
    rfl
  rw [hsteps, hnothing, Loop.inSession] at hends
  split at hends
  · cases (Act.ends_pure_iff.mp hends).2.1
  · obtain ⟨reply, t₁, rfl, h₁⟩ := Act.ends_ask_bind_iff.mp hends
    cases reply with
    | error e =>
      cases (Act.ends_fail_iff.mp h₁).2.1
      exact ⟨_, rfl⟩
    | ok =>
      change (Act.ask (.closeSession i) >>= fun _ => Act.ofExcept (.ok ())).Ends _ _ _ _ at h₁
      obtain ⟨_, t₂, rfl, h₂⟩ := Act.ends_ask_bind_iff.mp h₁
      cases (Act.ends_ofExcept_iff.mp h₂).2.1

/-- An automation that runs twice, one after another, with a delay in between and without steps. -/
def paused (delayMs : Nat) : Automation :=
  { emptyAutomation with config := .object [("multirun", .object [
      ("enabled", .bool true), ("count", .int 2), ("delay_ms", .int delayMs)])] }

theorem orderedSteps_paused (delayMs : Nat) : (paused delayMs).orderedSteps = [] := by
  simp [Automation.orderedSteps, byRank, paused, emptyAutomation]

/-- What happens in a run with a delay of one and a half seconds. -/
def keptWaiting : List Happening × State World Ended :=
  State.carryOut World.collaborators (loopProgram sampleRunner (paused 1500) sampleRecord.id)
    [.main, .alarm .wakeMain, .main, .consumer, .main, .ticker, .main]
    (State.start (sampleShared 1704067200000) (run sampleRunner (paused 1500) sampleRecord))

/-- What happens in a run with a delay that there is no number of seconds for. -/
def cutOff : List Happening × State World Ended :=
  State.carryOut World.collaborators
    (loopProgram sampleRunner (paused (10 ^ 399)) sampleRecord.id)
    [.main, .consumer, .main, .ticker, .main]
    (State.start (sampleShared 1704067200000) (run sampleRunner (paused (10 ^ 399)) sampleRecord))

/-- Whether a run raises a failure that the runner does not know. -/
def raisesFault (e : Ended) : Bool :=
  match e.raised with
  | some (.fault _) => true
  | _ => false

end Whole

end Runbook
