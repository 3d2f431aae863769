import Runbook.Proofs.Magnitudes
import Runbook.Proofs.Succession

/-!
# Spans of time

The settings of an automation state two spans of time, the time limit of a run and the delay between
two loop indices. Both have a least value and no greatest one. A timer counts exactly, so that every
time limit can be set. A delay is turned into a number of seconds first, and from
`1000 * Binary64.beyond` milliseconds on there is none. Then a run that comes to its first delay is
broken off there, with a fault that is no loop index's.

* `AutomationConfig.parse_spanned`: time limits and delays of any size are accepted.
* `AutomationConfig.Overlong`: a delay follows the first loop index, and it is too long.
* `Whole.BrokenOff`: a run succeeds in its first loop index and fails at the delay after it.
* `Whole.spans_of_time`: the faults that a run with accepted settings raises.
-/

namespace Runbook

open Program Schedule Rehearsal

/-! ### Settings of any size -/

namespace Kind

variable {write : Json → String}

theorem check_integer_of_le {least i : Int} (h : least ≤ i) :
    check write (.integer (some least) none) (.int i) = .ok (.int i) := by
  have hbelow : (some least).filter (i < ·) = none := by simp [h]
  simp only [check, checkInteger, toInteger, hbelow]
  rfl

/-- A field whose value passes its check is taken over. -/
theorem checkField_of_check {name key : String} {otherKey : Option String} {kind : Kind}
    {default : Option Json} {preparation : Preparation} {raw : Fields} {x y : Json}
    (hgiven : (Field.mk name otherKey kind default preparation).given? raw = some (key, x))
    (h : check write kind (preparation.apply write x) = .ok y) :
    checkField write (.mk name otherKey kind default preparation) raw = .ok (name, y) := by
  simp only [checkField, hgiven, h]

end Kind

namespace AutomationConfig

/-- Settings with a time limit and a delay between two loop indices. -/
def spanned (timeoutS delayMs : Nat) : Json :=
  .object [("timeout", .int timeoutS), ("multirun", .object [
    ("enabled", .bool true), ("count", .int 2), ("delay", .int delayMs)])]

/-- Time limits from one second on and delays are accepted, whatever their size. -/
theorem parse_spanned {timeoutS delayMs : Nat} (h : 1 ≤ timeoutS) :
    parse (spanned timeoutS delayMs) =
      .ok { timeoutS, multirun := { enabled := true, count := 2, delayMs } } := by
  let write := Json.write .spaced
  let given : Fields := [("enabled", .bool true), ("count", .int 2), ("delay", .int delayMs)]
  let raw : Fields := [("timeout", .int timeoutS), ("multirun", .object given)]
  have hdelay : Kind.checkField write
      (aliased "delay_ms" "delay" (.integer (some 0) none) (.int 1000)) given =
        .ok ("delay_ms", .int delayMs) :=
    Kind.checkField_of_check rfl (Kind.check_integer_of_le (by omega))
  have htimeout : Kind.checkField write
      (aliased "timeout_s" "timeout" (.integer (some 1) none) (.int 300)) raw =
        .ok ("timeout_s", .int timeoutS) :=
    Kind.checkField_of_check rfl (Kind.check_integer_of_le (by omega))
  have hmultirun : Kind.checkField write (.withDefault "multirun" multiRunModel .null) raw =
      .ok ("multirun", .object [("enabled", .bool true), ("mode", .text "sequential"),
        ("count", .int 2), ("delay_ms", .int delayMs)]) := by
    refine Kind.checkField_of_check rfl ?_
    change multiRunModel.check write (.object given) = _
    rw [multiRunModel, Kind.check]
    simp only [Kind.checkFields, hdelay]
    rfl
  have hmodel : model.check write (.object raw) = .ok (.object [("variables", .list []),
      ("multirun", .object [("enabled", .bool true), ("mode", .text "sequential"),
        ("count", .int 2), ("delay_ms", .int delayMs)]), ("timeout_s", .int timeoutS),
      ("retries", .int 0), ("screenshots", .null), ("notifications", .list [])]) := by
    rw [model, Kind.check]
    simp only [Kind.checkFields, hmultirun, htimeout]
    rfl
  change ofObject raw = _
  simp only [ofObject, raw, List.isEmpty_cons]
  rw [hmodel]
  rfl

/-- A delay follows the first loop index, and it is so long that there is no number of seconds for
it. -/
def Overlong (config : AutomationConfig) : Prop :=
  config.runMode = .sequential ∧ 1 < config.runCount ∧
    1000 * Binary64.beyond ≤ config.multirun.delayMs

end AutomationConfig

theorem Loop.ends_run_eq (r : Runner) (automation : Automation) (config : AutomationConfig)
    (runId : String) :
    (fun i => (run r automation config runId i).Ends) = Runs r automation config runId := by
  funext i t result
  exact propext ends_run_iff

namespace Whole

/-! ### Delays -/

/-- The failure of a delay that there is no number of seconds for. -/
def tooLong : Failure := .fault ⟨.overflow, "integer division result too large for a float"⟩

theorem expressible_iff {ms : Nat} : Expressible ms ↔ ms < 1000 * Binary64.beyond := by
  have hpos := Binary64.beyond_pos
  have hnone : Duration.seconds? ms = none ↔ 1000 * Binary64.beyond ≤ ms :=
    Duration.seconds?_eq_none_iff
  rw [Expressible]
  constructor
  · rintro (rfl | ⟨seconds, hseconds⟩)
    · omega
    · refine Nat.not_le.mp fun hle => ?_
      rw [hnone.mpr hle] at hseconds
      cases hseconds
  · intro hlt
    exact .inr (Option.ne_none_iff_exists'.mp fun hms => absurd (hnone.mp hms) (by omega))

/-- A delay that there is no number of seconds for fails at once. -/
theorem ends_delay_of_not_expressible {ms : Nat} (hms : ¬Expressible ms) {t : List Deed}
    {x : Except Failure Unit} (h : (delay ms).Ends t x) : t = [] ∧ x = .error tooLong := by
  rw [Expressible, not_or, not_exists] at hms
  rw [delay, if_neg hms.1] at h
  split at h
  · exact ends_pure_iff.mp h
  · exact absurd ‹_› (hms.2 _)

/-! ### Loop indices one after another -/

section Sequentially

variable {loop : Nat → Program (Except Failure Unit)} {runId : String} {delayMs remaining i : Nat}
  {t : List Deed} {result : Except Failure (Option RunError)}

/-- A fault that is raised one after another is that of a loop index, or the first delay has
failed. -/
theorem fault_of_sequentially (h : (sequentially loop runId delayMs i remaining).Ends t result)
    {f : Fault} (hraised : raisedOf result = some (.fault f)) :
    (∃ j u, u <:+: t ∧ (loop j).Ends u (.error (.fault f))) ∨
      0 < remaining ∧ ¬Expressible delayMs ∧ .fault f = tooLong ∧ (loop i).Ends t (.ok ()) := by
  induction remaining generalizing i t with
  | zero =>
    cases onwards_of_sequentially h with
    | failed h₁ hfailed =>
      cases Option.some.inj (hfailed.symm.trans hraised)
      exact .inl ⟨i, _, List.infix_append' [] _ _, h₁⟩
    | last h₁ hresult =>
      rw [hresult] at hraised
      cases hraised
  | succ remaining ih =>
    cases onwards_of_sequentially h with
    | failed h₁ hfailed =>
      cases Option.some.inj (hfailed.symm.trans hraised)
      exact .inl ⟨i, _, List.infix_append' [] _ _, h₁⟩
    | @halted _ t₁ t₂ e h₁ hdelay hresult =>
      subst hresult
      cases hraised
      by_cases hms : Expressible delayMs
      · rcases error_of_delay hdelay with heq | ⟨hnone, -⟩
        · cases heq
        · rw [Duration.seconds?_eq_none_iff] at hnone
          exact absurd (expressible_iff.mp hms) (by omega)
      · obtain ⟨rfl, heq⟩ := ends_delay_of_not_expressible hms hdelay
        refine .inr ⟨Nat.succ_pos _, hms, Except.error.inj heq, ?_⟩
        rwa [List.append_nil]
    | @next _ t₁ t₂ t₃ h₁ hdelay hrest =>
      rcases ih hrest with ⟨j, u, hu, hends⟩ | ⟨-, hms, -⟩
      · exact .inl ⟨j, u, hu.trans (by
          rw [← List.append_assoc]
          exact (List.suffix_append _ _).isInfix), hends⟩
      · cases (ends_delay_of_not_expressible hms hdelay).2

/-- If there is no number of seconds for the delay, loop indices of which more than one is to be
executed come no further than the first one. -/
theorem first_of_sequentially (hms : ¬Expressible delayMs) (hpos : 0 < remaining)
    (h : (sequentially loop runId delayMs i remaining).Ends t result) :
    (∃ t₁ t₂ e, t = t₁ ++ t₂ ∧ (loop i).Ends t₁ (.error e)) ∨
      (loop i).Ends t (.ok ()) ∧ result = .error tooLong := by
  cases onwards_of_sequentially h with
  | failed h₁ => exact .inl ⟨_, _, _, rfl, h₁⟩
  | last => exact absurd hpos (Nat.lt_irrefl 0)
  | halted h₁ hdelay hresult =>
    obtain ⟨rfl, heq⟩ := ends_delay_of_not_expressible hms hdelay
    rw [List.append_nil]
    exact .inr ⟨h₁, hresult.trans (congrArg _ (Except.error.inj heq))⟩
  | next _ hdelay => cases (ends_delay_of_not_expressible hms hdelay).2

theorem ne_nil_of_sequentially (hloop : ∀ i t x, (loop i).Ends t x → t ≠ [])
    (h : (sequentially loop runId delayMs i remaining).Ends t result) : t ≠ [] := by
  cases onwards_of_sequentially h with
  | failed h₁ => simp [hloop _ _ _ h₁]
  | last h₁ => exact hloop _ _ _ h₁
  | halted h₁ => simp [hloop _ _ _ h₁]
  | next h₁ => simp [hloop _ _ _ h₁]

/-- If the first loop index succeeds and nothing happens afterwards, though something is raised,
there is no number of seconds for the delay. -/
theorem not_expressible_of_first (hloop : ∀ i t x, (loop i).Ends t x → t ≠ [])
    (h : (sequentially loop runId delayMs i remaining).Ends t result)
    (hfirst : (loop i).Ends t (.ok ())) (hraised : raisedOf result ≠ none) :
    0 < remaining ∧ ¬Expressible delayMs := by
  cases onwards_of_sequentially h with
  | failed h₁ => cases (h₁.eq_of_append hfirst (List.append_nil _).symm).2
  | last _ hresult => exact absurd (hresult ▸ rfl) hraised
  | halted h₁ hdelay =>
    obtain ⟨heq, -⟩ := h₁.eq_of_append hfirst (List.append_nil _).symm
    rw [List.self_eq_append_right.mp heq] at hdelay
    exact ⟨Nat.succ_pos _, (eq_nil_of_delay hdelay (by simp)).2⟩
  | next h₁ _ hrest =>
    obtain ⟨heq, -⟩ := h₁.eq_of_append hfirst (List.append_nil _).symm
    have hnil := (List.append_eq_nil_iff.mp (List.self_eq_append_right.mp heq)).2
    exact absurd hnil (ne_nil_of_sequentially hloop hrest)

/-- Unless they are interrupted or come to a delay that there is no number of seconds for, loop
indices are executed one after another with a gap in between. -/
theorem successive_of_short (hshort : remaining = 0 ∨ Expressible delayMs)
    (h : (sequentially loop runId delayMs i remaining).Ends t result)
    (hcalm : ∀ a d b, t ≠ a ++ .wait (.sleep d) :: .wake .interrupted :: b) :
    Successive (fun i => (loop i).Ends) runId (gap delayMs) i remaining t (raisedOf result) := by
  rcases hshort with rfl | hms
  · cases onwards_of_sequentially h with
    | failed h₁ hraised =>
      rw [hraised]
      exact .failed runId _ _ h₁
    | last h₁ hresult =>
      subst hresult
      exact .last runId _ h₁
  · exact successive_of_sequentially hms h hcalm

end Sequentially

/-! ### In every schedule -/

/-- Some loop index is executed, and it fails. -/
def FailsIn (executes : Nat → List Deed → Except Failure Unit → Prop) (h : List Happening)
    (failure : Failure) : Prop :=
  ∃ who i t, t <:+: deedsOf who h ∧ executes i t (.error failure)

/-- The first loop index succeeds and is the only one that is executed, because the delay after it
fails. -/
def BrokenOff (executes : Nat → List Deed → Except Failure Unit → Prop) (deeds : List Deed)
    (raised : Option Failure) : Prop :=
  ∃ t, Limited deeds t ∧ executes 0 t (.ok ()) ∧ raised = some tooLong

section Schedules

variable {σ : Type} {env : Collaborators σ} {r : Runner} {automation : Automation}
  {record : RunRecord} {shared : Shared σ} {h : List Happening} {s : State σ Ended} {e : Ended}
  {config : AutomationConfig}

/-- A fault that a run raises is that of a loop index, or of its first delay. -/
theorem Scheduled.fault (hregistry : r.registry.Proper)
    (hs : Scheduled env r automation record shared h s) (he : s.main = .ended e)
    (hparse : AutomationConfig.parse automation.config = .ok config) {f : Fault}
    (hraised : e.raised = some (.fault f)) :
    FailsIn (fun i => (Loop.run r automation config record.id i).Ends) h (.fault f) ∨
      config.Overlong ∧
        BrokenOff (fun i => (Loop.run r automation config record.id i).Ends) (deedsOf none h)
          e.raised := by
  rcases ends_run (hs.ends he) with ⟨now, reply, -, rfl⟩ |
    ⟨now, before, t, after, channels, result, hdeeds, hbegins, hcame, hconclude⟩
  · cases hraised
  have hresult : raisedOf result = some (.fault f) := by
    rcases judged_of_closed (ends_conclude hconclude) with ⟨-, heq⟩ | ⟨_, _, _, -, -, heq | heq⟩
    · cases heq.symm.trans hraised
    · exact heq.symm.trans hraised
    · cases heq.symm.trans hraised
  cases hcame with
  | faulty hparse' =>
    rw [hparse] at hparse'
    cases hparse'
  | gone hparse' hloops =>
    rw [hparse] at hparse'
    cases hparse'
    obtain ⟨ms, reason, t', rfl, hwent⟩ := ends_loops hloops
    have hsplit : deedsOf none h = before ++ .call (.armTimeout ms reason) () ::
        (t' ++ .call .disarmTimeout () :: after) := by simp [hdeeds]
    cases hwent with
    | interrupted => cases hresult
    | sequential hmode hends =>
      rcases fault_of_sequentially hends hresult with ⟨j, u, hu, hfails⟩ |
        ⟨hpos, hms, heq, hfirst⟩
      · refine .inl ⟨none, j, u, hu.trans ?_, hfails⟩
        rw [hsplit]
        exact ⟨before ++ [.call (.armTimeout ms reason) ()], .call .disarmTimeout () :: after,
          by simp⟩
      · have haside : Aside (before ++ after) := fun d hd =>
          (List.mem_append.mp hd).elim (hbegins.aside d) (aside_of_conclude hconclude d)
        rw [expressible_iff] at hms
        exact .inr ⟨⟨hmode, by omega, by omega⟩, t', .intro hsplit haside, hfirst,
          hraised.trans (congrArg some heq)⟩
    | @parallel outs hmode =>
      obtain ⟨i, ho⟩ := mem_of_joined hresult
      rcases State.Reaches.accounted (joinsOnce_run hregistry automation record) hs he with
        ⟨hnone, -⟩ | ⟨-, htrue⟩
      · rw [hsplit] at hnone
        simp [Deed.joins] at hnone
      · rcases (htrue (before ++ [.call (.armTimeout ms reason) ()]) config.runCount
          (.wake .resumed :: .call .outcomes outs :: .call .disarmTimeout () :: after) outs
          (by simp [hsplit]) (by simp)).ends ho with hends | ⟨-, heq⟩
        · rw [loopProgram, hparse] at hends
          obtain ⟨u, result, hu, hfails, heq⟩ := ends_alongside_iff.mp hends
          cases result with
          | ok => cases heq
          | error e =>
            cases heq
            exact .inl ⟨some i, i, u, hu ▸ List.infix_append' [] _ _, hfails⟩
        · cases heq

/-- A run that nobody interrupts sets its time limit. -/
theorem Scheduled.armed (hregistry : r.registry.Proper)
    (hs : Scheduled env r automation record shared h s) (he : s.main = .ended e)
    (hnone : .alarm .interrupt ∉ h)
    (hparse : AutomationConfig.parse automation.config = .ok config) :
    .call (.armTimeout ((config.timeoutS : Rat) * 1000)
      s!"automation timed out after {config.timeoutS}s") () ∈ deedsOf none h := by
  obtain ⟨now, before, t, after, channels, result, snapshot, end', hdeeds, -, hcame, -, -⟩ :=
    hs.finishes hregistry he hnone
  cases hcame with
  | faulty hparse' =>
    rw [hparse] at hparse'
    cases hparse'
  | gone hparse' hloops =>
    rw [hparse] at hparse'
    cases hparse'
    rw [loops] at hloops
    obtain ⟨_, t', rfl, -⟩ := ends_ask_bind_iff.mp hloops
    simp [hdeeds]

/-- A sequential run that nobody interrupts is broken off exactly when its delay is too long and its
first loop index does not fail; if the delay is not too long, all delays are slept through. -/
theorem Scheduled.broken_off_iff (hregistry : r.registry.Proper)
    (hs : Scheduled env r automation record shared h s) (he : s.main = .ended e)
    (hnone : .alarm .interrupt ∉ h)
    (hparse : AutomationConfig.parse automation.config = .ok config)
    (hmode : config.runMode = .sequential) :
    let executes := fun i => (Loop.run r automation config record.id i).Ends
    (BrokenOff executes (deedsOf none h) e.raised ↔
      config.Overlong ∧ ¬FirstFails executes (deedsOf none h)) ∧
    (¬config.Overlong → ∃ t, Limited (deedsOf none h) t ∧ Successive executes record.id
      (gap config.multirun.delayMs) 0 (config.runCount - 1) t e.raised) := by
  intro executes
  obtain ⟨t, result, hlimited, hends, hcalm, hraised, -⟩ :=
    hs.limited hregistry he hnone hparse hmode
  have hcount := AutomationConfig.one_le_runCount hparse
  have hshort (hnot : ¬config.Overlong) :
      config.runCount - 1 = 0 ∨ Expressible config.multirun.delayMs := by
    rw [expressible_iff]
    by_contra hboth
    exact hnot ⟨hmode, by omega, by omega⟩
  have hloop (i : Nat) (t : List Deed) (x : Except Failure Unit) (h : executes i t x) : t ≠ [] := by
    obtain ⟨now, t', s', rfl, -⟩ := Loop.ends_run_iff.mp h
    exact List.cons_ne_nil _ _
  refine ⟨⟨?_, ?_⟩, fun hnot =>
    ⟨t, hlimited, hraised ▸ successive_of_short (hshort hnot) hends hcalm⟩⟩
  · rintro ⟨t', hlimited', hfirst, htooLong⟩
    obtain rfl := hlimited'.unique hlimited
    rw [hraised] at htooLong
    obtain ⟨hpos, hms⟩ := not_expressible_of_first hloop hends hfirst (by simp [htooLong])
    rw [expressible_iff] at hms
    refine ⟨⟨hmode, by omega, by omega⟩, ?_⟩
    rintro ⟨t₁, t₂, e', hlimited₁, hfails⟩
    cases (hfails.eq_of_append hfirst
      ((hlimited₁.unique hlimited).trans (List.append_nil t').symm)).2
  · rintro ⟨⟨-, hmany, hlong⟩, hno⟩
    have hms : ¬Expressible config.multirun.delayMs := by
      rw [expressible_iff]
      omega
    rcases first_of_sequentially hms (by omega) hends with ⟨t₁, t₂, e', rfl, hfails⟩ | ⟨hfirst, rfl⟩
    · exact absurd ⟨t₁, t₂, e', hlimited, hfails⟩ hno
    · exact ⟨t, hlimited, hfirst, hraised⟩

end Schedules

end Whole

end Runbook
