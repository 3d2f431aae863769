import Runbook.Proofs.Forking
import Runbook.Proofs.Notices
import Runbook.Proofs.Outcomes

/-!
# Loop indices all at once

A parallel run starts all of its loop indices and goes on when each of them has come to its own end.
Nobody ends early because another one fails. Two orders decide what the run raises: failures that
the runner knows count in the order in which loop indices finish, and those that it does not know in
the order of their numbers.

* `Whole.Executed`: a loop index has been executed once, from beginning to end, without being
  interrupted.
* `Whole.Terminal`: the failure that a parallel run comes to, given the results of its loop indices.
* `Whole.all_executed`: every loop index is executed, and the run comes to its terminal failure when
  all have finished.
-/

namespace Runbook

open Program Schedule Rehearsal

/-- A call that only the execution of a loop index makes. -/
def Call.Executes (c : Call) : Prop := c.Indexed ∧ ¬ c.Aside

namespace Whole

/-! ### What one loop index does -/

/-- What is logged of the result of a loop index that runs along with others. -/
def loopFailed (runId : String) (i : Nat) : Except Failure Unit → List Deed
  | .error (.error e) => [.call (.log (.error "loop_failed" [
      ("run_id", .text runId), ("loop_index", .nat i), ("error", .text e.message)])) ()]
  | _ => []

/-- A loop index that runs along with others is executed, and a failure that the runner knows is
logged. -/
theorem ends_alongside_iff {loop : Nat → Program (Except Failure Unit)} {runId : String} {i : Nat}
    {t : List Deed} {o : Option Failure} : (alongside loop runId i).Ends t o ↔
      ∃ t' result, t = t' ++ loopFailed runId i result ∧ (loop i).Ends t' result ∧
        o = failureOf result := by
  rw [alongside, ends_bind_iff]
  constructor
  · rintro ⟨t₁, result, t₂, rfl, h₁, h₂⟩
    refine ⟨t₁, result, ?_⟩
    rcases result with (e | f | _) | _
    · obtain ⟨_, t₃, rfl, h₃⟩ := ends_ask_bind_iff.mp h₂
      obtain ⟨rfl, rfl⟩ := ends_pure_iff.mp h₃
      exact ⟨rfl, h₁, rfl⟩
    all_goals
      obtain ⟨rfl, rfl⟩ := ends_pure_iff.mp h₂
      exact ⟨rfl, h₁, rfl⟩
  · rintro ⟨t', result, rfl, h, rfl⟩
    refine ⟨t', result, _, rfl, h, ?_⟩
    rcases result with (e | f | _) | _
    · exact ends_ask_bind_iff.mpr ⟨(), [], rfl, ends_pure_iff.mpr ⟨rfl, rfl⟩⟩
    all_goals exact ends_pure_iff.mpr ⟨rfl, rfl⟩

/-- In a history a loop index has been executed once, from its beginning to its end, and nobody has
interrupted it. -/
def Executed (loop : Nat → Program (Except Failure Unit)) (runId : String) (h : List Happening)
    (i : Nat) (result : Except Failure Unit) : Prop :=
  ∃ t, (loop i).Ends t result ∧ Undisturbed (fun _ _ => False) t ∧
    deedsOf (some i) h = t ++ loopFailed runId i result

theorem eq_of_failureOf_eq {result result' : Except Failure Unit}
    (h : failureOf result = failureOf result') : result = result' := by
  cases result <;> cases result' <;> cases h <;> rfl

section Executed

variable {loop : Nat → Program (Except Failure Unit)} {runId : String} {h : List Happening}
  {i : Nat}

/-- A loop index has one result. -/
theorem Executed.unique {result result' : Except Failure Unit}
    (hresult : Executed loop runId h i result) (hresult' : Executed loop runId h i result') :
    result = result' := by
  obtain ⟨t, hends, -, hdeeds⟩ := hresult
  obtain ⟨t', hends', -, hdeeds'⟩ := hresult'
  exact eq_of_failureOf_eq ((ends_alongside_iff.mpr ⟨t, result, hdeeds, hends, rfl⟩).unique
    (ends_alongside_iff.mpr ⟨t', result', hdeeds', hends', rfl⟩))

theorem executed_of_ends {o : Option Failure}
    (hends : (alongside loop runId i).Ends (deedsOf (some i) h) o)
    (hundisturbed : Undisturbed (fun _ _ => False) (deedsOf (some i) h)) :
    ∃ result, Executed loop runId h i result ∧ o = failureOf result := by
  obtain ⟨t, result, hdeeds, hloop, rfl⟩ := ends_alongside_iff.mp hends
  refine ⟨result, ⟨t, hloop, fun a w b ht => ?_, hdeeds⟩, rfl⟩
  refine hundisturbed a w (b ++ loopFailed runId i result) ?_
  rw [hdeeds, ht]
  simp

end Executed

/-! ### What all loop indices come to -/

/-- The failure that `n` loop indices come to that ran all at once. -/
inductive Terminal (executed : Nat → Except Failure Unit → Prop) (h : List Happening) (n : Nat) :
    Option Failure → Prop
  /-- Every loop index succeeds. -/
  | returned (hall : ∀ i < n, executed i (.ok ())) : Terminal executed h n none
  /-- The failure of a loop index is one that the runner does not know, and there is no smaller loop
  index with such a failure. -/
  | crashed {i : Nat} {f : Failure} (hi : i < n) (hfails : executed i (.error f))
      (hunknown : Unknown f)
      (hleast : ∀ j f', j < i → executed j (.error f') → ¬ Unknown f') :
      Terminal executed h n (some f)
  /-- The runner knows the failures of all loop indices that fail, and this one fails first. -/
  | failed {i : Nat} {e : RunError} (hi : i < n) (hfails : executed i (.error (.error e)))
      (hknown : ∀ j f, j < n → executed j (.error f) → ¬ Unknown f)
      (hfirst : ∀ j f, j < n → executed j (.error f) → j ≠ i → FinishesBefore h i j) :
      Terminal executed h n (some (.error e))

/-- Loop indices come to one failure at most. -/
theorem Terminal.unique {executed : Nat → Except Failure Unit → Prop} {h : List Happening} {n : Nat}
    {o o' : Option Failure} (hunique : ∀ i r r', executed i r → executed i r' → r = r')
    (ho : Terminal executed h n o) (ho' : Terminal executed h n o') : o = o' := by
  have hok {i : Nat} {f : Failure} {P : Prop} (hall : ∀ i < n, executed i (.ok ())) (hi : i < n)
      (hf : executed i (.error f)) : P := nomatch hunique i _ _ (hall i hi) hf
  cases ho with
  | returned hall =>
    cases ho' with
    | returned => rfl
    | crashed hi hf => exact hok hall hi hf
    | failed hi hf => exact hok hall hi hf
  | @crashed i f hi hf hunknown hleast =>
    cases ho' with
    | returned hall => exact hok hall hi hf
    | @crashed j f' hj hf' hunknown' hleast' =>
      rcases Nat.lt_trichotomy i j with hij | rfl | hji
      · exact absurd hunknown (hleast' i f hij hf)
      · cases hunique i _ _ hf hf'
        rfl
      · exact absurd hunknown' (hleast j f' hji hf')
    | failed _ _ hknown => exact absurd hunknown (hknown i f hi hf)
  | @failed i e hi hf hknown hfirst =>
    cases ho' with
    | returned hall => exact hok hall hi hf
    | crashed hj hf' hunknown => exact absurd hunknown (hknown _ _ hj hf')
    | @failed j e' hj hf' hknown' hfirst' =>
      by_cases hij : i = j
      · subst hij
        cases hunique i _ _ hf hf'
        rfl
      · exact absurd (hfirst' i _ hi hf hij) (hfirst j _ hj hf' (Ne.symm hij)).asymm

/-- What is made of the ends of loop indices, in the order in which they finish, is their terminal
failure. -/
theorem terminal_of_joined {executed : Nat → Except Failure Unit → Prop} {h : List Happening}
    {n : Nat} {outs : List (Nat × Option Failure)}
    (hunique : ∀ i r r', executed i r → executed i r' → r = r')
    (hall : ∀ i < n, ∃ o, (i, o) ∈ outs) (hbelow : ∀ i o, (i, o) ∈ outs → i < n)
    (htrue : ∀ i o, (i, o) ∈ outs → ∃ result, executed i result ∧ o = failureOf result)
    (hturn : InTurn h outs) : Terminal executed h n (raisedOf (joined outs)) := by
  have herror {i : Nat} {f : Failure} (hm : (i, some f) ∈ outs) : executed i (.error f) := by
    obtain ⟨result, hresult, ho⟩ := htrue i _ hm
    cases result <;> cases ho
    exact hresult
  have hmem {i : Nat} {f : Failure} (hi : i < n) (hf : executed i (.error f)) :
      (i, some f) ∈ outs := by
    obtain ⟨o, hm⟩ := hall i hi
    obtain ⟨result, hresult, rfl⟩ := htrue i o hm
    cases hunique i _ _ hresult hf
    exact hm
  cases hraised : raisedOf (joined outs) with
  | none =>
    refine .returned fun i hi => ?_
    obtain ⟨o, hm⟩ := hall i hi
    obtain ⟨result, hresult, rfl⟩ := htrue i o hm
    have hnone := none_of_joined hraised hm
    cases result <;> cases hnone
    exact hresult
  | some failure =>
    rcases chosen_of_joined hraised with ⟨i, hm, hunknown, hleast⟩ |
      ⟨⟨before, i, after, hsplit, hbefore⟩, hknown⟩
    · refine .crashed (hbelow i _ hm) (herror hm) hunknown fun j f hj hf hunknown' => ?_
      have hle := hleast j f (hmem (Nat.lt_trans hj (hbelow i _ hm)) hf) hunknown'
      omega
    · have hm : (i, some failure) ∈ outs := by simp [hsplit]
      have herr : ∃ e, failure = .error e := by
        cases failure with
        | error e => exact ⟨e, rfl⟩
        | _ => exact absurd (fun _ => nofun) (hknown i _ hm)
      obtain ⟨e, rfl⟩ := herr
      refine .failed (hbelow i _ hm) (herror hm) (fun j f hj hf => hknown j f (hmem hj hf))
        fun j f hj hf hne => ?_
      -- Whoever else fails is not before this one in the list, and so it finishes after it.
      have hj := hmem hj hf
      rw [InTurn, hsplit, List.pairwise_append, List.pairwise_cons] at hturn
      rw [hsplit] at hj
      rcases List.mem_append.mp hj with hj | hj
      · cases hbefore _ hj
      · rcases List.mem_cons.mp hj with heq | hj
        · exact absurd (Prod.mk.inj heq).1 hne
        · exact hturn.2.1.1 _ hj

/-! ### Parallel runs -/

theorem count_of_parallel {config : AutomationConfig} (hmode : config.runMode = .parallel) :
    2 ≤ config.runCount := by
  rw [AutomationConfig.runMode] at hmode
  split at hmode
  · rename_i hboth
    rw [Bool.and_eq_true] at hboth
    rw [AutomationConfig.runCount, if_pos hboth.1]
    exact of_decide_eq_true hboth.2
  · cases hmode

theorem loopProgram_ne_done {r : Runner} {automation : Automation} {config : AutomationConfig}
    (hparse : AutomationConfig.parse automation.config = .ok config) (runId : String) (i : Nat)
    (o : Option Failure) : loopProgram r automation runId i ≠ .done o := by
  rw [loopProgram, hparse]
  exact nofun

/-- The finished record tells of the failure that is raised. -/
theorem errorMessage_of_raised {result : Except Failure (Option RunError)} {failure : Failure}
    (hknown : ∀ f, result = .error f → Unknown f) (hne : result ≠ .error .interrupted)
    (hraised : raisedOf result = some failure) (r : RunRecord) (snapshot : Snapshot) (now : Rat) :
    (finished r snapshot now (endingOf result)).errorMessage = recorded failure := by
  have hverdict := verdict_of_raised (fun f hf => ⟨hknown f hf, fun heq => hne (heq ▸ hf)⟩) hraised
    r.errorMessage
  exact congrArg Prod.snd hverdict

section Schedules

variable {σ : Type} {env : Collaborators σ} {r : Runner} {automation : Automation}
  {record : RunRecord} {shared : Shared σ} {h : List Happening} {s : State σ Ended} {e : Ended}
  {config : AutomationConfig}

/-- A parallel run that nobody interrupts waits for its loop indices, is told of their ends, and is
finished in accordance with them. -/
theorem Scheduled.joins (hregistry : r.registry.Proper)
    (hs : Scheduled env r automation record shared h s) (he : s.main = .ended e)
    (hnone : .alarm .interrupt ∉ h)
    (hparse : AutomationConfig.parse automation.config = .ok config)
    (hmode : config.runMode = .parallel) :
    ∃ before after outs,
      deedsOf none h = before ++ .wait (.loops config.runCount) :: .wake .resumed :: after ∧
      .call .outcomes outs ∈ after ∧
      (∀ c reply, .call c reply ∈ before ++ after → ¬ c.Executes) ∧
      e.raised = raisedOf (joined outs) ∧
      ∀ failure, e.raised = some failure → e.record.errorMessage = recorded failure := by
  obtain ⟨now, before, t, after, channels, result, snapshot, end', hdeeds, hbegins, hcame,
    hconclude, rfl⟩ := hs.finishes hregistry he hnone
  obtain ⟨hknown, hne, -, -⟩ := hcame.decides hregistry hs he hnone hdeeds
  cases hcame with
  | faulty hparse' =>
    rw [hparse] at hparse'
    cases hparse'
  | gone hparse' hloops =>
    rw [hparse] at hparse'
    cases hparse'
    obtain ⟨ms, reason, t', rfl, hwent⟩ := ends_loops hloops
    cases hwent with
    | sequential hmode' =>
      rw [hmode] at hmode'
      cases hmode'
    | interrupted => exact absurd rfl hne
    | @parallel outs =>
      refine ⟨before ++ [.call (.armTimeout ms reason) ()],
        .call .outcomes outs :: .call .disarmTimeout () :: after, outs, by simp [hdeeds], by simp,
        fun c reply hm hc => ?_, rfl,
        fun _ hraised => errorMessage_of_raised hknown hne hraised _ _ _⟩
      simp only [List.mem_append, List.mem_cons, List.not_mem_nil, or_false, Deed.call.injEq] at hm
      rcases hm with (hm | ⟨rfl, -⟩) | ⟨rfl, -⟩ | ⟨rfl, -⟩ | hm
      · exact hc.2 (hbegins.aside _ hm)
      · exact hc.1
      · exact hc.1
      · exact hc.1
      · exact hc.2 (aside_of_conclude hconclude _ hm)

/-- When a parallel run has ended, each of its loop indices has been executed, what the run was told
of their ends is true and complete, and it was told in the order in which they finished. -/
theorem Scheduled.told (hregistry : r.registry.Proper)
    (hs : Scheduled env r automation record shared h s) (he : s.main = .ended e)
    (hnone : .alarm .interrupt ∉ h)
    (hparse : AutomationConfig.parse automation.config = .ok config) {before after : List Deed}
    {n : Nat} {outs : List (Nat × Option Failure)}
    (hdeeds : deedsOf none h = before ++ .wait (.loops n) :: after)
    (houts : .call .outcomes outs ∈ after) :
    (∀ i < n, ∃ o, (i, o) ∈ outs) ∧ (∀ i o, (i, o) ∈ outs → i < n) ∧
      (∀ i, n ≤ i → deedsOf (some i) h = []) ∧
      (∀ i o, (i, o) ∈ outs → ∃ result,
        Executed (Loop.run r automation config record.id) record.id h i result ∧
          o = failureOf result) ∧
      InTurn h outs := by
  have honce := joinsOnce_run hregistry automation record
  have hapart := hs.loopsApart hregistry
  have hcalm := State.Reaches.calm honce hs hnone hapart
  have hkeys : s.loops.map Prod.fst = List.range n :=
    State.Reaches.keys_eq_range honce hs (hdeeds ▸ by simp)
  have hbelow {i : Nat} {task : Schedule.Task (Option Failure)} (hm : (i, task) ∈ s.loops) :
      i < n :=
    List.mem_range.mp (hkeys ▸ List.mem_map_of_mem hm)
  have hone := State.Reaches.countP_joins_le honce hs
  cases State.Reaches.joining honce hs rfl rfl with
  | before hno =>
    rw [hdeeds, List.countP_append, List.countP_cons_of_pos rfl] at hno
    omega
  | during _ _ _ hjoins =>
    obtain ⟨m, k, hmain⟩ := hjoins
    rw [he] at hmain
    cases hmain
  | after u m u' hu _ hforked hall htold =>
    rw [hdeeds] at hone hu
    obtain ⟨rfl, rfl, rfl⟩ := State.eq_and_eq_of_one_join hone hu
    obtain rfl := htold outs houts
    refine ⟨fun i hi => ?_, fun i o hm => hbelow (hforked.known.mp hm), fun i hi => ?_,
      fun i o hm => ?_, ?_⟩
    · obtain ⟨⟨j, task⟩, hm, rfl⟩ := List.mem_map.mp (hkeys ▸ List.mem_range.mpr hi)
      have hsome := hall _ hm
      cases task with
      | ended o => exact ⟨o, hforked.known.mpr hm⟩
      | _ => cases hsome
    · exact hforked.silent fun task hm => absurd (hbelow hm) (Nat.not_lt.mpr hi)
    · have hloop := hcalm.loops (hforked.known.mp hm)
      have hends := hloop.reached.ends
      rw [loopProgram, hparse] at hends
      exact executed_of_ends hends hloop.undisturbed
    · exact State.Reaches.outcomes_inTurn honce (loopProgram_ne_done hparse record.id) hs hnone
        hapart hforked

end Schedules

/-- An automation that runs twice at once, with an action of a type that nobody knows. -/
def doomed : Automation :=
  { id := "auto-1", name := "Auto"
    config := .object [("multirun", .object [
      ("enabled", .bool true), ("mode", .text "parallel"), ("count", .int 2)])]
    steps := [{ id := "s0", name := "Step 0", actions := [
      { id := "a0", actionType := "playwright:unheard_of" }] }] }

/-- What happens in a rehearsal until the second loop index has failed. -/
def secondFailed : List Happening × State World Ended :=
  State.carryOut World.collaborators (loopProgram sampleRunner doomed sampleRecord.id)
    [.main, .loop 1] (State.start (sampleShared 1704067200000) (run sampleRunner doomed sampleRecord))

/-- What happens in it afterwards. -/
def firstFailed : List Happening × State World Ended :=
  State.carryOut World.collaborators (loopProgram sampleRunner doomed sampleRecord.id)
    [.loop 0, .loopEnded, .loopEnded, .main, .consumer, .main, .ticker, .main] secondFailed.2

end Whole

end Runbook
