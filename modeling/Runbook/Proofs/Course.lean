import Runbook.Proofs.Indices
import Runbook.Proofs.Joining

/-!
# The course of a run

What a run does falls into three parts: it begins, its loop indices come to a result, and it is
concluded. Loop indices run inside the main task or beside it, and only they dispatch actions, emit
events and look at the request to stop; only the main task saves the record, tells the channels and
waits for others.

* `Deed.Indexed`, `Deed.Aside`: what loop indices do, and what the main task does besides.
* `Whole.ends_loops`: what loop indices come to, one after another or all at once.
* `Whole.ends_run_around`: the three parts of a run.
* `Whole.joinsOnce_run`: a run waits for loop indices at most once.
* `Whole.Scheduled.exists_ends_main`, `Whole.Scheduled.exists_ends_loop`: at any moment, what a task
  has done can be gone on with to an end.
-/

namespace Runbook

open Program Schedule

/-! ### What loop indices do -/

/-- A call that a loop index makes. -/
def Call.Indexed : Call → Prop
  | .emit _ | .dispatched _ _ _ | .cancellation | .openSession _ | .closeSession _ => True
  | c => c.Plain

/-- A deed of a loop index: a call of its own, or a sleep. -/
def Deed.Indexed : Deed → Prop
  | .call c _ => c.Indexed
  | .wait w => ∃ ms, w = .sleep ms
  | .wake _ => True

/-- Nothing is done but what loop indices do. -/
def Indexed : Law := fun t _ => ∀ d ∈ t, d.Indexed

theorem indexed_broad : Indexed.Broad := by
  have happend {t t' : List Deed} (h : ∀ d ∈ t, d.Indexed) (h' : ∀ d ∈ t', d.Indexed) :
      ∀ d ∈ t ++ t', d.Indexed := fun d hd => (List.mem_append.mp hd).elim (h d) (h' d)
  have hone {d : Deed} (hd : d.Indexed) : ∀ d' ∈ [d], d'.Indexed :=
    List.forall_mem_singleton.mpr hd
  have hsleep {ms : Rat} {wake : Wake} :
      ∀ d ∈ [Deed.wait (.sleep ms), .wake wake], d.Indexed :=
    happend (t := [_]) (hone ⟨ms, rfl⟩) (hone trivial)
  exact {
    nil := List.forall_mem_nil _
    append := happend
    call {c r} hc := hone (by cases c <;> first | exact hc | trivial)
    fail _ := List.forall_mem_nil _
    file _ := hone trivial
    sleep := hsleep
    interrupted := hsleep
    go := hone trivial
    stop := hone trivial
    after h _ h' _ := happend h h'
    dispatched := hone trivial
    emit := hone trivial
    openSession := hone trivial
    close h := happend h (hone trivial) }

/-- Loop indices do not wait for each other. -/
theorem Indexed.joins {t : List Deed} {o : Option Failure} (h : Indexed t o) :
    t.countP Deed.joins = 0 := by
  refine List.countP_eq_zero.mpr fun d hd => ?_
  rcases d with _ | w | _
  case wait =>
    obtain ⟨ms, rfl⟩ := h _ hd
    simp [Deed.joins]
  all_goals simp [Deed.joins]

/-! ### What the main task does besides -/

/-- A call that the main task makes besides those of loop indices. -/
def Call.Aside : Call → Prop
  | .now | .log _ | .cancel _ _ | .save _ | .notify _ _ | .startAggregator _ | .snapshot
  | .closeQueue | .offerEnd | .stopConsumer | .stopTicker => True
  | _ => False

/-- A deed that has nothing to do with loop indices. -/
def Deed.Aside : Deed → Prop
  | .call c _ => c.Aside
  | .wait w => w.Aside
  | .wake _ => True

/-- Nothing is done that has to do with loop indices. -/
def Aside (t : List Deed) : Prop := ∀ d ∈ t, d.Aside

namespace Aside

variable {t : List Deed}

theorem of_only {α : Type} {p : Program α} (hp : p.Only Call.Aside Wait.Aside) {a : α}
    (h : p.Ends t a) : Aside t := by
  obtain ⟨-, hcalls, hwaits⟩ := hp.of_leads h
  intro d hd
  cases d with
  | call c r => exact hcalls c r hd
  | wait w => exact hwaits w hd
  | wake => trivial

theorem of_logs (h : ∀ d ∈ t, ∃ r, d = .call (.log r) ()) : Aside t := by
  intro d hd
  obtain ⟨r, rfl⟩ := h d hd
  trivial

theorem joins (h : Aside t) : t.countP Deed.joins = 0 := by
  refine List.countP_eq_zero.mpr fun d hd => ?_
  rcases d with _ | (_ | n | _ | _ | _ | _) | _
  case wait.loops => exact absurd rfl (h _ hd n)
  all_goals simp [Deed.joins]

/-- The main task itself does not look at the request to stop. -/
theorem looks (h : Aside t) (reply : Option Cancellation) : .call .cancellation reply ∉ t :=
  fun hm => h _ hm

end Aside

namespace Whole

/-- Concluding a run has nothing to do with its loop indices any more. -/
theorem aside_of_conclude {automation : Automation} {r : RunRecord} {channels : List Channel}
    {result : Except Failure (Option RunError)} {t : List Deed} {e : Ended}
    (h : (conclude automation r channels result).Ends t e) : Aside t := by
  have hroutine {c : Call} (hc : Routine c) : c.Aside := by
    cases c <;> trivial
  have hfinish (channels : List Channel) (ending : Ending) (raised : Option Failure) :
      Only Call.Aside Wait.Aside (finish automation r channels ending raised) :=
    (only_finish ..).mono (fun c hc => hc.elim hroutine (by cases c <;> simp [Tells, Call.Aside]))
      fun _ => id
  refine Aside.of_only ?_ h
  rcases result with (e | f | _) | _ | e
  case error.interrupted =>
    have hstop : Only Call.Aside Wait.Aside stopGathering := only_stopGathering.mono
      (fun c hc => hc.elim hroutine (by rintro rfl; trivial)) fun _ => id
    exact (only_ask trivial).bind fun _ => hstop.bind fun _ => hfinish ..
  case error.error => exact (only_ask trivial).bind fun _ => hfinish ..
  case error.fault => exact (only_ask trivial).bind fun _ => hfinish ..
  case ok.none => exact hfinish ..
  case ok.some => exact hfinish ..

theorem Begins.aside {r : RunRecord} {t : List Deed} (h : Begins r t) : Aside t := by
  obtain ⟨now, reply, told, rfl, htold⟩ := h
  intro d hd
  simp only [List.mem_cons, List.mem_append, List.not_mem_nil, or_false] at hd
  rcases hd with rfl | rfl | rfl | rfl | hd | rfl
  case inr.inr.inr.inr.inl => exact Aside.of_logs htold d hd
  case inr.inr.inl => exact fun n => nofun
  all_goals trivial

/-! ### What several loop indices come to -/

/-- How the loop indices of a run went, and what they came to. -/
inductive Went (r : Runner) (automation : Automation) (config : AutomationConfig)
    (runId : String) : List Deed → Except Failure (Option RunError) → Prop
  /-- The main task ran them one after another. -/
  | sequential {t : List Deed} {result : Except Failure (Option RunError)}
      (hmode : config.runMode = .sequential)
      (h : (sequentially (Loop.run r automation config runId) runId config.multirun.delayMs 0
        (config.runCount - 1)).Ends t result) : Went r automation config runId t result
  /-- They ran all at once, and the main task was interrupted meanwhile. -/
  | interrupted (hmode : config.runMode = .parallel) : Went r automation config runId
      [.wait (.loops config.runCount), .wake .interrupted] (.error .interrupted)
  /-- They ran all at once, and the main task was told of their ends. -/
  | parallel {outs : List (Nat × Option Failure)} (hmode : config.runMode = .parallel) :
      Went r automation config runId
        [.wait (.loops config.runCount), .wake .resumed, .call .outcomes outs] (joined outs)

/-- A delay fails when it is interrupted, or when there is no number that large. -/
theorem error_of_delay {ms : Nat} {t : List Deed} {e : Failure}
    (h : (delay ms).Ends t (.error e)) : e = .interrupted ∨ Duration.seconds? ms = none ∧
      e = .fault ⟨.overflow, "integer division result too large for a float"⟩ := by
  unfold delay at h
  split at h
  · cases (ends_pure_iff.mp h).2
  · split at h
    · rename_i hseconds
      cases (ends_pure_iff.mp h).2
      exact .inr ⟨hseconds, rfl⟩
    · obtain ⟨wake, t₁, -, h₁⟩ := ends_await_bind_iff.mp h
      cases wake <;> cases (ends_pure_iff.mp h₁).2
      exact .inl rfl

theorem unknown_of_sequentially {loop : Nat → Program (Except Failure Unit)} {runId : String}
    {delayMs remaining i : Nat} {t : List Deed} {e : Failure}
    (h : (sequentially loop runId delayMs i remaining).Ends t (.error e)) : Unknown e := by
  have hknown {i : Nat} {error : RunError} {t : List Deed} (h : (do
      logLoopFailed runId i error
      return .ok (some error) : Program (Except Failure (Option RunError))).Ends t (.error e)) :
      Unknown e := by
    obtain ⟨_, t₁, -, h₁⟩ := ends_ask_bind_iff.mp h
    cases (ends_pure_iff.mp h₁).2
  induction remaining generalizing i t with
  | zero =>
    rw [sequentially] at h
    obtain ⟨t₁, x, t₂, -, -, h₂⟩ := ends_bind_iff.mp h
    rcases x with (error | f | _) | _
    · exact hknown h₂
    all_goals
      cases (ends_pure_iff.mp h₂).2
      try rintro _ ⟨⟩
  | succ remaining ih =>
    rw [sequentially] at h
    obtain ⟨t₁, x, t₂, -, -, h₂⟩ := ends_bind_iff.mp h
    rcases x with (error | f | _) | _
    · exact hknown h₂
    · cases (ends_pure_iff.mp h₂).2
      rintro _ ⟨⟩
    · cases (ends_pure_iff.mp h₂).2
      rintro _ ⟨⟩
    · obtain ⟨t₃, y, t₄, -, h₃, h₄⟩ := ends_bind_iff.mp h₂
      cases y with
      | error e' =>
        cases (ends_pure_iff.mp h₄).2
        rcases error_of_delay h₃ with rfl | ⟨-, rfl⟩ <;> rintro _ ⟨⟩
      | ok => exact ih h₄

theorem unknown_of_joined {outs : List (Nat × Option Failure)} {e : Failure}
    (h : joined outs = .error e) : Unknown e := by
  unfold joined at h
  split at h
  · rename_i e' hfind
    cases h
    rintro error rfl
    have hfound := List.find?_some hfind
    cases hfound
  · cases h

/-- Errors that the runner knows are results of loop indices, and are not raised past them. -/
theorem Went.unknown {r : Runner} {automation : Automation} {config : AutomationConfig}
    {runId : String} {t : List Deed} {e : Failure}
    (h : Went r automation config runId t (.error e)) : Unknown e := by
  generalize hresult : (Except.error e : Except Failure (Option RunError)) = result at h
  cases h with
  | sequential _ hends => exact unknown_of_sequentially (hresult ▸ hends)
  | interrupted =>
    cases hresult
    exact fun _ => nofun
  | parallel => exact unknown_of_joined hresult.symm

/-- Loop indices run under the time limit. -/
theorem ends_loops {r : Runner} {automation : Automation} {config : AutomationConfig}
    {runId : String} {t : List Deed} {result : Except Failure (Option RunError)}
    (h : (loops (Loop.run r automation config runId) config runId).Ends t result) :
    ∃ ms reason t', t = .call (.armTimeout ms reason) () :: (t' ++ [.call .disarmTimeout ()]) ∧
      Went r automation config runId t' result := by
  have hdisarm {t : List Deed} {result' : Except Failure (Option RunError)}
      (h : (do
        ask .disarmTimeout
        return result' : Program (Except Failure (Option RunError))).Ends t result) :
      t = [.call .disarmTimeout ()] ∧ result = result' := by
    obtain ⟨_, t', rfl, h'⟩ := ends_ask_bind_iff.mp h
    obtain ⟨rfl, rfl⟩ := ends_pure_iff.mp h'
    exact ⟨rfl, rfl⟩
  rw [loops] at h
  obtain ⟨_, t₁, rfl, h₁⟩ := ends_ask_bind_iff.mp h
  cases hmode : config.runMode with
  | sequential =>
    rw [hmode] at h₁
    obtain ⟨t₂, result', t₃, rfl, h₂, h₃⟩ := ends_bind_iff.mp h₁
    obtain ⟨rfl, rfl⟩ := hdisarm h₃
    exact ⟨_, _, t₂, rfl, .sequential hmode h₂⟩
  | parallel =>
    rw [hmode] at h₁
    obtain ⟨t₂, result', t₃, rfl, h₂, h₃⟩ := ends_bind_iff.mp h₁
    obtain ⟨rfl, rfl⟩ := hdisarm h₃
    obtain ⟨wake, t₄, rfl, h₄⟩ := ends_await_bind_iff.mp h₂
    cases wake with
    | interrupted =>
      obtain ⟨rfl, rfl⟩ := ends_pure_iff.mp h₄
      exact ⟨_, _, _, rfl, .interrupted hmode⟩
    | resumed =>
      obtain ⟨outs, t₅, rfl, h₅⟩ := ends_ask_bind_iff.mp h₄
      obtain ⟨rfl, rfl⟩ := ends_pure_iff.mp h₅
      exact ⟨_, _, _, rfl, .parallel hmode⟩

/-- Run one after another, loop indices obey every law that steers them. -/
theorem lawful_sequential {L : Law} {r : Runner} {automation : Automation}
    (hL : L.Steers r automation) {config : AutomationConfig} {runId : String}
    {delayMs remaining i : Nat} {t : List Deed} {result : Except Failure (Option RunError)}
    (h : (sequentially (Loop.run r automation config runId) runId delayMs i remaining).Ends t
      result) : L t (raisedOf result) :=
  lawful_sequentially hL.toLenient (fun _ _ _ => Loop.lawful_run hL) h

/-- The program of a loop index that runs beside others obeys every law that steers it. -/
theorem lawful_loopProgram {L : Law} {r : Runner} {automation : Automation}
    (hL : L.Steers r automation) {runId : String} {i : Nat} {t : List Deed} {o : Option Failure}
    (h : (loopProgram r automation runId i).Ends t o) : L t o := by
  unfold loopProgram at h
  split at h
  · exact lawful_alongside hL.toLenient (fun _ _ => Loop.lawful_run hL) h
  · obtain ⟨rfl, rfl⟩ := ends_pure_iff.mp h
    exact hL.nil

variable {r : Runner} {automation : Automation} {record : RunRecord} {t : List Deed} {e : Ended}

/-- A run waits for loop indices at most once. -/
theorem joinsOnce_run (hregistry : r.registry.Proper) (automation : Automation)
    (record : RunRecord) : (run r automation record).JoinsOnce := by
  intro t e h
  rcases ends_run h with ⟨now, reply, rfl, -⟩ |
    ⟨now, before, t₁, t₂, channels, result, rfl, hbegins, hcame, hconclude⟩
  · exact Nat.zero_le 1
  have hle : t₁.countP Deed.joins ≤ 1 := by
    cases hcame with
    | faulty _ _ ht => exact (Aside.of_logs ht).joins ▸ Nat.zero_le 1
    | gone _ hloops =>
      obtain ⟨ms, reason, t', rfl, hwent⟩ := ends_loops hloops
      rw [List.countP_cons_of_neg (by simp [Deed.joins]), List.countP_append]
      cases hwent with
      | sequential _ hends =>
        rw [(lawful_sequential (indexed_broad.steers hregistry automation) hends).joins]
        exact Nat.zero_le 1
      | interrupted => exact Nat.le_refl 1
      | parallel => exact Nat.le_refl 1
  rw [List.countP_append, List.countP_append, hbegins.aside.joins,
    (aside_of_conclude hconclude).joins]
  omega

/-! ### Deeds of all tasks -/

/-- All deeds in a history. -/
def allDeeds (h : List Happening) : List Deed :=
  h.filterMap fun
    | .deed _ d => some d
    | _ => none

theorem mem_deedsOf_iff {who : Option Nat} {h : List Happening} {d : Deed} :
    d ∈ deedsOf who h ↔ .deed who d ∈ h := by
  rw [deedsOf, List.mem_filterMap]
  constructor
  · rintro ⟨x, hx, heq⟩
    cases x with
    | deed task d' =>
      by_cases htask : task = who
      · simp only [htask, if_true, Option.some.injEq] at heq
        rwa [← heq, ← htask]
      · simp [htask] at heq
    | _ => cases heq
  · intro hm
    exact ⟨_, hm, by simp⟩

theorem mem_allDeeds_iff {h : List Happening} {d : Deed} :
    d ∈ allDeeds h ↔ ∃ who, d ∈ deedsOf who h := by
  simp only [mem_deedsOf_iff, allDeeds, List.mem_filterMap]
  constructor
  · rintro ⟨x, hx, heq⟩
    cases x with
    | deed task d' =>
      cases heq
      exact ⟨task, hx⟩
    | _ => cases heq
  · rintro ⟨who, hm⟩
    exact ⟨_, hm, rfl⟩

end Whole

/-! ### Ways that have been begun -/

/-- What a task has done can be gone on with to an end of its program. -/
theorem Schedule.Task.Reached.exists_ends {α : Type} {p : Program α} {t : List Deed}
    {task : Schedule.Task α} (h : task.Reached p t) : ∃ t' a, p.Ends (t ++ t') a := by
  have hafter {t : List Deed} {w : Wait} {k : Wake → Program α} (h : p.Leads t (.wait w k)) :
      ∃ t' a, p.Ends (t ++ [.wait w] ++ t') a := by
    obtain ⟨t', a, hends⟩ := (k .resumed).exists_ends
    refine ⟨.wake .resumed :: t', a, ?_⟩
    rw [List.append_assoc]
    exact h.trans (.wait hends)
  cases h with
  | fresh => exact p.exists_ends
  | stillborn => exact p.exists_ends
  | waiting h => exact hafter h
  | woken h => exact hafter h
  | @paused t q h =>
    obtain ⟨t', a, hends⟩ := q.exists_ends
    exact ⟨t', a, h.trans hends⟩
  | ended h => exact ⟨[], _, (List.append_nil t).symm ▸ h⟩

namespace Whole

section Schedules

variable {σ : Type} {env : Collaborators σ} {r : Runner} {automation : Automation}
  {record : RunRecord} {shared : Shared σ} {h : List Happening} {s : State σ Ended}

theorem Scheduled.exists_ends_main (hs : Scheduled env r automation record shared h s) :
    ∃ t e, (run r automation record).Ends (deedsOf none h ++ t) e :=
  (hs.main_reached (State.distinct_start _ _) rfl).exists_ends

theorem Scheduled.exists_ends_loop (hregistry : r.registry.Proper)
    (hs : Scheduled env r automation record shared h s) (i : Nat) :
    ∃ t o, (loopProgram r automation record.id i).Ends (deedsOf (some i) h ++ t) o := by
  have hforked (hf : State.Forked (loopProgram r automation record.id) h s) :
      ∃ t o, (loopProgram r automation record.id i).Ends (deedsOf (some i) h ++ t) o := by
    by_cases hm : ∃ task, (i, task) ∈ s.loops
    · obtain ⟨task, hm⟩ := hm
      rcases hf.gone hm with hreached | ⟨hnone, -⟩
      · exact hreached.exists_ends
      · rw [hnone]
        exact exists_ends _
    · rw [hf.silent fun task hm' => hm ⟨task, hm'⟩]
      exact exists_ends _
  cases State.Reaches.joining (joinsOnce_run hregistry automation record) hs rfl rfl with
  | before _ _ hsilent =>
    rw [hsilent]
    exact exists_ends _
  | during _ _ _ _ hf => exact hforked hf
  | after _ _ _ _ _ hf => exact hforked hf

end Schedules

end Whole

end Runbook
