import Runbook.Proofs.Stopping
import Runbook.Proofs.Undisturbed

/-!
# Outcomes

A run whose task nobody interrupts is always closed in the same way: its record is completed and
saved, the channels are told, and what decided the outcome is raised. So the status, the message of
the record and what is raised agree, whichever failure it is that decides.

* `Whole.Decides`: the failure that decides the outcome of a run.
* `Whole.Scheduled.closed`: a run that nobody interrupts is closed by what its loop indices came to.
* `Whole.outcome_classified`: its status and its message are those of the failure that decided.
-/

namespace Runbook

open Program Schedule Rehearsal

/-! ### Interruptions of loop indices -/

/-- Whoever ends with an interruption has been interrupted in a sleep. -/
def InterruptedInSleep : Law := fun t o => o = some .interrupted →
  ∃ a ms b, t = a ++ .wait (.sleep ms) :: .wake .interrupted :: b

namespace InterruptedInSleep

variable {t t' : List Deed} {o : Option Failure}

theorem prepend (h : InterruptedInSleep t' o) (t : List Deed) : InterruptedInSleep (t ++ t') o := by
  intro ho
  obtain ⟨a, ms, b, rfl⟩ := h ho
  exact ⟨t ++ a, ms, b, by simp⟩

theorem broad : Law.Broad InterruptedInSleep where
  nil := nofun
  append _ h' := h'.prepend _
  call _ := nofun
  fail he ho := absurd (Option.some.inj ho) he.2
  file _ := nofun
  sleep := nofun
  interrupted _ := ⟨[], _, [], rfl⟩
  go := nofun
  stop := nofun
  after _ hne h' he ho := by
    rcases he with ⟨rfl, -⟩ | heq
    · exact absurd (Option.some.inj ho) hne
    · exact h'.prepend _ (heq.trans ho)
  dispatched := nofun
  emit := nofun
  openSession := nofun
  close h ho := by
    obtain ⟨a, ms, b, rfl⟩ := h ho
    exact ⟨a, ms, _, by rw [List.append_assoc, List.cons_append, List.cons_append]⟩

end InterruptedInSleep

/-- Only a wait for the ticker or for the consumer may end with an interruption. -/
theorem Undisturbed.not_interrupted {t : List Deed} (h : Undisturbed Excused t) (w : Wait)
    (hticker : w ≠ .ticker) (hconsumer : w ≠ .consumer) (a b : List Deed) :
    t ≠ a ++ .wait w :: .wake .interrupted :: b := by
  intro ht
  rcases h a w b ht with hw | ⟨hw, -⟩
  · exact hticker hw
  · exact hconsumer hw

namespace Whole

/-! ### What decides -/

/-- The failure that is raised of those in which loop indices ended: the one of the smallest loop
index that the runner does not know, or else the first one. -/
def Chosen (outs : List (Nat × Option Failure)) (failure : Failure) : Prop :=
  (∃ i, (i, some failure) ∈ outs ∧ Unknown failure ∧
    ∀ j f, (j, some f) ∈ outs → Unknown f → i ≤ j) ∨
  (∃ before i after, outs = before ++ (i, some failure) :: after ∧ ∀ l ∈ before, l.2 = none) ∧
    ∀ j f, (j, some f) ∈ outs → ¬ Unknown f

/-- A loop index fails in a trace, after those before it from `i` on have succeeded in turn. -/
def FailsFirst (loop : Nat → Program (Except Failure Unit)) (i : Nat) (t : List Deed) (j : Nat)
    (failure : Failure) : Prop :=
  ∃ before ran after, t = before ++ (ran ++ after) ∧ (loop j).Ends ran (.error failure) ∧
    ∀ k, i ≤ k → k < j → ∃ u, u <:+: before ∧ (loop k).Ends u (.ok ())

/-- The failure that decides the outcome of a run. -/
inductive Decides (r : Runner) (automation : Automation) (record : RunRecord)
    (h : List Happening) : Failure → Prop
  /-- The settings are wrong. -/
  | settings {fault : ConfigFault}
      (hparse : AutomationConfig.parse automation.config = .error fault) :
      Decides r automation record h fault.toFailure
  /-- One after another, a loop index fails. -/
  | index {config : AutomationConfig} {i : Nat} {failure : Failure}
      (hparse : AutomationConfig.parse automation.config = .ok config)
      (hmode : config.runMode = .sequential)
      (hfirst : FailsFirst (Loop.run r automation config record.id) 0 (deedsOf none h) i failure) :
      Decides r automation record h failure
  /-- There is no number as large as the delay between two loop indices. -/
  | delay {config : AutomationConfig}
      (hparse : AutomationConfig.parse automation.config = .ok config)
      (hmode : config.runMode = .sequential)
      (hdelay : Duration.seconds? config.multirun.delayMs = none) :
      Decides r automation record h
        (.fault ⟨.overflow, "integer division result too large for a float"⟩)
  /-- All at once, some loop indices fail, and one of their failures is chosen. -/
  | among {config : AutomationConfig} {outs : List (Nat × Option Failure)} {failure : Failure}
      (hparse : AutomationConfig.parse automation.config = .ok config)
      (hmode : config.runMode = .parallel)
      (hends : ∀ i o, (i, o) ∈ outs →
        (loopProgram r automation record.id i).Ends (deedsOf (some i) h) o)
      (hnamed : ∀ i, deedsOf (some i) h ≠ [] → ∃ o, (i, o) ∈ outs)
      (hchosen : Chosen outs failure) : Decides r automation record h failure

theorem unknown_iff {f : Failure} :
    Unknown f ↔ (match f with | .error _ => false | _ => true) = true := by
  cases f with
  | error e => exact iff_of_false (fun h => h e rfl) nofun
  | _ => exact iff_of_true (fun _ => nofun) rfl

theorem pairwise_place {l : Nat × Option Failure} {outs : List (Nat × Option Failure)}
    (h : outs.Pairwise fun a b => a.1 ≤ b.1) : (place l outs).Pairwise fun a b => a.1 ≤ b.1 := by
  induction outs with
  | nil => exact List.pairwise_singleton _ _
  | cons m outs ih =>
    obtain ⟨hm, houts⟩ := List.pairwise_cons.mp h
    rw [place]
    split
    · rename_i hle
      refine List.pairwise_cons.mpr ⟨fun x hx => ?_, h⟩
      rcases List.mem_cons.mp hx with rfl | hx
      · exact hle
      · exact Nat.le_trans hle (hm x hx)
    · rename_i hle
      refine List.pairwise_cons.mpr ⟨fun x hx => ?_, ih houts⟩
      rcases mem_place.mp hx with rfl | hx
      · exact Nat.le_of_not_le hle
      · exact hm x hx

theorem pairwise_byIndex (outs : List (Nat × Option Failure)) :
    (byIndex outs).Pairwise fun a b => a.1 ≤ b.1 := by
  induction outs with
  | nil => exact .nil
  | cons l outs ih => exact pairwise_place ih

/-- The unexpected failure that is found is that of the smallest loop index with one. -/
theorem least_of_unexpected? {outs : List (Nat × Option Failure)} {failure : Failure}
    (h : unexpected? outs = some failure) : ∃ i, (i, some failure) ∈ outs ∧ Unknown failure ∧
      ∀ j f, (j, some f) ∈ outs → Unknown f → i ≤ j := by
  have hsorted := pairwise_byIndex outs
  obtain ⟨hunknown, fs, gs, hfound, hknown⟩ := List.find?_eq_some_iff_append.mp h
  obtain ⟨l₁, l₂, hl, rfl, hrest⟩ := List.filterMap_eq_append_iff.mp hfound
  obtain ⟨l₃, ⟨i, o⟩, l₄, rfl, hnone, ho, rfl⟩ := List.filterMap_eq_cons_iff.mp hrest
  obtain rfl : o = some failure := ho
  have hmem (l : Nat × Option Failure) : l ∈ outs ↔ l ∈ l₁ ++ (l₃ ++ (i, some failure) :: l₄) := by
    rw [← hl, mem_byIndex]
  refine ⟨i, (hmem _).mpr (by simp), unknown_iff.mpr hunknown, fun j f hm hf => ?_⟩
  rw [hl] at hsorted
  rcases List.mem_append.mp ((hmem _).mp hm) with hm | hm
  -- Before it there are only failures that the runner knows, and successes.
  · have hf' := (Bool.not_eq_true' _).mp (hknown f (List.mem_filterMap.mpr ⟨_, hm, rfl⟩))
    exact absurd (hf'.symm.trans (unknown_iff.mp hf)) Bool.false_ne_true
  · rcases List.mem_append.mp hm with hm | hm
    · cases hnone _ hm
    · rcases List.mem_cons.mp hm with heq | hm
      · exact (Prod.mk.inj heq).1 ▸ Nat.le_refl i
      · have htail := (List.pairwise_append.mp (List.pairwise_append.mp hsorted).2.1).2.1
        exact (List.pairwise_cons.mp htail).1 _ hm

theorem chosen_of_joined {outs : List (Nat × Option Failure)} {failure : Failure}
    (h : raisedOf (joined outs) = some failure) : Chosen outs failure := by
  unfold joined at h
  split at h
  · rename_i e hunexpected
    cases h
    exact .inl (least_of_unexpected? hunexpected)
  · rename_i hexpected
    obtain ⟨e, hfirst, rfl⟩ := Option.map_eq_some_iff.mp h
    obtain ⟨before, ⟨i, o⟩, after, rfl, ho, hbefore⟩ := List.findSome?_eq_some_iff.mp hfirst
    have hknown : ∀ j f, (j, some f) ∈ before ++ (i, o) :: after → ¬ Unknown f := by
      intro j f hm hf
      exact List.find?_eq_none.mp hexpected f
        (List.mem_filterMap.mpr ⟨(j, some f), mem_byIndex.mpr hm, rfl⟩) (unknown_iff.mp hf)
    refine .inr ⟨⟨before, i, after, ?_, ?_⟩, hknown⟩
    · rcases o with _ | (e' | f | _) <;> cases ho
      rfl
    · rintro ⟨j, o'⟩ hm
      rcases o' with _ | (e' | f | _)
      · rfl
      · cases hbefore _ hm
      · exact absurd (fun _ => nofun) (hknown j (.fault f) (List.mem_append_left _ hm))
      · exact absurd (fun _ => nofun) (hknown j .interrupted (List.mem_append_left _ hm))

/-- One after another, loop indices raise the failure of the first one that fails, or that of a
delay. -/
theorem failsFirst_of_sequentially {loop : Nat → Program (Except Failure Unit)} {runId : String}
    {delayMs remaining i : Nat} {t : List Deed} {result : Except Failure (Option RunError)}
    {failure : Failure} (h : (sequentially loop runId delayMs i remaining).Ends t result)
    (hraised : raisedOf result = some failure) :
    (∃ j, FailsFirst loop i t j failure) ∨ ∃ u, (delay delayMs).Ends u (.error failure) := by
  have hhere {t₁ t₂ : List Deed} {i : Nat} {e : Failure} (h₁ : (loop i).Ends t₁ (.error e))
      (hresult : raisedOf result = some e) :
      (∃ j, FailsFirst loop i (t₁ ++ t₂) j failure) ∨
        ∃ u, (delay delayMs).Ends u (.error failure) := by
    obtain rfl := Option.some.inj (hraised.symm.trans hresult)
    exact .inl ⟨i, [], t₁, t₂, rfl, h₁, fun k hk hki => absurd hki (Nat.not_lt.mpr hk)⟩
  have hknown {i : Nat} {e : RunError} {t : List Deed} (h : (do
      logLoopFailed runId i e
      return .ok (some e) : Program (Except Failure (Option RunError))).Ends t result) :
      raisedOf result = some (.error e) := by
    obtain ⟨_, t₁, -, h₁⟩ := ends_ask_bind_iff.mp h
    rw [(ends_pure_iff.mp h₁).2]
    rfl
  induction remaining generalizing i t with
  | zero =>
    rw [sequentially] at h
    obtain ⟨t₁, x, t₂, rfl, h₁, h₂⟩ := ends_bind_iff.mp h
    rcases x with (e | f | _) | _
    · exact hhere h₁ (hknown h₂)
    · exact hhere h₁ ((ends_pure_iff.mp h₂).2 ▸ rfl)
    · exact hhere h₁ ((ends_pure_iff.mp h₂).2 ▸ rfl)
    · rw [(ends_pure_iff.mp h₂).2] at hraised
      cases hraised
  | succ remaining ih =>
    rw [sequentially] at h
    obtain ⟨t₁, x, t₂, rfl, h₁, h₂⟩ := ends_bind_iff.mp h
    rcases x with (e | f | _) | _
    · exact hhere h₁ (hknown h₂)
    · exact hhere h₁ ((ends_pure_iff.mp h₂).2 ▸ rfl)
    · exact hhere h₁ ((ends_pure_iff.mp h₂).2 ▸ rfl)
    obtain ⟨t₃, y, t₄, rfl, h₃, h₄⟩ := ends_bind_iff.mp h₂
    cases y with
    | error e =>
      rw [(ends_pure_iff.mp h₄).2] at hraised
      cases hraised
      exact .inr ⟨t₃, h₃⟩
    | ok =>
      refine (ih h₄).imp_left ?_
      rintro ⟨j, before, ran, after, ht, hends, hdone⟩
      refine ⟨j, t₁ ++ (t₃ ++ before), ran, after, by simp [ht], hends, fun k hk hkj => ?_⟩
      rcases Nat.eq_or_lt_of_le hk with rfl | hk
      · exact ⟨t₁, List.infix_append' [] t₁ _, h₁⟩
      · obtain ⟨u, hu, hends'⟩ := hdone k hk hkj
        refine ⟨u, hu.trans ?_, hends'⟩
        rw [← List.append_assoc]
        exact (List.suffix_append _ _).isInfix

theorem FailsFirst.within {loop : Nat → Program (Except Failure Unit)} {i j : Nat} {t : List Deed}
    {failure : Failure} (h : FailsFirst loop i t j failure) (before after : List Deed) :
    FailsFirst loop i (before ++ (t ++ after)) j failure := by
  obtain ⟨before', ran, after', rfl, hends, hdone⟩ := h
  refine ⟨before ++ before', ran, after' ++ after, by simp, hends, fun k hk hkj => ?_⟩
  obtain ⟨u, hu, hends'⟩ := hdone k hk hkj
  exact ⟨u, hu.trans (List.suffix_append _ _).isInfix, hends'⟩

/-! ### Runs that nobody interrupts -/

/-- Unless it was interrupted, a run is concluded without telling the consumer to stop. -/
theorem not_stopped_of_conclude {automation : Automation} {r : RunRecord} {channels : List Channel}
    {result : Except Failure (Option RunError)} {t : List Deed} {e : Ended}
    (hne : result ≠ .error .interrupted) (h : (conclude automation r channels result).Ends t e) :
    .call .stopConsumer () ∉ t := by
  intro hm
  suffices Only (fun c => Routine c ∨ Tells c) Wait.Aside
      (conclude automation r channels result) from
    ((this.of_leads h).2.1 _ _ hm).elim id id
  rcases result with (e | f | _) | _ | e
  case error.interrupted => exact absurd rfl hne
  case error.error => exact (only_ask (.inl trivial)).bind fun _ => only_finish ..
  case error.fault => exact (only_ask (.inl trivial)).bind fun _ => only_finish ..
  case ok.none => exact only_finish ..
  case ok.some => exact only_finish ..

theorem Begins.starts {r : RunRecord} {t : List Deed} (h : Begins r t) :
    .call (.startAggregator r) () ∈ t := by
  obtain ⟨now, reply, told, rfl, -⟩ := h
  simp

theorem Begins.not_stopped {r : RunRecord} {t : List Deed} (h : Begins r t) :
    .call .stopConsumer () ∉ t := by
  obtain ⟨now, reply, told, rfl, htold⟩ := h
  intro hm
  simp only [List.mem_cons, List.mem_append, reduceCtorEq, Deed.call.injEq, false_and, false_or,
    List.not_mem_nil, or_false] at hm
  obtain ⟨r, hr⟩ := htold _ hm
  cases hr

section Schedules

variable {σ : Type} {env : Collaborators σ} {r : Runner} {automation : Automation}
  {record : RunRecord} {shared : Shared σ} {h : List Happening} {s : State σ Ended} {e : Ended}

/-- Loop indices do not concern themselves with the gathering of events. -/
theorem Scheduled.loopsApart (hregistry : r.registry.Proper)
    (hs : Scheduled env r automation record shared h s) : State.LoopsApart h := by
  intro i c reply hm hc
  obtain ⟨t, o, hends⟩ := hs.exists_ends_loop hregistry i
  have hindexed := lawful_loopProgram (indexed_broad.steers hregistry automation) hends _
    (List.mem_append_left _ hm)
  cases c <;> first | exact hc | exact hindexed

/-- What several loop indices come to when nobody interrupts them: not an interruption, and what
they raise decides the outcome. -/
theorem Went.decides (hregistry : r.registry.Proper)
    (hs : Scheduled env r automation record shared h s) (he : s.main = .ended e)
    (hnone : .alarm .interrupt ∉ h) {config : AutomationConfig} {before t after : List Deed}
    {result : Except Failure (Option RunError)}
    (hparse : AutomationConfig.parse automation.config = .ok config)
    (hdeeds : deedsOf none h = before ++ (t ++ after))
    (h : Went r automation config record.id t result) :
    result ≠ .error .interrupted ∧
      ∀ failure, raisedOf result = some failure → Decides r automation record ‹_› failure := by
  have hapart := hs.loopsApart hregistry
  have honce := joinsOnce_run hregistry automation record
  have hcalm := (State.Reaches.calm honce hs hnone hapart).main.undisturbed
  rw [hdeeds] at hcalm
  cases h with
  | sequential hmode hends =>
    have hne : result ≠ .error .interrupted := by
      rintro rfl
      obtain ⟨a, ms, b, rfl⟩ := lawful_sequential
        (InterruptedInSleep.broad.steers hregistry automation) hends rfl
      exact hcalm.not_interrupted (.sleep ms) nofun nofun (before ++ a) (b ++ after) (by simp)
    refine ⟨hne, fun failure hraised => ?_⟩
    rcases failsFirst_of_sequentially hends hraised with ⟨j, hfirst⟩ | ⟨u, hdelay⟩
    · exact .index hparse hmode (hdeeds ▸ hfirst.within before after)
    · rcases error_of_delay hdelay with rfl | ⟨hseconds, rfl⟩
      · -- Only an interruption of all would be raised as one.
        rcases result with e | _ | e
        · exact absurd (Option.some.inj hraised ▸ rfl) hne
        · cases hraised
        · cases hraised
      · exact .delay hparse hmode hseconds
  | interrupted =>
    exact absurd rfl (hcalm.not_interrupted (.loops _) nofun nofun before after)
  | @parallel outs hmode =>
    have hsplit : deedsOf none ‹List Happening› = before ++ .wait (.loops config.runCount) ::
        (.wake .resumed :: .call .outcomes outs :: after) := hdeeds
    have htold {i : Nat} {o : Option Failure} (ho : (i, o) ∈ outs) :=
      State.Reaches.told_undisturbed honce hs he hnone hapart hsplit (by simp) ho
    refine ⟨fun hresult => ?_, fun failure hraised => .among hparse hmode
      (fun i o ho => (htold ho).1) (fun i hi => ?_) (chosen_of_joined hraised)⟩
    · obtain ⟨i, ho⟩ := mem_of_joined (e := .interrupted) (by rw [hresult]; rfl)
      obtain ⟨hends, hundisturbed⟩ := htold ho
      obtain ⟨a, ms, b, ht⟩ := lawful_loopProgram
        (InterruptedInSleep.broad.steers hregistry automation) hends rfl
      exact hundisturbed a _ b ht
    · rcases State.Reaches.accounted honce hs he with ⟨-, hsilent⟩ | ⟨-, htrue⟩
      · exact absurd (hsilent i) hi
      · exact (htrue _ _ _ outs hsplit (by simp)).named hi

/-- What the loop indices of a run come to when nobody interrupts it: not an interruption, and what
they raise decides the outcome. They do not tell the consumer to stop. -/
theorem CameTo.decides (hregistry : r.registry.Proper)
    (hs : Scheduled env r automation record shared h s) (he : s.main = .ended e)
    (hnone : .alarm .interrupt ∉ h) {channels : List Channel} {before t after : List Deed}
    {result : Except Failure (Option RunError)} (hdeeds : deedsOf none h = before ++ (t ++ after))
    (hcame : CameTo r automation record.id channels t result) :
    (∀ failure, result = .error failure → Unknown failure) ∧ result ≠ .error .interrupted ∧
      (∀ failure, raisedOf result = some failure → Decides r automation record h failure) ∧
      .call .stopConsumer () ∉ t := by
  cases hcame with
  | @faulty fault _ _ hparse hresult ht hknown =>
    refine ⟨hknown, ?_, fun failure hraised => ?_, fun hm => ?_⟩
    · rintro rfl
      cases fault <;> cases hresult
    · rw [hresult] at hraised
      cases hraised
      exact .settings hparse
    · obtain ⟨r, hr⟩ := ht _ hm
      cases hr
  | gone hparse hloops =>
    obtain ⟨ms, reason, t', rfl, hwent⟩ := ends_loops hloops
    have hsplit : deedsOf none h = (before ++ [.call (.armTimeout ms reason) ()]) ++
        (t' ++ (.call .disarmTimeout () :: after)) := by
      rw [hdeeds]
      simp
    obtain ⟨hne, hdecides⟩ := hwent.decides hregistry hs he hnone hparse hsplit
    refine ⟨fun failure hresult => (hresult ▸ hwent).unknown, hne, hdecides, ?_⟩
    have hstops : .call .stopConsumer () ∉ t' := by
      cases hwent with
      | sequential _ hends =>
        exact fun hm => lawful_sequential (indexed_broad.steers hregistry automation) hends _ hm
      | interrupted => simp
      | parallel => simp
    simpa using hstops

/-- A run that nobody interrupts begins, its loop indices come to a result, and it is finished in
accordance with that. -/
theorem Scheduled.finishes (hregistry : r.registry.Proper)
    (hs : Scheduled env r automation record shared h s) (he : s.main = .ended e)
    (hnone : .alarm .interrupt ∉ h) :
    ∃ now before t after channels result snapshot end',
      deedsOf none h = before ++ (t ++ after) ∧ Begins (begun record now) before ∧
      CameTo r automation record.id channels t result ∧
      (conclude automation (begun record now) channels result).Ends after e ∧
      e = ⟨finished (begun record now) snapshot end' (endingOf result), raisedOf result⟩ := by
  have hcalm := (State.Reaches.calm (joinsOnce_run hregistry automation record) hs hnone
    (hs.loopsApart hregistry)).main.undisturbed
  rcases ends_run (hs.ends he) with ⟨now, reply, hdeeds, -⟩ |
    ⟨now, before, t₁, t₂, channels, result, hdeeds, hbegins, hcame, hconclude⟩
  · exact absurd hdeeds (hcalm.not_interrupted .store nofun nofun [_, _] [])
  obtain ⟨-, hne, -, hapart⟩ := hcame.decides hregistry hs he hnone hdeeds
  have hclosed := ends_conclude hconclude
  rw [hdeeds] at hcalm
  cases hclosed with
  | left hopen =>
    obtain ⟨b, w, rfl, hw⟩ := hopen
    have hexcused := hcalm (before ++ (t₁ ++ b)) w [] (by simp)
    rcases hw with rfl | rfl
    · rcases hexcused with hw | ⟨hw, -⟩ <;> cases hw
    -- Nobody has told the consumer to stop.
    · rcases hexcused with hw | ⟨-, hstopped⟩
      · cases hw
      rcases List.mem_append.mp (hstopped ⟨_, List.mem_append_left _ hbegins.starts⟩) with hm | hm
      · exact absurd hm hbegins.not_stopped
      rcases List.mem_append.mp hm with hm | hm
      · exact absurd hm hapart
      · exact absurd (List.mem_append_left _ hm) (not_stopped_of_conclude hne hconclude)
  | saved snapshot end' hsaved =>
    obtain ⟨b, reply, told, rfl, -⟩ := hsaved
    exact absurd (by simp) (hcalm.not_interrupted .store nofun nofun
      (before ++ (t₁ ++ (b ++ [.call (.save _) reply]))) told)
  | told snapshot end' =>
    exact ⟨now, before, t₁, t₂, channels, result, snapshot, end', hdeeds, hbegins, hcame,
      hconclude, rfl⟩

/-- A run that nobody interrupts is closed by what its loop indices came to. -/
theorem Scheduled.closed (hregistry : r.registry.Proper)
    (hs : Scheduled env r automation record shared h s) (he : s.main = .ended e)
    (hnone : .alarm .interrupt ∉ h) :
    ∃ now result snapshot end',
      e = ⟨finished (begun record now) snapshot end' (endingOf result), raisedOf result⟩ ∧
      (∀ failure, result = .error failure → Unknown failure ∧ failure ≠ .interrupted) ∧
      ∀ failure, raisedOf result = some failure → Decides r automation record h failure := by
  obtain ⟨now, before, t, after, channels, result, snapshot, end', hdeeds, -, hcame, -, heq⟩ :=
    hs.finishes hregistry he hnone
  obtain ⟨hknown, hne, hdecides, -⟩ := hcame.decides hregistry hs he hnone hdeeds
  exact ⟨now, result, snapshot, end', heq, fun failure hresult =>
    ⟨hknown failure hresult, fun heq => hne (heq ▸ hresult)⟩, hdecides⟩

/-- A cancellation that is raised reports the first of all requests to stop. -/
theorem Scheduled.first_request (hregistry : r.registry.Proper)
    (hs : Scheduled env r automation record shared h s) (he : s.main = .ended e)
    {failure : Failure} (hraised : e.raised = some failure) {timedOut : Bool}
    (htimedOut : failure.cancellation? = some timedOut) :
    (shared.cancellation.toList ++ requests h).head?.map Cancellation.timedOut =
      some timedOut := by
  have hne : e.raised ≠ some .interrupted := by
    intro heq
    rw [hraised] at heq
    cases heq
    cases htimedOut
  have hheard : Heard shared.cancellation h s.shared.cancellation :=
    State.Reaches.heard hs (State.distinct_start _ _)
  rcases hs.judged hregistry he with ⟨-, hinterrupted⟩ | ⟨result, hjudged, hheeds⟩
  · exact absurd hinterrupted hne
  have hresult : raisedOf result = some failure := by
    rcases hjudged with ⟨-, hinterrupted⟩ | ⟨_, _, _, -, -, hsame⟩
    · exact absurd hinterrupted hne
    · rw [← hraised, hsame.resolve_right hne]
  obtain ⟨c, hm, rfl⟩ := hheeds.answers hresult htimedOut
  obtain ⟨who, hm⟩ := mem_allDeeds_iff.mp hm
  obtain ⟨h₁, h₂, hsplit⟩ := List.append_of_mem (mem_deedsOf_iff.mp hm)
  have hfirst : requested shared.cancellation h = some c := by
    rw [hsplit, requested_append, ← hheard.found hsplit, requested_some]
  rw [← requested_eq_head?, hfirst]
  rfl

end Schedules

/-- What the record of a run says about the failure that it raised. -/
def recorded : Failure → String
  | .error error => error.message
  | failure => "unexpected error: " ++ failure.text

/-- The record of a failure agrees with what is raised. -/
theorem verdict_of_raised {result : Except Failure (Option RunError)} {failure : Failure}
    (hknown : ∀ f, result = .error f → Unknown f ∧ f ≠ .interrupted)
    (hraised : raisedOf result = some failure) (earlier : String) :
    (endingOf result).verdict earlier =
      (if failure.cancellation? = some false then .cancelled else .failed, recorded failure) := by
  rcases result with (e | f | _) | _ | e
  case error.error => exact absurd rfl ((hknown _ rfl).1 e)
  case error.fault =>
    cases hraised
    rfl
  case error.interrupted => exact absurd rfl (hknown _ rfl).2
  case ok.none => cases hraised
  case ok.some =>
    cases hraised
    rfl

/-- **Outcomes.** In every schedule in which nobody interrupts it, a run whose record began without
an error message is completed exactly when it returns. Otherwise it raises the failure that decided
its outcome. It is cancelled exactly when that is a cancellation that is no timeout, and it has
failed in every other case; its message is that of the failure, marked as unexpected if the runner
does not know it. A cancellation reports the first request to stop, whatever is requested later. -/
theorem outcome_classified {σ : Type} (env : Collaborators σ) (runner : Runner)
    (automation : Automation) (record : RunRecord) (shared : Shared σ) {h : List Happening}
    {s : State σ Ended} {e : Ended}
    (hs : Scheduled env { runner with registry := Catalogue.registry } automation record shared h s)
    (he : s.main = .ended e) (hnone : .alarm .interrupt ∉ h) (hmessage : record.errorMessage = "") :
    (e.record.status = .completed ↔ e.raised = none) ∧
    (e.raised = none → e.record.errorMessage = "") ∧
    ∀ failure, e.raised = some failure →
      Decides { runner with registry := Catalogue.registry } automation record h failure ∧
      (e.record.status = .cancelled ↔ failure.cancellation? = some false) ∧
      (e.record.status = .failed ↔ failure.cancellation? ≠ some false) ∧
      e.record.errorMessage = recorded failure ∧
      ∀ timedOut, failure.cancellation? = some timedOut →
        (shared.cancellation.toList ++ requests h).head?.map Cancellation.timedOut =
          some timedOut := by
  obtain ⟨now, result, snapshot, end', rfl, hknown, hdecides⟩ :=
    hs.closed Catalogue.registry_proper he hnone
  have hverdict : ((finished (begun record now) snapshot end' (endingOf result)).status,
      (finished (begun record now) snapshot end' (endingOf result)).errorMessage) =
        (endingOf result).verdict "" := by
    rw [← hmessage]
    rfl
  cases hraised : raisedOf result with
  | none =>
    have hresult : result = .ok none := by
      rcases result with _ | _ | _ <;> first | rfl | cases hraised
    subst hresult
    obtain ⟨hstatus, herror⟩ := Prod.mk.inj hverdict
    exact ⟨iff_of_true hstatus rfl, fun _ => herror, fun _ heq => nomatch heq⟩
  | some failure =>
    rw [verdict_of_raised hknown hraised] at hverdict
    obtain ⟨hstatus, herror⟩ := Prod.mk.inj hverdict
    refine ⟨iff_of_false ?_ nofun, nofun, ?_⟩
    · rw [hstatus]
      split <;> exact nofun
    · rintro _ ⟨⟩
      refine ⟨hdecides failure hraised, ?_, ?_, herror, fun timedOut htimedOut =>
        hs.first_request Catalogue.registry_proper he hraised htimedOut⟩
      · rw [hstatus]
        split <;> simp [*]
      · rw [hstatus]
        split <;> simp [*]

/-! ### A rehearsal -/

/-- A run that is asked to stop before its first step, and again because its time is up. -/
def stoppedTwice : List Happening × State World Ended :=
  State.carryOut World.collaborators
    (loopProgram sampleRunner (hurried []) sampleRecord.id)
    [.alarm (.cancel "stop"), .alarm (.timeout "too late"), .main, .consumer, .main, .ticker, .main]
    (State.start (sampleShared 1704067200000) (run sampleRunner (hurried []) sampleRecord))

/-- Asked to stop twice, a run is cancelled by the first request. -/
theorem cancelled_by_first_request : ∃ h s e failure,
    Scheduled World.collaborators sampleRunner (hurried []) sampleRecord
      (sampleShared 1704067200000) h s ∧
    s.main = .ended e ∧ .alarm .interrupt ∉ h ∧ sampleRecord.errorMessage = "" ∧
    e.raised = some failure ∧ failure.cancellation? = some false ∧
    Decides sampleRunner (hurried []) sampleRecord h failure ∧
    e.record.status = .cancelled ∧ e.record.errorMessage = recorded failure ∧
    (requests h).map Cancellation.timedOut = [false, true] := by
  have hs : Scheduled World.collaborators sampleRunner (hurried []) sampleRecord
      (sampleShared 1704067200000) stoppedTwice.1 stoppedTwice.2 :=
    State.carryOut_reaches _ _ _ (by decide) _
  have hnone : .alarm .interrupt ∉ stoppedTwice.1 := State.not_mem_carryOut (by decide) _
  obtain ⟨e, he, hout⟩ : ∃ e, stoppedTwice.2.main = .ended e ∧
      e.raised.bind Failure.cancellation? = some false :=
    Task.exists_ended (by decide +kernel)
  obtain ⟨failure, hraised, hcancelled⟩ := Option.bind_eq_some_iff.mp hout
  obtain ⟨-, -, hblames⟩ := outcome_classified World.collaborators sampleRunner (hurried [])
    sampleRecord (sampleShared 1704067200000) hs he hnone rfl
  obtain ⟨hdecides, hstatus, -, hmessage, -⟩ := hblames failure hraised
  exact ⟨_, _, e, failure, hs, he, hnone, rfl, hraised, hcancelled, hdecides,
    hstatus.mpr hcancelled, hmessage, by decide +kernel⟩

end Whole

end Runbook
