import Runbook.Proofs.Course
import Runbook.Proofs.Requests

/-!
# Stopping by request

A run that has been asked to stop does so at its next checkpoint, a look at the request before a
step, an action or an iteration of a loop. A checkpoint that finds a request makes its part fail,
and the failure goes on to the end of the run. So the request shows in the status exactly when some
checkpoint comes after it: a run that has no checkpoint left, since its last action is under way,
completes as if nobody had asked.

* `Heeds`: a look that finds a request is heeded.
* `Whole.Scheduled.judged`: what a run comes to heeds all looks of all tasks.
* `Whole.reported_iff_checked`: when the request shows in the status.
-/

namespace Runbook

open Program Schedule Rehearsal

/-! ### Looks that are heeded -/

/-- A look that finds a request to stop is heeded by a failure, and a failure that reports a
cancellation answers such a look. -/
structure Heeds (t : List Deed) (o : Option Failure) : Prop where
  heeded {c : Cancellation} : .call .cancellation (some c) ∈ t → o ≠ none
  answers {e : Failure} {timedOut : Bool} : o = some e → e.cancellation? = some timedOut →
    ∃ c, .call .cancellation (some c) ∈ t ∧ c.timedOut = timedOut

namespace Heeds

/-- Where no look finds a request, a failure reports no cancellation. -/
theorem of_unasked {t : List Deed} {o : Option Failure}
    (ht : ∀ c, .call .cancellation (some c) ∉ t) (ho : ∀ e, o = some e → e.cancellation? = none) :
    Heeds t o where
  heeded hm := absurd hm (ht _)
  answers he hc := by
    rw [ho _ he] at hc
    cases hc

/-- Only looks count. -/
theorem congr {t t' : List Deed} {o : Option Failure} (h : Heeds t o)
    (ht : ∀ c, .call .cancellation (some c) ∈ t' ↔ Deed.call .cancellation (some c) ∈ t) :
    Heeds t' o where
  heeded hm := h.heeded ((ht _).mp hm)
  answers he hc := by
    obtain ⟨c, hm, hout⟩ := h.answers he hc
    exact ⟨c, (ht c).mpr hm, hout⟩

theorem append {t t' : List Deed} {o : Option Failure} (h : Heeds t none) (h' : Heeds t' o) :
    Heeds (t ++ t') o where
  heeded hm := by
    rcases List.mem_append.mp hm with hm | hm
    · exact absurd rfl (h.heeded hm)
    · exact h'.heeded hm
  answers he hc := by
    obtain ⟨c, hm, ht⟩ := h'.answers he hc
    exact ⟨c, List.mem_append_right _ hm, ht⟩

theorem after {t t' : List Deed} {e e' : Failure} {o : Option Failure} (h : Heeds t (some e))
    (h' : Heeds t' o) (he : e' = e ∨ o = some e') : Heeds (t ++ t') (some e') where
  heeded _ := nofun
  answers heq hc := by
    cases heq
    rcases he with rfl | rfl
    · obtain ⟨c, hm, ht⟩ := h.answers rfl hc
      exact ⟨c, List.mem_append_left _ hm, ht⟩
    · obtain ⟨c, hm, ht⟩ := h'.answers rfl hc
      exact ⟨c, List.mem_append_right _ hm, ht⟩

/-- Loop indices heed all their looks. -/
theorem broad : Law.Broad Heeds where
  nil := .of_unasked (by simp) (by simp)
  append := .append
  call {c r} hc := by
    refine .of_unasked (fun c' hm => ?_) (by simp)
    cases List.mem_singleton.mp hm
    exact hc
  fail he := .of_unasked (by simp) (fun e h => Option.some.inj h ▸ he.1)
  file _ := .of_unasked (by simp) (by simp)
  sleep := .of_unasked (by simp) (by simp)
  interrupted := .of_unasked (by simp) (by simp [Failure.cancellation?])
  go := .of_unasked (by simp) (by simp)
  stop {c message} := by
    refine ⟨fun _ => nofun, fun he hc => ⟨c, List.mem_singleton_self _, ?_⟩⟩
    cases he
    exact Option.some.inj hc
  after h _ h' he := h.after h' (he.imp_left And.left)
  dispatched := .of_unasked (by simp) (by simp)
  emit := .of_unasked (by simp) (by simp)
  openSession := .of_unasked (by simp) (by simp)
  close h := h.congr (by simp)

end Heeds

/-! ### What several loop indices come to -/

namespace Whole

theorem mem_place {l m : Nat × Option Failure} {outs : List (Nat × Option Failure)} :
    m ∈ place l outs ↔ m = l ∨ m ∈ outs := by
  induction outs with
  | nil => simp [place]
  | cons x outs ih =>
    rw [place]
    split
    · simp
    · simp only [List.mem_cons, ih]
      exact or_left_comm

theorem mem_byIndex {m : Nat × Option Failure} {outs : List (Nat × Option Failure)} :
    m ∈ byIndex outs ↔ m ∈ outs := by
  induction outs with
  | nil => exact .rfl
  | cons l outs ih =>
    rw [byIndex, List.foldr_cons, mem_place, List.mem_cons]
    exact or_congr_right ih

/-- Loop indices that ran all at once succeed only if each of them does. -/
theorem none_of_joined {outs : List (Nat × Option Failure)} (h : raisedOf (joined outs) = none)
    {i : Nat} {o : Option Failure} (hm : (i, o) ∈ outs) : o = none := by
  unfold joined at h
  split at h
  · cases h
  · rename_i hexpected
    cases hfirst : firstError? outs with
    | some e =>
      rw [hfirst] at h
      cases h
    | none =>
      rw [unexpected?, List.find?_eq_none] at hexpected
      rw [firstError?, List.findSome?_eq_none_iff] at hfirst
      rcases o with _ | (e | f | _)
      · rfl
      · cases hfirst _ hm
      -- An unexpected failure would have been found first.
      · exact absurd rfl (hexpected (.fault f)
          (List.mem_filterMap.mpr ⟨_, mem_byIndex.mpr hm, rfl⟩))
      · exact absurd rfl (hexpected .interrupted
          (List.mem_filterMap.mpr ⟨_, mem_byIndex.mpr hm, rfl⟩))

/-- Loop indices that ran all at once raise what one of them ended in. -/
theorem mem_of_joined {outs : List (Nat × Option Failure)} {e : Failure}
    (h : raisedOf (joined outs) = some e) : ∃ i, (i, some e) ∈ outs := by
  unfold joined at h
  split at h
  · rename_i e' hunexpected
    cases h
    obtain ⟨⟨i, o⟩, hm, ho⟩ := List.mem_filterMap.mp (List.mem_of_find?_eq_some hunexpected)
    cases ho
    exact ⟨i, mem_byIndex.mp hm⟩
  · cases hfirst : firstError? outs with
    | none =>
      rw [hfirst] at h
      cases h
    | some error =>
      rw [hfirst] at h
      cases h
      obtain ⟨⟨i, o⟩, hm, ho⟩ := List.exists_of_findSome?_eq_some hfirst
      rcases o with _ | (e | f | _) <;> cases ho
      exact ⟨i, hm⟩

variable {r : Runner}

/-- A run that has ended is left running, or it is judged by what its loop indices came to. -/
def Judged (record : RunRecord) (result : Except Failure (Option RunError)) (e : Ended) : Prop :=
  e.record.status = .running ∧ e.raised = some .interrupted ∨
    ∃ r s now, r.errorMessage = record.errorMessage ∧
      e.record = finished r s now (endingOf result) ∧
      (e.raised = raisedOf result ∨ e.raised = some .interrupted)

theorem judged_of_closed {automation : Automation} {record : RunRecord} {now : Rat}
    {channels : List Channel} {result : Except Failure (Option RunError)} {t : List Deed}
    {e : Ended}
    (h : Closed automation (begun record now) channels (endingOf result) (raisedOf result) t e) :
    Judged record result e := by
  cases h with
  | left => exact .inl ⟨rfl, rfl⟩
  | saved s now' => exact .inr ⟨begun record now, s, now', rfl, rfl, .inr rfl⟩
  | told s now' => exact .inr ⟨begun record now, s, now', rfl, rfl, .inl rfl⟩

section Schedules

variable {σ : Type} {env : Collaborators σ} {automation : Automation} {record : RunRecord}
  {shared : Shared σ} {h : List Happening} {s : State σ Ended} {e : Ended}

/-- Loop indices that ran all at once heed their looks, and what they come to does, too. -/
theorem heeds_accounted (hregistry : r.registry.Proper) {outs : List (Nat × Option Failure)}
    (hmain : ∀ reply, .call .cancellation reply ∉ deedsOf none h)
    (houts : State.Accounted (loopProgram r automation record.id) h outs) :
    Heeds (allDeeds h) (raisedOf (joined outs)) := by
  have hloop {i : Nat} {t : List Deed} {o : Option Failure}
      (hends : (loopProgram r automation record.id i).Ends t o) : Heeds t o :=
    lawful_loopProgram (Heeds.broad.steers hregistry automation) hends
  constructor
  case heeded =>
    intro c hm hnone
    obtain ⟨who, hm⟩ := mem_allDeeds_iff.mp hm
    cases who with
    -- The main task has not looked at all.
    | none => exact hmain _ hm
    | some i =>
      obtain ⟨o, ho⟩ := houts.named (List.ne_nil_of_mem hm)
      rcases houts.ends ho with hends | ⟨hdeeds, -⟩
      · exact (hloop hends).heeded hm (none_of_joined hnone ho)
      · rw [hdeeds] at hm
        cases hm
  case answers =>
    intro failure timedOut hraised hc
    obtain ⟨i, ho⟩ := mem_of_joined hraised
    rcases houts.ends ho with hends | ⟨-, heq⟩
    · obtain ⟨c, hm, ht⟩ := (hloop hends).answers rfl hc
      exact ⟨c, mem_allDeeds_iff.mpr ⟨_, hm⟩, ht⟩
    · cases heq
      cases hc

/-- What a run comes to heeds all looks of all tasks. -/
theorem Scheduled.judged (hregistry : r.registry.Proper)
    (hs : Scheduled env r automation record shared h s) (he : s.main = .ended e) :
    (e.record.status = .running ∧ e.raised = some .interrupted) ∨
      ∃ result, Judged record result e ∧ Heeds (allDeeds h) (raisedOf result) := by
  rcases ends_run (hs.ends he) with ⟨now, reply, -, rfl⟩ |
    ⟨now, before, t, after, channels, result, hdeeds, hbegins, hcame, hconclude⟩
  · exact .inl ⟨rfl, rfl⟩
  refine .inr ⟨result, judged_of_closed (ends_conclude hconclude), ?_⟩
  have hbefore := hbegins.aside
  have hafter := aside_of_conclude hconclude
  have hlooks (reply : Option Cancellation) :
      .call .cancellation reply ∈ deedsOf none h ↔ Deed.call .cancellation reply ∈ t := by
    rw [hdeeds]
    simp [hbefore.looks, hafter.looks]
  have hcount : (deedsOf none h).countP Deed.joins = t.countP Deed.joins := by
    rw [hdeeds, List.countP_append, List.countP_append, hbefore.joins, hafter.joins]
    omega
  have haccounted := State.Reaches.accounted (joinsOnce_run hregistry automation record) hs he
  -- Without a wait for loop indices only the main task does anything.
  have halone (hnone : t.countP Deed.joins = 0) (ht : Heeds t (raisedOf result)) :
      Heeds (allDeeds h) (raisedOf result) := by
    rcases haccounted with ⟨-, hsilent⟩ | ⟨hone, -⟩
    · refine ht.congr fun c => ?_
      rw [mem_allDeeds_iff, ← hlooks]
      constructor
      · rintro ⟨_ | i, hm⟩
        · exact hm
        · rw [hsilent] at hm
          cases hm
      · exact fun hm => ⟨none, hm⟩
    · rw [hcount, hnone] at hone
      cases hone
  cases hcame with
  | @faulty fault _ _ hparse hfault ht =>
    have haside := Aside.of_logs ht
    refine halone haside.joins (.of_unasked (fun c => haside.looks _) fun failure hraised => ?_)
    rw [hfault] at hraised
    cases hraised
    cases fault <;> rfl
  | @gone config _ _ hparse hloops =>
    obtain ⟨ms, reason, t', rfl, hwent⟩ := ends_loops hloops
    cases hwent with
    | sequential hmode hends =>
      refine halone ?_ ?_
      · have hindexed := lawful_sequential (indexed_broad.steers hregistry automation) hends
        rw [List.countP_cons_of_neg (by simp [Deed.joins]), List.countP_append, hindexed.joins]
        rfl
      · have hheeds := lawful_sequential (Heeds.broad.steers hregistry automation) hends
        exact hheeds.congr fun c => by simp
    | interrupted =>
      refine ⟨?_, fun hraised hc => ?_⟩
      · intro _ _ hnone
        cases hnone
      · cases hraised
        cases hc
    -- All at once, loop indices have looked for themselves, and it was told what they came to.
    | @parallel outs hmode =>
      have hsplit : deedsOf none h = (before ++ [.call (.armTimeout ms reason) ()]) ++
          .wait (.loops config.runCount) ::
            (.wake .resumed :: .call .outcomes outs :: .call .disarmTimeout () :: after) := by
        rw [hdeeds]
        simp
      have hmain (reply : Option Cancellation) : .call .cancellation reply ∉ deedsOf none h :=
        fun hm => by simpa using (hlooks reply).mp hm
      rcases haccounted with ⟨hnone, -⟩ | ⟨-, htrue⟩
      · rw [hcount] at hnone
        cases hnone
      · exact heeds_accounted hregistry hmain (htrue _ _ _ outs hsplit (by simp))

end Schedules

/-! ### The status -/

end Whole

/-- The statuses in which a request to stop shows. -/
def Cancellation.ShowsIn (c : Cancellation) (status : RunStatus) : Prop :=
  if c.timedOut then status = .failed else status = .cancelled ∨ status = .failed

namespace Whole

theorem status_finished (r : RunRecord) (s : Snapshot) (now : Rat) (ending : Ending) :
    (finished r s now ending).status = (ending.verdict r.errorMessage).1 := rfl

/-- A run whose loop indices succeeded is judged by the message that its record began with. -/
theorem status_of_not_raised {result : Except Failure (Option RunError)} {earlier : String}
    (h : raisedOf result = none) :
    ((endingOf result).verdict earlier).1 = if earlier = "" then .completed else .failed := by
  rcases result with _ | _ | _ <;> cases h
  simp [endingOf, Ending.verdict]

/-- A run whose loop indices failed is not completed. -/
theorem status_ne_completed {result : Except Failure (Option RunError)} (earlier : String)
    (h : raisedOf result ≠ none) : ((endingOf result).verdict earlier).1 ≠ .completed := by
  rcases result with (e | f | _) | _ | e
  case error.error => exact nofun
  case error.fault => exact nofun
  case error.interrupted => exact nofun
  case ok.none => exact absurd rfl h
  case ok.some =>
    change (if e.cancellation? = some false then RunStatus.cancelled else .failed) ≠ .completed
    split <;> exact nofun

theorem not_showsIn_completed (c : Cancellation) : ¬ c.ShowsIn .completed := by
  unfold Cancellation.ShowsIn
  split <;> simp

theorem showsIn_failed (c : Cancellation) : c.ShowsIn .failed := by
  unfold Cancellation.ShowsIn
  split
  · rfl
  · exact .inr rfl

/-- A run whose loop indices failed shows the request, if they report no other one. -/
theorem showsIn_of_raised {c : Cancellation} {result : Except Failure (Option RunError)}
    (earlier : String) (hraised : raisedOf result ≠ none)
    (hne : raisedOf result ≠ some .interrupted)
    (hreports : ∀ {error timedOut}, raisedOf result = some (.error error) →
      error.cancellation? = some timedOut → c.timedOut = timedOut) :
    c.ShowsIn ((endingOf result).verdict earlier).1 := by
  rcases result with (e | f | _) | _ | e
  case error.error => exact showsIn_failed c
  case error.fault => exact showsIn_failed c
  case error.interrupted => exact absurd rfl hne
  case ok.none => exact absurd rfl hraised
  case ok.some =>
    change c.ShowsIn (if e.cancellation? = some false then .cancelled else .failed)
    split
    · rename_i hcancelled
      have hasked : c.timedOut = false := hreports rfl hcancelled
      simp [Cancellation.ShowsIn, hasked]
    · exact showsIn_failed c

/-- Some task comes to a checkpoint. -/
def Checked (h : List Happening) : Prop :=
  ∃ who reply, .deed who (.call .cancellation reply) ∈ h

/-! ### Rehearsals -/

/-- How long a task sleeps, if it does. -/
def sleep? {α : Type} : Schedule.Task α → Option Rat
  | .waiting (.sleep ms) _ => some ms
  | _ => none

/-- An automation whose only action takes two seconds, with a time limit of one second, and other
settings. -/
def hurried (settings : Fields) : Automation :=
  { id := "auto-1", name := "Auto"
    config := .object (("timeout", .int 1) :: settings)
    steps := [{ id := "s0", name := "Step 0", actions := [
      { id := "a0", actionType := "playwright:wait_for_timeout"
        config := [("timeout", .int 2000)] }] }] }

/-- Settings for two loop indices one after the other. -/
def twice : Fields := [("multirun", .object [
  ("enabled", .bool true), ("count", .int 2), ("delay_ms", .int 0)])]

/-- What is shared at the beginning of a rehearsal. -/
def onStage : Shared World := { sampleShared 1704067200000 with next := [.main] }

/-- A rehearsal after so many jobs, taken in their order. -/
def rehearsedFor (n : Nat) (automation : Automation) : State World Ended :=
  State.run World.collaborators (loopProgram sampleRunner automation sampleRecord.id) n
    (State.start onStage (run sampleRunner automation sampleRecord))

/-- A rehearsal is a schedule, and so is the rest of it. -/
theorem exists_parts (n m : Nat) (automation : Automation) : ∃ h₁ h₂,
    Scheduled World.collaborators sampleRunner automation sampleRecord onStage h₁
      (rehearsedFor n automation) ∧
    requested onStage.cancellation h₁ = (rehearsedFor n automation).shared.cancellation ∧
    Scheduled World.collaborators sampleRunner automation sampleRecord onStage (h₁ ++ h₂)
      (State.run World.collaborators (loopProgram sampleRunner automation sampleRecord.id) m
        (rehearsedFor n automation)) := by
  have hbegins : (State.start onStage (run sampleRunner automation sampleRecord)).InOrder :=
    State.inOrder_start _ rfl
  have hfirst : (rehearsedFor n automation).InOrder ∧ ∃ h, Scheduled World.collaborators
      sampleRunner automation sampleRecord onStage h (rehearsedFor n automation) :=
    State.run_reaches n hbegins
  obtain ⟨hi, h₁, hs₁⟩ := hfirst
  obtain ⟨-, h₂, hs₂⟩ := State.run_reaches m hi
  exact ⟨h₁, h₂, hs₁, (hs₁.heard (State.distinct_start _ _)).now.symm, hs₁.trans hs₂⟩

/-- **Stopping by request.** In every schedule, a run that comes to a checkpoint after it has been
asked to stop is not completed. Unless its task is interrupted, the request shows in the status
exactly when the run comes to a checkpoint afterwards, or fails anyway. -/
theorem reported_iff_checked {σ : Type} (env : Collaborators σ) (runner : Runner)
    (automation : Automation) (record : RunRecord) (shared : Shared σ) {h₁ h₂ : List Happening}
    {s : State σ Ended} {e : Ended} {c : Cancellation}
    (hs : Scheduled env { runner with registry := Catalogue.registry } automation record shared
      (h₁ ++ h₂) s)
    (he : s.main = .ended e) (hc : requested shared.cancellation h₁ = some c) :
    (Checked h₂ → e.record.status ≠ .completed) ∧
      (e.raised ≠ some .interrupted → (c.ShowsIn e.record.status ↔
        Checked h₂ ∨ e.raised ≠ none ∨ record.errorMessage ≠ "")) := by
  have hheard : Heard shared.cancellation (h₁ ++ h₂) s.shared.cancellation :=
    hs.heard (State.distinct_start _ _)
  rcases hs.judged Catalogue.registry_proper he with ⟨hrunning, hraised⟩ | ⟨result, hjudged, hheeds⟩
  · rw [hrunning]
    exact ⟨fun _ => nofun, fun hne => absurd hraised hne⟩
  -- A checkpoint finds the request, and so the loop indices have failed.
  have hchecked (h : Checked h₂) : raisedOf result ≠ none := by
    obtain ⟨who, reply, hm⟩ := h
    obtain rfl := hheard.found_request hc hm
    exact hheeds.heeded (mem_allDeeds_iff.mpr
      ⟨who, mem_deedsOf_iff.mpr (List.mem_append_right _ hm)⟩)
  -- A failure that reports a cancellation reports this request.
  have hreports {error : RunError} {timedOut : Bool} (h : raisedOf result = some (.error error))
      (ht : error.cancellation? = some timedOut) : c.timedOut = timedOut := by
    obtain ⟨c', hm, hout⟩ := hheeds.answers h ht
    obtain ⟨who, hm⟩ := mem_allDeeds_iff.mp hm
    rw [← hheard.eq_of_found hc (mem_deedsOf_iff.mp hm), hout]
  rcases hjudged with ⟨hrunning, hraised⟩ | ⟨r, snapshot, now, hmessage, hrecord, hraised⟩
  · rw [hrunning]
    exact ⟨fun _ => nofun, fun hne => absurd hraised hne⟩
  have hstatus : e.record.status = ((endingOf result).verdict record.errorMessage).1 := by
    rw [hrecord, status_finished, hmessage]
  rw [hstatus]
  cases hresult : raisedOf result with
  | none =>
    refine ⟨fun h => absurd hresult (hchecked h), fun hne => ?_⟩
    rw [status_of_not_raised hresult, hraised.resolve_right hne, hresult]
    by_cases hearlier : record.errorMessage = ""
    · rw [if_pos hearlier]
      refine iff_of_false (not_showsIn_completed c) ?_
      rintro (h | h | h)
      · exact hchecked h hresult
      · exact h rfl
      · exact h hearlier
    · rw [if_neg hearlier]
      exact iff_of_true (showsIn_failed c) (.inr (.inr hearlier))
  | some failure =>
    have hfailed : raisedOf result ≠ none := by simp [hresult]
    refine ⟨fun _ => status_ne_completed _ hfailed, fun hne => ?_⟩
    have hsame := hraised.resolve_right hne
    rw [hsame] at hne ⊢
    exact iff_of_true (showsIn_of_raised _ hfailed hne hreports) (.inr (.inl hfailed))

/-- Out of time in its first loop index, a run fails at the first step of the second. -/
theorem failed_at_next_loop_index : ∃ h₁ h₂ s e c,
    Scheduled World.collaborators sampleRunner (hurried twice) sampleRecord onStage (h₁ ++ h₂) s ∧
    s.main = .ended e ∧ requested onStage.cancellation h₁ = some c ∧ c.timedOut = true ∧
    e.record.status = .failed ∧ e.raised ≠ some .interrupted ∧
    (Checked h₂ → e.record.status ≠ .completed) ∧
    (c.ShowsIn e.record.status ↔
      Checked h₂ ∨ e.raised ≠ none ∨ sampleRecord.errorMessage ≠ "") := by
  obtain ⟨h₁, h₂, -, hrequested, hs⟩ := exists_parts 4 6 (hurried twice)
  have hc : (rehearsedFor 4 (hurried twice)).shared.cancellation =
      some ⟨"automation timed out after 1s", true⟩ := by
    decide +kernel
  obtain ⟨e, he, hout⟩ : ∃ e, (State.run World.collaborators
      (loopProgram sampleRunner (hurried twice) sampleRecord.id) 6
      (rehearsedFor 4 (hurried twice))).main = .ended e ∧
      (e.record.status, e.raised.bind Failure.cancellation?) = (.failed, some true) :=
    Task.exists_ended (by decide +kernel)
  obtain ⟨hstatus, hraised⟩ := Prod.mk.inj hout
  have hne : e.raised ≠ some .interrupted := by
    intro h
    rw [h] at hraised
    cases hraised
  obtain ⟨hchecked, hshows⟩ := reported_iff_checked World.collaborators sampleRunner
    (hurried twice) sampleRecord onStage hs he (hrequested.trans hc)
  exact ⟨h₁, h₂, _, e, _, hs, he, hrequested.trans hc, rfl, hstatus, hne, hchecked, hshows hne⟩

/-- Out of time in its last action, a run completes as if it had been in time. -/
theorem completed_when_out_of_time : ∃ h₁ s₁ h₂ s e,
    Scheduled World.collaborators sampleRunner (hurried []) sampleRecord onStage h₁ s₁ ∧
    requested onStage.cancellation h₁ = some ⟨"automation timed out after 1s", true⟩ ∧
    sleep? s₁.main = some 2000 ∧
    Scheduled World.collaborators sampleRunner (hurried []) sampleRecord onStage (h₁ ++ h₂) s ∧
    s.main = .ended e ∧ e.record.status = .completed ∧ e.raised.isNone = true := by
  obtain ⟨h₁, h₂, hs₁, hrequested, hs⟩ := exists_parts 4 6 (hurried [])
  have hc : (rehearsedFor 4 (hurried [])).shared.cancellation =
      some ⟨"automation timed out after 1s", true⟩ := by
    decide +kernel
  obtain ⟨e, he, hout⟩ : ∃ e, (State.run World.collaborators
      (loopProgram sampleRunner (hurried []) sampleRecord.id) 6
      (rehearsedFor 4 (hurried []))).main = .ended e ∧
        (e.record.status, e.raised.isNone) = (.completed, true) :=
    Task.exists_ended (by decide +kernel)
  obtain ⟨hstatus, hraised⟩ := Prod.mk.inj hout
  exact ⟨h₁, _, h₂, _, e, hs₁, hrequested.trans hc, by decide +kernel, hs, he, hstatus, hraised⟩

end Whole

end Runbook
