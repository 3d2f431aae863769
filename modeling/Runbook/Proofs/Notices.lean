import Runbook.Proofs.Course
import Runbook.Proofs.Weights
import Runbook.Rehearsal.Whole

/-!
# Notices about finished runs

The channels of the settings are told of a run after its record has been saved for the last time.
That happens at most once, and only the main task does it. A run in order, one that returns or
raises an error that the runner knows, tells them; a run that crashes does not, although its record
says that it failed, and neither does one whose task is interrupted while the record is saved.

* `Ended.InOrder`: the run returned, or raised an error that the runner knows.
* `Whole.notices_run`: what a run tells the channels.
* `Whole.noticed_iff_inOrder`: so it is in every schedule.
-/

namespace Runbook

open Program Schedule Rehearsal

/-- A run that has ended in order: it returned, or it raised an error that the runner knows. -/
def Ended.InOrder (e : Ended) : Prop := ∀ failure, e.raised = some failure →
  ∃ error, failure = .error error

theorem Ended.not_inOrder {r : RunRecord} {failure : Failure} (h : Whole.Unknown failure) :
    ¬ Ended.InOrder ⟨r, some failure⟩ := fun hin => by
  obtain ⟨error, herror⟩ := hin failure rfl
  exact h error herror

namespace Whole

/-! ### What a run tells -/

theorem notices_of_indexed {t : List Deed} (h : ∀ d ∈ t, d.Indexed) : notices t = [] :=
  notices_eq_nil fun _ _ _ hm => h _ hm

theorem notices_of_logs {t : List Deed} (h : ∀ d ∈ t, ∃ r, d = .call (.log r) ()) :
    notices t = [] := by
  refine notices_eq_nil fun _ _ _ hm => ?_
  obtain ⟨r, hr⟩ := h _ hm
  cases hr

theorem Begins.notices {r : RunRecord} {t : List Deed} (h : Begins r t) : notices t = [] := by
  obtain ⟨now, reply, told, rfl, htold⟩ := h
  calc Whole.notices (.call .now now :: .call (.save r) reply :: .wait .store :: .wake .resumed ::
        (told ++ [.call (.startAggregator r) ()]))
      = Whole.notices told ++ [] := notices_append told _
    _ = [] := by rw [notices_of_logs htold, List.append_nil]

theorem notices_of_loops {r : Runner} (hregistry : r.registry.Proper) {automation : Automation}
    {config : AutomationConfig} {runId : String} {t : List Deed}
    {result : Except Failure (Option RunError)}
    (h : (loops (Loop.run r automation config runId) config runId).Ends t result) :
    notices t = [] := by
  obtain ⟨ms, reason, t', rfl, hwent⟩ := ends_loops h
  have hnone : notices t' = [] := by
    cases hwent with
    | sequential _ hends =>
      exact notices_of_indexed (lawful_sequential (indexed_broad.steers hregistry automation) hends)
    | interrupted => rfl
    | parallel => rfl
  calc notices (.call (.armTimeout ms reason) () :: (t' ++ [.call .disarmTimeout ()]))
      = notices t' ++ [] := notices_append t' _
    _ = [] := by rw [hnone, List.append_nil]

/-- In order, a run tells the channels of its settings; otherwise it tells nobody. -/
theorem notices_run {r : Runner} (hregistry : r.registry.Proper) {automation : Automation}
    {record : RunRecord} {config : AutomationConfig} {t : List Deed} {e : Ended}
    (hparse : AutomationConfig.parse automation.config = .ok config)
    (h : (run r automation record).Ends t e) :
    (e.InOrder → notices t = announced automation e.record config.notifications) ∧
      (¬ e.InOrder → notices t = []) := by
  have hinterrupted : Unknown .interrupted := fun _ => nofun
  rcases ends_run h with ⟨now, reply, rfl, rfl⟩ |
    ⟨now, before, t₁, t₂, channels, result, rfl, hbegins, hcame, hconclude⟩
  · exact ⟨fun hin => absurd hin (Ended.not_inOrder hinterrupted), fun _ => rfl⟩
  cases hcame with
  | faulty hfault =>
    rw [hparse] at hfault
    cases hfault
  | gone hparse' hloops =>
    obtain rfl := Except.ok.inj (hparse.symm.trans hparse')
    rw [notices_append, notices_append, hbegins.notices, notices_of_loops hregistry hloops,
      List.nil_append, List.nil_append]
    cases ends_conclude hconclude with
    | left _ hnone => exact ⟨fun hin => absurd hin (Ended.not_inOrder hinterrupted), fun _ => hnone⟩
    | saved _ _ _ hnone =>
      exact ⟨fun hin => absurd hin (Ended.not_inOrder hinterrupted), fun _ => hnone⟩
    | told s now' _ htold =>
      rw [htold]
      obtain ⟨ms, reason, t', rfl, hwent⟩ := ends_loops hloops
      cases result with
      | ok found =>
        refine ⟨fun _ => rfl, fun hnot => absurd (fun failure hraised => ?_) hnot⟩
        obtain ⟨error, -, rfl⟩ := Option.map_eq_some_iff.mp hraised
        exact ⟨error, rfl⟩
      -- After a crash the settings are not at hand, so that there are no channels.
      | error failure =>
        exact ⟨fun hin => absurd hin (Ended.not_inOrder hwent.unknown), fun _ => rfl⟩

/-! ### What is told in a schedule -/

section Schedules

variable {σ : Type} {env : Collaborators σ} {automation : Automation} {record : RunRecord}
  {shared : Shared σ} {h : List Happening} {s : State σ Ended} {e : Ended}

/-- When only the main task tells anybody, what is told at all is what it tells. -/
theorem notices_allDeeds (hloops : ∀ i, notices (deedsOf (some i) h) = []) :
    notices (allDeeds h) = notices (deedsOf none h) := by
  induction h with
  | nil => rfl
  | cons x h ih =>
    have hrest (i : Nat) : notices (deedsOf (some i) h) = [] := by
      have hi := hloops i
      rw [← List.singleton_append, deedsOf_append, notices_append] at hi
      exact (List.append_eq_nil_iff.mp hi).2
    rw [← List.singleton_append, deedsOf_append, notices_append, ← ih hrest]
    rcases x with ⟨_ | i, d⟩ | _ | _ | _
    case deed.some =>
      have hi := hloops i
      rw [← List.singleton_append, deedsOf_append, notices_append, List.append_eq_nil_iff] at hi
      have hd : notices [d] = [] := by simpa [deedsOf] using hi.1
      calc notices (d :: allDeeds h)
          = notices [d] ++ notices (allDeeds h) := notices_append [d] _
        _ = notices (allDeeds h) := by rw [hd, List.nil_append]
    case deed.none => exact notices_append [d] _
    all_goals rfl

/-- Loop indices tell nobody. -/
theorem Scheduled.notices_loop {r : Runner} (hregistry : r.registry.Proper)
    (hs : Scheduled env r automation record shared h s) (i : Nat) :
    notices (deedsOf (some i) h) = [] := by
  obtain ⟨t, o, hends⟩ := hs.exists_ends_loop hregistry i
  have hindexed := lawful_loopProgram (indexed_broad.steers hregistry automation) hends
  exact notices_of_indexed fun d hd => hindexed d (List.mem_append_left _ hd)

theorem Scheduled.notices {r : Runner} (hregistry : r.registry.Proper)
    {config : AutomationConfig} (hparse : AutomationConfig.parse automation.config = .ok config)
    (hs : Scheduled env r automation record shared h s) (he : s.main = .ended e) :
    (e.InOrder → notices (allDeeds h) = announced automation e.record config.notifications) ∧
      (¬ e.InOrder → notices (allDeeds h) = []) := by
  rw [notices_allDeeds (hs.notices_loop hregistry)]
  exact notices_run hregistry hparse (hs.ends he)

end Schedules

/-! ### The channels -/

/-- Of the channels of a message about a record, those want it that ask for runs of its status. -/
theorem channelsFor_messageOf (automation : Automation) (r : RunRecord) (channels : List Channel) :
    (messageOf automation r).channelsFor channels = match r.status with
      | .completed => channels.filter Channel.onComplete
      | .failed => channels.filter Channel.onError
      | _ => [] := by
  have hwants (word : String) (hword : r.status.word = word) :
      (messageOf automation r).wantedBy =
        fun c => (word == "completed" && c.onComplete) || (word == "failed" && c.onError) := by
    funext c
    rw [NotificationMessage.wantedBy, ← hword]
    rfl
  unfold NotificationMessage.channelsFor
  cases hstatus : r.status <;> rw [hstatus] at hwants <;> rw [hwants _ rfl] <;>
    simp [RunStatus.word]

/-- **Notices.** In every schedule, a run with channels that returns or raises an error that the
runner knows tells them exactly once, when it has ended: the message carries the status of its
record, and the channels that want it are those that ask for runs of this status. Any other run,
although it may have failed or be complete, tells nobody. -/
theorem noticed_iff_inOrder {σ : Type} (env : Collaborators σ) (runner : Runner)
    (automation : Automation) (record : RunRecord) (shared : Shared σ) {config : AutomationConfig}
    {h : List Happening} {s : State σ Ended} {e : Ended}
    (hparse : AutomationConfig.parse automation.config = .ok config)
    (hchannels : config.notifications ≠ [])
    (hs : Scheduled env { runner with registry := Catalogue.registry } automation record shared h s)
    (he : s.main = .ended e) :
    (e.InOrder → notices (allDeeds h) = [(messageOf automation e.record, config.notifications)]) ∧
    (¬ e.InOrder → notices (allDeeds h) = []) ∧
    (messageOf automation e.record).status = e.record.status.word ∧
    (messageOf automation e.record).channelsFor config.notifications = match e.record.status with
      | .completed => config.notifications.filter Channel.onComplete
      | .failed => config.notifications.filter Channel.onError
      | _ => [] := by
  obtain ⟨hin, hout⟩ := hs.notices Catalogue.registry_proper hparse he
  refine ⟨fun h => ?_, hout, rfl, channelsFor_messageOf ..⟩
  rw [hin h, announced, if_neg (by simpa using hchannels)]

/-! ### Rehearsals -/

/-- Settings with one channel, that wants all runs. -/
def watching : Json := .object [("notifications", .list [.object [
  ("id", .text "alerts"), ("type", .text "webhook"), ("onComplete", .bool true),
  ("onError", .bool true)]])]

/-- An automation with one channel and some steps. -/
def watched (steps : List Step) : Automation := { emptyAutomation with config := watching, steps }

/-- A step whose only action crashes while its configuration is resolved: the count of digits is no
number. -/
def crashingStep : Step :=
  { id := "s0", name := "Step 0", actions := [
    { id := "a0", actionType := "playwright:log"
      config := [("message", .text "\x7b\x7bfunction.randomNumber.²\x7d\x7d")] }] }

/-- Whether a failure is one that the runner does not know, an interruption apart. -/
def isCrash : Failure → Bool
  | .fault _ => true
  | _ => false

/-- The channel is known from the settings. -/
theorem exists_channels : ∃ config, AutomationConfig.parse watching = .ok config ∧
    config.notifications.map Channel.id = ["alerts"] :=
  Json.exists_ok (by decide +kernel)

/-- A run without steps completes, and its channel is told. -/
theorem noticed_of_completed : ∃ config h s e,
    AutomationConfig.parse (watched []).config = .ok config ∧ config.notifications ≠ [] ∧
    Scheduled World.collaborators sampleRunner (watched []) sampleRecord
      (sampleShared 1704067200000) h s ∧
    s.main = .ended e ∧ e.record.status = .completed ∧
    notices (allDeeds h) = [(messageOf (watched []) e.record, config.notifications)] ∧
    (messageOf (watched []) e.record).channelsFor config.notifications =
      config.notifications.filter Channel.onComplete ∧
    s.shared.outside.sent.map Prod.fst = ["alerts"] := by
  obtain ⟨config, hparse, hids⟩ := exists_channels
  have hchannels : config.notifications ≠ [] := by
    intro hnone
    rw [hnone] at hids
    cases hids
  obtain ⟨h, hs⟩ := exists_scheduled (watched []) (sampleShared 1704067200000) rfl
  obtain ⟨e, he, hout⟩ : ∃ e, (rehearsed (watched []) (sampleShared 1704067200000)).main =
      .ended e ∧ (e.record.status, e.raised.isNone) = (.completed, true) :=
    Task.exists_ended (by decide +kernel)
  obtain ⟨hstatus, hraised⟩ := Prod.mk.inj hout
  obtain ⟨htold, -, -, hwanted⟩ := noticed_iff_inOrder World.collaborators sampleRunner (watched [])
    sampleRecord (sampleShared 1704067200000) hparse hchannels hs he
  have hin : e.InOrder := by
    intro failure hfailure
    rw [hfailure] at hraised
    cases hraised
  rw [hstatus] at hwanted
  exact ⟨config, h, _, e, hparse, hchannels, hs, he, hstatus, htold hin, hwanted, by decide +kernel⟩

/-- A run that crashes has failed, but its channel, which wants failed runs, is not told. -/
theorem unnoticed_of_crashed : ∃ config h s e,
    AutomationConfig.parse (watched [crashingStep]).config = .ok config ∧
    config.notifications.map Channel.onError = [true] ∧
    Scheduled World.collaborators sampleRunner (watched [crashingStep]) sampleRecord
      (sampleShared 1704067200000) h s ∧
    s.main = .ended e ∧ e.record.status = .failed ∧ notices (allDeeds h) = [] ∧
    s.shared.outside.sent.length = 0 := by
  obtain ⟨config, hparse, hwanted⟩ : ∃ config,
      AutomationConfig.parse (watched [crashingStep]).config = .ok config ∧
        config.notifications.map Channel.onError = [true] :=
    Json.exists_ok (by decide +kernel)
  obtain ⟨h, hs⟩ := exists_scheduled (watched [crashingStep]) (sampleShared 1704067200000) rfl
  obtain ⟨e, he, hout⟩ : ∃ e, (rehearsed (watched [crashingStep])
      (sampleShared 1704067200000)).main = .ended e ∧
        (e.record.status, e.raised.map isCrash) = (.failed, some true) :=
    Task.exists_ended (by decide +kernel)
  obtain ⟨hstatus, hraised⟩ := Prod.mk.inj hout
  have hnot : ¬ e.InOrder := by
    intro hin
    cases hfailure : e.raised with
    | none =>
      rw [hfailure] at hraised
      cases hraised
    | some failure =>
      obtain ⟨error, rfl⟩ := hin failure hfailure
      rw [hfailure] at hraised
      cases hraised
  exact ⟨config, h, _, e, hparse, hwanted, hs, he, hstatus,
    (hs.notices Catalogue.registry_proper hparse he).2 hnot, by decide +kernel⟩

end Whole

end Runbook
