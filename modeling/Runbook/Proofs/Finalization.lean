import Runbook.Proofs.InOrder
import Runbook.Proofs.Paths
import Runbook.Rehearsal.Whole

/-!
# Finishing a run

However a run goes, its end is one of two. Either it completes its record, saves it and then tells
about it, or its task is interrupted at a moment when nothing finishes the record any more.

* `Whole.notices`: what a trace tells the channels.
* `Whole.Closed`, `Whole.ends_finish`: the three ways in which a run is closed.
* `Whole.ends_run`: either a run is not even begun, or it goes through its loop indices.
* `Whole.Finalized`: the record is complete, and it is the one that was last to be saved.
* `Whole.CutShort`: the task was interrupted at such a moment.
-/

namespace Runbook

open Program Schedule Rehearsal

/-- A wait that is not for loop indices. -/
def Wait.Aside (w : Wait) : Prop := ∀ n, w ≠ .loops n

namespace Whole

/-! ### The end of a trace -/

/-- A call that only tells somebody something. -/
def Tells : Call → Prop
  | .log _ => True
  | .notify _ _ => True
  | _ => False

/-- A trace with which the record of a run has been asked to be saved, and nothing more is done than
to tell about it. -/
def SavedLast (r : RunRecord) (wake : Wake) (t : List Deed) : Prop :=
  ∃ before reply told, t = before ++ .call (.save r) reply :: .wait .store :: .wake wake :: told ∧
    ∀ d ∈ told, ∃ c reply, d = .call c reply ∧ Tells c

/-- A trace that ends with an interruption while finishing waits for room or for the consumer. -/
def LeftOpen (t : List Deed) : Prop :=
  ∃ before w, t = before ++ [.wait w, .wake .interrupted] ∧ (w = .room ∨ w = .consumer)

theorem LeftOpen.append {t : List Deed} (h : LeftOpen t) (before : List Deed) :
    LeftOpen (before ++ t) := by
  obtain ⟨before', w, rfl, hw⟩ := h
  exact ⟨before ++ before', w, by simp, hw⟩

theorem SavedLast.append {r : RunRecord} {wake : Wake} {t : List Deed} (h : SavedLast r wake t)
    (before : List Deed) : SavedLast r wake (before ++ t) := by
  obtain ⟨before', reply, told, rfl, htold⟩ := h
  exact ⟨before ++ before', reply, told, by simp, htold⟩

/-! ### Notices -/

/-- The notices that a trace sends, each with the channels that it is for. -/
def notices (t : List Deed) : List (NotificationMessage × List Channel) :=
  t.filterMap fun
    | .call (.notify m channels) _ => some (m, channels)
    | _ => none

@[simp]
theorem notices_append (t t' : List Deed) : notices (t ++ t') = notices t ++ notices t' :=
  List.filterMap_append

/-- A call that tells nobody sends no notice. -/
theorem notices_eq_nil {t : List Deed} (h : ∀ m channels reply,
    .call (.notify m channels) reply ∉ t) : notices t = [] := by
  refine List.filterMap_eq_nil_iff.mpr fun d hd => ?_
  rcases d with ⟨c, reply⟩ | _ | _
  case call =>
    cases c
    case notify m channels => exact absurd hd (h m channels reply)
    all_goals rfl
  all_goals rfl

/-- What is told about a record, if there are channels. -/
def announced (automation : Automation) (r : RunRecord) (channels : List Channel) :
    List (NotificationMessage × List Channel) :=
  if channels.isEmpty then [] else [(messageOf automation r, channels)]

/-! ### What finishing can only do -/

/-- A call that finishes a run without telling anybody outside. -/
def Routine : Call → Prop
  | .now | .log _ | .save _ | .closeQueue | .offerEnd | .snapshot | .stopTicker => True
  | _ => False

theorem only_stopTicker : Only Routine Wait.Aside stopTicker :=
  (only_ask trivial).bind fun _ => (only_await (by simp [Wait.Aside])).bind fun _ => only_pure _

theorem only_closeQueue : Only Routine Wait.Aside closeQueue := by
  refine (only_ask trivial).bind fun wasOpen => ?_
  cases wasOpen with
  | false => exact only_pure _
  | true =>
    refine (only_ask trivial).bind fun hadRoom => ?_
    cases hadRoom with
    | true => exact only_pure _
    | false =>
      refine (only_await (by simp [Wait.Aside])).bind fun wake => ?_
      cases wake with
      | interrupted => exact only_pure _
      | resumed => exact (only_ask trivial).bind fun _ => only_pure _

theorem only_waitClosed : Only Routine Wait.Aside waitClosed := by
  refine (only_await (by simp [Wait.Aside])).bind fun wake => ?_
  cases wake with
  | interrupted => exact only_pure _
  | resumed => exact only_stopTicker.bind fun _ => only_pure _

theorem only_save (r : RunRecord) : Only Routine Wait.Aside (save r) := by
  refine (only_ask trivial).bind fun reply => (only_await (by simp [Wait.Aside])).bind
    fun wake => ?_
  cases wake with
  | interrupted => exact only_pure _
  | resumed =>
    cases reply with
    | ok => exact only_pure _
    | error f => exact (only_ask trivial).bind fun _ => only_pure _

theorem only_tells_notify (automation : Automation) (r : RunRecord) (channels : List Channel) :
    Only Tells (fun _ => False) (notify automation r channels) := by
  unfold notify
  split
  · exact only_pure ()
  · refine (only_ask trivial).bind fun reply => ?_
    cases reply with
    | ok => exact only_pure _
    | error f => exact only_ask trivial

/-- Finishing makes routine calls and tells about it. -/
theorem only_finish (automation : Automation) (r : RunRecord) (channels : List Channel)
    (ending : Ending) (raised : Option Failure) :
    Only (fun c => Routine c ∨ Tells c) Wait.Aside
      (finish automation r channels ending raised) := by
  have hroutine {α : Type} {p : Program α} (hp : Only Routine Wait.Aside p) :
      Only (fun c => Routine c ∨ Tells c) Wait.Aside p :=
    hp.mono (fun _ => .inl) fun _ => id
  refine (hroutine only_closeQueue).bind fun wake => ?_
  cases wake with
  | interrupted => exact only_pure _
  | resumed =>
    refine (hroutine only_waitClosed).bind fun wake => ?_
    cases wake with
    | interrupted => exact only_pure _
    | resumed =>
      refine (only_ask (.inl trivial)).bind fun s => (only_ask (.inl trivial)).bind fun now =>
        (hroutine (only_save _)).bind fun wake => ?_
      cases wake with
      | interrupted => exact only_pure _
      | resumed =>
        exact ((only_tells_notify automation _ channels).mono (fun _ => .inr)
          fun _ => False.elim).bind fun _ => only_pure _

/-- What makes routine calls only sends no notice. -/
theorem notices_of_routine {α : Type} {p : Program α} (hp : Only Routine Wait.Aside p)
    {t : List Deed} {a : α} (h : p.Ends t a) : notices t = [] :=
  notices_eq_nil fun _ _ _ hm => (hp.of_leads h).2.1 _ _ hm

/-- The notice about a record is the only one that is sent. -/
theorem notices_of_notify {automation : Automation} {r : RunRecord} {channels : List Channel}
    {t : List Deed} {a : Unit} (h : (notify automation r channels).Ends t a) :
    notices t = announced automation r channels := by
  unfold notify at h
  unfold announced
  split at h
  · obtain ⟨rfl, -⟩ := ends_pure_iff.mp h
    rw [if_pos ‹_›]
    rfl
  · rw [if_neg ‹_›]
    obtain ⟨reply, t₁, rfl, h₁⟩ := ends_ask_bind_iff.mp h
    cases reply with
    | ok =>
      obtain ⟨rfl, -⟩ := ends_pure_iff.mp h₁
      rfl
    | error f =>
      obtain rfl := ends_ask_iff.mp h₁
      rfl

/-! ### Parts of finishing -/

theorem ends_save {r : RunRecord} {t : List Deed} {w : Wake} (h : (save r).Ends t w) :
    ∃ reply told, t = .call (.save r) reply :: .wait .store :: .wake w :: told ∧
      (w = .interrupted → told = []) ∧ ∀ d ∈ told, ∃ r, d = .call (.log r) () := by
  rw [save, ends_ask_bind_iff] at h
  obtain ⟨reply, _, rfl, h⟩ := h
  rw [ends_await_bind_iff] at h
  obtain ⟨wake, told, rfl, h⟩ := h
  cases wake with
  | interrupted =>
    obtain ⟨rfl, rfl⟩ := ends_pure_iff.mp h
    exact ⟨reply, [], rfl, fun _ => rfl, by simp⟩
  | resumed =>
    cases reply with
    | ok =>
      obtain ⟨rfl, rfl⟩ := ends_pure_iff.mp h
      exact ⟨.ok (), [], rfl, fun _ => rfl, by simp⟩
    | error f =>
      replace h := ends_ask_bind_iff.mp h
      obtain ⟨_, rest, rfl, h⟩ := h
      obtain ⟨rfl, rfl⟩ := ends_pure_iff.mp h
      exact ⟨.error f, _, rfl, by simp, List.forall_mem_singleton.mpr ⟨_, rfl⟩⟩

theorem ends_closeQueue_interrupted {t : List Deed} (h : closeQueue.Ends t .interrupted) :
    LeftOpen t := by
  rw [closeQueue, ends_ask_bind_iff] at h
  obtain ⟨wasOpen, t₁, rfl, h⟩ := h
  cases wasOpen with
  | false => cases (ends_pure_iff.mp h).2
  | true =>
    rw [if_pos rfl, ends_ask_bind_iff] at h
    obtain ⟨hadRoom, t₂, rfl, h⟩ := h
    cases hadRoom with
    | true => cases (ends_pure_iff.mp h).2
    | false =>
      rw [if_neg Bool.false_ne_true, ends_await_bind_iff] at h
      obtain ⟨wake, t₃, rfl, h⟩ := h
      cases wake with
      | resumed =>
        obtain ⟨_, t₄, -, h⟩ := ends_ask_bind_iff.mp h
        cases (ends_pure_iff.mp h).2
      | interrupted =>
        obtain ⟨rfl, -⟩ := ends_pure_iff.mp h
        exact ⟨[_, _], .room, rfl, .inl rfl⟩

theorem ends_waitClosed_interrupted {t : List Deed} (h : waitClosed.Ends t .interrupted) :
    LeftOpen t := by
  rw [waitClosed, ends_await_bind_iff] at h
  obtain ⟨wake, t₁, rfl, h⟩ := h
  cases wake with
  | resumed =>
    obtain ⟨_, _, _, rfl, -, h⟩ := ends_bind_iff.mp h
    cases (ends_pure_iff.mp h).2
  | interrupted =>
    obtain ⟨rfl, -⟩ := ends_pure_iff.mp h
    exact ⟨[], .consumer, rfl, .inr rfl⟩

theorem tells_of_logs {t : List Deed} (h : ∀ d ∈ t, ∃ r, d = .call (.log r) ()) :
    ∀ d ∈ t, ∃ c reply, d = .call c reply ∧ Tells c := by
  intro d hd
  obtain ⟨r, rfl⟩ := h d hd
  exact ⟨.log r, (), rfl, trivial⟩

/-! ### The ways in which a run is closed -/

/-- How a run of a record is closed, and what it tells the channels meanwhile. -/
inductive Closed (automation : Automation) (r : RunRecord) (channels : List Channel)
    (ending : Ending) (raised : Option Failure) (t : List Deed) : Ended → Prop
  /-- Interrupted while it gathers, it leaves the record as it is. -/
  | left (hopen : LeftOpen t) (hnone : notices t = []) :
      Closed automation r channels ending raised t ⟨r, some .interrupted⟩
  /-- Interrupted while it saves, it tells nobody. -/
  | saved (s : Snapshot) (now : Rat) (hsaved : SavedLast (finished r s now ending) .interrupted t)
      (hnone : notices t = []) :
      Closed automation r channels ending raised t ⟨finished r s now ending, some .interrupted⟩
  | told (s : Snapshot) (now : Rat) (hsaved : SavedLast (finished r s now ending) .resumed t)
      (htold : notices t = announced automation (finished r s now ending) channels) :
      Closed automation r channels ending raised t ⟨finished r s now ending, raised⟩

/-- What was done before without telling anybody does not change how a run is closed. -/
theorem Closed.append {automation : Automation} {r : RunRecord} {channels : List Channel}
    {ending : Ending} {raised : Option Failure} {t : List Deed} {e : Ended}
    (h : Closed automation r channels ending raised t e) (before : List Deed)
    (hbefore : notices before = []) :
    Closed automation r channels ending raised (before ++ t) e := by
  cases h with
  | left hopen hnone => exact .left (hopen.append before) (by simp [hbefore, hnone])
  | saved s now hsaved hnone => exact .saved s now (hsaved.append before) (by simp [hbefore, hnone])
  | told s now hsaved htold => exact .told s now (hsaved.append before) (by simp [hbefore, htold])

theorem ends_finish {automation : Automation} {r : RunRecord} {channels : List Channel}
    {ending : Ending} {raised : Option Failure} {t : List Deed} {e : Ended}
    (h : (finish automation r channels ending raised).Ends t e) :
    Closed automation r channels ending raised t e := by
  rw [finish, ends_bind_iff] at h
  obtain ⟨t₁, wake, t₂, rfl, h₁, h⟩ := h
  have hclosed := notices_of_routine only_closeQueue h₁
  cases wake with
  | interrupted =>
    obtain ⟨rfl, rfl⟩ := ends_pure_iff.mp h
    rw [List.append_nil]
    exact .left (ends_closeQueue_interrupted h₁) hclosed
  | resumed =>
    refine Closed.append ?_ _ hclosed
    replace h := ends_bind_iff.mp h
    obtain ⟨t₂, wake, t₃, rfl, h₂, h⟩ := h
    have hwaited := notices_of_routine only_waitClosed h₂
    cases wake with
    | interrupted =>
      obtain ⟨rfl, rfl⟩ := ends_pure_iff.mp h
      rw [List.append_nil]
      exact .left (ends_waitClosed_interrupted h₂) hwaited
    | resumed =>
      refine Closed.append ?_ _ hwaited
      replace h := ends_ask_bind_iff.mp h
      obtain ⟨s, t₄, rfl, h⟩ := h
      replace h := ends_ask_bind_iff.mp h
      obtain ⟨now, t₅, rfl, h⟩ := h
      replace h := ends_bind_iff.mp h
      obtain ⟨t₆, wake, t₇, rfl, hsave, h⟩ := h
      have hsaves := notices_of_routine (only_save _) hsave
      suffices Closed automation r channels ending raised (t₆ ++ t₇) e from
        this.append [.call .snapshot s, .call .now now] rfl
      cases wake with
      | interrupted =>
        obtain ⟨rfl, rfl⟩ := ends_pure_iff.mp h
        rw [List.append_nil]
        obtain ⟨reply, told, rfl, -, htold⟩ := ends_save hsave
        exact .saved s now ⟨[], reply, told, rfl, tells_of_logs htold⟩ hsaves
      | resumed =>
        replace h := ends_bind_iff.mp h
        obtain ⟨t₈, _, t₉, rfl, hnotify, h⟩ := h
        obtain ⟨rfl, rfl⟩ := ends_pure_iff.mp h
        rw [List.append_nil]
        refine .told s now ?_ (by rw [notices_append, hsaves, notices_of_notify hnotify,
          List.nil_append])
        obtain ⟨reply, told, rfl, -, htold⟩ := ends_save hsave
        refine ⟨[], reply, told ++ t₈, rfl, fun d hd => ?_⟩
        rcases List.mem_append.mp hd with hd | hd
        · exact tells_of_logs htold d hd
        · exact (only_tells_notify automation _ channels).deed_of_ends hnotify d hd

/-- How the loop indices came to an end, given what they come to. -/
def endingOf : Except Failure (Option RunError) → Ending
  | .ok none => .completed
  | .ok (some e) => .failed e
  | .error .interrupted => .failed (.cancelled "run task cancelled" false)
  | .error e => .crashed e

/-- What a run raises, given what its loop indices come to. -/
def raisedOf : Except Failure (Option RunError) → Option Failure
  | .ok e => e.map .error
  | .error e => some e

/-- The channels that are told of a run, given what its loop indices come to: none after a crash. -/
def toldOf (channels : List Channel) : Except Failure (Option RunError) → List Channel
  | .ok _ => channels
  | .error _ => []

theorem only_stopGathering :
    Only (fun c => Routine c ∨ c = .stopConsumer) Wait.Aside stopGathering :=
  (only_ask (.inl trivial)).bind fun _ => (only_ask (.inr rfl)).bind fun _ =>
    (only_await (by simp [Wait.Aside])).bind fun _ =>
      only_stopTicker.mono (fun _ => .inl) fun _ => id

/-- A run is closed by what its loop indices come to. -/
theorem ends_conclude {automation : Automation} {r : RunRecord} {channels : List Channel}
    {result : Except Failure (Option RunError)} {t : List Deed} {e : Ended}
    (h : (conclude automation r channels result).Ends t e) :
    Closed automation r (toldOf channels result) (endingOf result) (raisedOf result) t e := by
  -- What comes first differs; then the run is finished in the same way.
  rcases result with (e | f | _) | _ | e
  case error.interrupted =>
    obtain ⟨_, t₁, rfl, h₁⟩ := ends_ask_bind_iff.mp h
    obtain ⟨t₂, _, t₃, rfl, hstop, h₂⟩ := ends_bind_iff.mp h₁
    refine (ends_finish h₂).append (.call (.cancel "run task cancelled" false) () :: t₂)
      (notices_eq_nil fun m channels reply hm => ?_)
    rcases List.mem_cons.mp hm with hm | hm
    · cases hm
    · rcases (only_stopGathering.of_leads hstop).2.1 _ _ hm with hc | hc
      · exact hc
      · cases hc
  case error.error =>
    obtain ⟨t₁, _, t₂, rfl, hlog, h₁⟩ := ends_bind_iff.mp h
    obtain rfl := ends_ask_iff.mp hlog
    exact (ends_finish h₁).append [_] rfl
  case error.fault =>
    obtain ⟨t₁, _, t₂, rfl, hlog, h₁⟩ := ends_bind_iff.mp h
    obtain rfl := ends_ask_iff.mp hlog
    exact (ends_finish h₁).append [_] rfl
  case ok.none => exact ends_finish h
  case ok.some => exact ends_finish h

/-! ### A whole run -/

/-- A failure that the runner does not know. -/
def Unknown (e : Failure) : Prop := ∀ error, e ≠ .error error

/-- What the loop indices of a run come to, and with them the channels that are known: nothing but a
fault when the settings are wrong. -/
inductive CameTo (runner : Runner) (automation : Automation) (runId : String) :
    List Channel → List Deed → Except Failure (Option RunError) → Prop
  | faulty {fault : ConfigFault} {t : List Deed} {result : Except Failure (Option RunError)}
      (hparse : AutomationConfig.parse automation.config = .error fault)
      (hresult : raisedOf result = some fault.toFailure)
      (ht : ∀ d ∈ t, ∃ r, d = .call (.log r) ()) (hknown : ∀ e, result = .error e → Unknown e) :
      CameTo runner automation runId [] t result
  | gone {config : AutomationConfig} {t : List Deed} {result : Except Failure (Option RunError)}
      (hparse : AutomationConfig.parse automation.config = .ok config)
      (h : (loops (Loop.run runner automation config runId) config runId).Ends t result) :
      CameTo runner automation runId config.notifications t result

/-- A run starts to gather events, its loop indices come to a result, and it is concluded. -/
theorem ends_execute {runner : Runner} {automation : Automation} {r : RunRecord} {t : List Deed}
    {e : Ended} (h : (execute runner automation r).Ends t e) :
    ∃ t₁ t₂ channels result, t = .call (.startAggregator r) () :: (t₁ ++ t₂) ∧
      CameTo runner automation r.id channels t₁ result ∧
      (conclude automation r channels result).Ends t₂ e := by
  rw [execute, ends_ask_bind_iff] at h
  obtain ⟨_, t₁, rfl, h⟩ := h
  rcases hparse : AutomationConfig.parse automation.config with fault | config
  · rw [hparse] at h
    rcases hfault : fault.toFailure with e' | f | _ <;> simp only [hfault] at h
    case error =>
      obtain ⟨_, t₂, rfl, h₁⟩ := ends_ask_bind_iff.mp h
      exact ⟨[_], t₂, [], .ok (some e'), rfl,
        .faulty hparse (hfault ▸ rfl) (List.forall_mem_singleton.mpr ⟨_, rfl⟩)
          (fun _ heq => nomatch heq), h₁⟩
    case fault =>
      refine ⟨[], t₁, [], .error (.fault f), rfl, .faulty hparse (hfault ▸ rfl) (by simp) ?_, h⟩
      rintro _ ⟨⟩ _ ⟨⟩
    case interrupted =>
      refine ⟨[], t₁, [], .error .interrupted, rfl, .faulty hparse (hfault ▸ rfl) (by simp) ?_, h⟩
      rintro _ ⟨⟩ _ ⟨⟩
  · rw [hparse] at h
    obtain ⟨t₂, result, t₃, rfl, hloops, h⟩ := ends_bind_iff.mp h
    exact ⟨t₂, t₃, config.notifications, result, rfl, .gone hparse hloops, h⟩

/-- What a run does before its loop indices: it saves its beginning and starts to gather events. -/
def Begins (r : RunRecord) (t : List Deed) : Prop :=
  ∃ now reply told, t = .call .now now :: .call (.save r) reply :: .wait .store :: .wake .resumed ::
    (told ++ [.call (.startAggregator r) ()]) ∧ ∀ d ∈ told, ∃ r, d = .call (.log r) ()

/-- Either the task of a run is interrupted while its beginning is saved, or the run begins, its
loop indices come to a result, and it is concluded. -/
theorem ends_run {runner : Runner} {automation : Automation} {record : RunRecord} {t : List Deed}
    {e : Ended} (h : (run runner automation record).Ends t e) :
    (∃ now reply, t = [.call .now now, .call (.save (begun record now)) reply, .wait .store,
      .wake .interrupted] ∧ e = ⟨begun record now, some .interrupted⟩) ∨
    ∃ now before t₁ t₂ channels result, t = before ++ (t₁ ++ t₂) ∧
      Begins (begun record now) before ∧ CameTo runner automation record.id channels t₁ result ∧
      (conclude automation (begun record now) channels result).Ends t₂ e := by
  rw [run, ends_ask_bind_iff] at h
  obtain ⟨now, t₁, rfl, h⟩ := h
  obtain ⟨t₂, wake, t₃, rfl, hsave, h₁⟩ := ends_bind_iff.mp h
  obtain ⟨reply, told, rfl, hnone, htold⟩ := ends_save hsave
  cases wake with
  | interrupted =>
    obtain ⟨rfl, rfl⟩ := ends_pure_iff.mp h₁
    exact .inl ⟨now, reply, by simp [hnone rfl], rfl⟩
  | resumed =>
    obtain ⟨t₄, t₅, channels, result, rfl, hcame, hconclude⟩ := ends_execute h₁
    exact .inr ⟨now, _, t₄, t₅, channels, result, by simp, ⟨now, reply, told, rfl, htold⟩, hcame,
      hconclude⟩

/-! ### Finalization -/

/-- The records that a trace asks the store to save, in order. -/
def saves (t : List Deed) : List RunRecord :=
  t.filterMap fun
    | .call (.save r) _ => some r
    | _ => none

/-- A run that has ended is finalized: its status is final, the time at which it ended is known, and
the record that was last to be saved is this one. -/
structure Finalized (t : List Deed) (e : Ended) : Prop where
  terminal : e.record.isTerminal = true
  timed : e.record.endTime.isSome = true
  saved : (saves t).getLast? = some e.record

/-- The task of a run is interrupted when nothing finishes the record any more: while the beginning
of the run is saved, or while finishing waits for room in the queue or for the consumer. -/
def CutShort (t : List Deed) : Prop :=
  (∃ now r reply, t = [.call .now now, .call (.save r) reply, .wait .store, .wake .interrupted]) ∨
    LeftOpen t

theorem SavedLast.not_leftOpen {r : RunRecord} {wake : Wake} {t : List Deed}
    (h : SavedLast r wake t) : ¬ LeftOpen t := by
  rintro ⟨before', w, heq, hw⟩
  obtain ⟨before, reply, told, rfl, htold⟩ := h
  -- The last deed is told apart: the end of the wait for the store, or something that is told.
  rcases List.eq_nil_or_concat told with rfl | ⟨told, d, rfl⟩
  · have hends : (before ++ [.call (.save r) reply]) ++ [.wait .store, .wake wake] =
        before' ++ [.wait w, .wake .interrupted] := by simpa using heq
    have hlast := (List.append_inj' hends rfl).2
    rcases hw with rfl | rfl <;> cases hlast
  · have hends : (before ++ .call (.save r) reply :: .wait .store :: .wake wake :: told) ++ [d] =
        (before' ++ [.wait w]) ++ [.wake .interrupted] := by simpa using heq
    have hlast := (List.append_inj' hends rfl).2
    obtain ⟨c, reply', rfl, -⟩ := htold d (by simp)
    cases hlast

theorem SavedLast.getLast?_saves {r : RunRecord} {wake : Wake} {t : List Deed}
    (h : SavedLast r wake t) : (saves t).getLast? = some r := by
  obtain ⟨before, reply, told, rfl, htold⟩ := h
  have hnone : saves told = [] := by
    refine List.filterMap_eq_nil_iff.mpr fun d hd => ?_
    obtain ⟨c, reply', rfl, hc⟩ := htold d hd
    cases c <;> first | rfl | exact hc.elim
  have hsplit : saves (before ++ .call (.save r) reply :: .wait .store :: .wake wake :: told) =
      saves before ++ r :: saves told := by
    simp [saves]
  rw [hsplit, hnone]
  simp

theorem finished_isTerminal (r : RunRecord) (s : Snapshot) (now : Rat) (ending : Ending) :
    (finished r s now ending).isTerminal = true := by
  rcases ending with _ | e | e
  · by_cases hm : r.errorMessage.isEmpty <;>
      simp [finished, Ending.verdict, RunRecord.isTerminal, hm]
  · by_cases hc : e.cancellation? = some false <;>
      simp [finished, Ending.verdict, RunRecord.isTerminal, hc]
  · rfl

/-- A record that is saved last is final, unless the run is cut short while its beginning is
saved. -/
theorem SavedLast.finalized {record : RunRecord} {s : Snapshot} {end' : Rat} {ending : Ending}
    {wake : Wake} {t before : List Deed} {raised : Option Failure}
    (h : SavedLast (finished record s end' ending) wake t)
    (hbefore : ¬ ∃ now r reply, before ++ t =
      [.call .now now, .call (.save r) reply, .wait .store, .wake .interrupted]) :
    ¬ CutShort (before ++ t) ∧
      Finalized (before ++ t) ⟨finished record s end' ending, raised⟩ := by
  refine ⟨?_, finished_isTerminal .., rfl, (h.append _).getLast?_saves⟩
  rintro (hshort | hopen)
  · exact hbefore hshort
  · exact (h.append _).not_leftOpen hopen

/-- A run that is cut short leaves its record running; every other one finalizes it. -/
theorem finalized_or_cutShort {runner : Runner} {automation : Automation} {record : RunRecord}
    {t : List Deed} {e : Ended} (h : (run runner automation record).Ends t e) :
    CutShort t ∧ e.record.status = .running ∨ ¬ CutShort t ∧ Finalized t e := by
  rcases ends_run h with ⟨now, reply, rfl, rfl⟩ |
    ⟨now, before, t₁, t₂, channels, result, rfl, ⟨now', reply, told, rfl, -⟩, -, hconclude⟩
  · exact .inl ⟨.inl ⟨now, begun record now, reply, rfl⟩, rfl⟩
  · rw [← List.append_assoc]
    cases ends_conclude hconclude with
    | left hopen => exact .inl ⟨.inr (hopen.append _), rfl⟩
    | saved s end' hsaved => exact .inr (hsaved.finalized (by simp))
    | told s end' hsaved => exact .inr (hsaved.finalized (by simp))

/-- A run is finalized exactly when it is not cut short. -/
theorem finalized_iff {runner : Runner} {automation : Automation} {record : RunRecord}
    {t : List Deed} {e : Ended} (h : (run runner automation record).Ends t e) :
    Finalized t e ↔ ¬ CutShort t := by
  rcases finalized_or_cutShort h with ⟨hcut, hstatus⟩ | ⟨hcut, hfinal⟩
  · refine ⟨fun hfinal => ?_, fun hnot => absurd hcut hnot⟩
    have hterminal := hfinal.terminal
    rw [RunRecord.isTerminal, hstatus] at hterminal
    cases hterminal
  · exact ⟨fun _ => hcut, fun _ => hfinal⟩

/-! ### Finalization in all schedules -/

/-- A schedule of a run leads to a state. -/
def Scheduled {σ : Type} (env : Collaborators σ) (runner : Runner) (automation : Automation)
    (record : RunRecord) (shared : Shared σ) (h : List Happening) (s : State σ Ended) : Prop :=
  State.Reaches env (loopProgram runner automation record.id)
    (State.start shared (run runner automation record)) h s

/-- A run that has ended in a schedule has done what its program can do. -/
theorem Scheduled.ends {σ : Type} {env : Collaborators σ} {runner : Runner}
    {automation : Automation} {record : RunRecord} {shared : Shared σ} {h : List Happening}
    {s : State σ Ended} {e : Ended} (hs : Scheduled env runner automation record shared h s)
    (he : s.main = .ended e) : (run runner automation record).Ends (deedsOf none h) e :=
  hs.main_ends (State.distinct_start _ _) rfl he

/-- An automation without steps. -/
def emptyAutomation : Automation := { id := "auto-1", name := "Auto" }

/-- A run that has been rehearsed with the jobs in order. -/
def rehearsed (automation : Automation) (shared : Shared World) : State World Ended :=
  State.runMain World.collaborators (loopProgram sampleRunner automation sampleRecord.id) shared
    (run sampleRunner automation sampleRecord)

theorem exists_scheduled (automation : Automation) (shared : Shared World) (h : shared.ends = 0) :
    ∃ h, Scheduled World.collaborators sampleRunner automation sampleRecord shared h
      (rehearsed automation shared) :=
  State.runMain_reaches shared _ h

end Whole

end Runbook
