import Runbook.Proofs.Course
import Runbook.Proofs.Meanwhile
import Runbook.Proofs.Storekeeping
import Runbook.Rehearsal.Desk
import Runbook.Rehearsal.Whole

/-!
# The record that is kept

A run writes to its store in two ways. It saves its whole record, at the beginning and at the end,
and meanwhile the aggregator writes down progress. What is kept in the end is right because of the
order in which a run is finished: the consumer is waited for, then the ticker is stopped and waited
for, and only then the record is completed from the last snapshot and saved. From there on nobody is
left who could write.

* `Rehearsal.Desk.keeps`: whoever works at a desk keeps records in its store.
* `Whole.lastSave?`: what the store answered when it was last asked to save a record.
* `Whole.Kept`: the store has taken a record, and nobody is left who could write.
* `Whole.assures_finish`, `Whole.assures_run`: this is how a run ends, unless it is cut short or the
  store refuses.
* `Whole.final_record_kept`: so it is in every schedule, and it stays so.
-/

namespace Runbook

open Program Schedule Rehearsal

/-- A record that has been saved is found again. -/
theorem RunStore.get?_of_save {r : RunRecord} {s s' : RunStore} (h : s.save r = .ok s')
    (hr : r.Legible) : s'.get? r.id = .ok (some r) := by
  unfold save whenOpen at h
  split at h
  · rename_i hopen
    cases hrow : Row.ofRecord r with
    | error f =>
      rw [hrow] at h
      cases h
    | ok row =>
      rw [hrow] at h
      cases h
      have hholds := Row.holds_ofRecord hr hrow
      -- Earlier rows of the run were taken out, and so the new one is found.
      have hnone :
          (s.rows.filter fun q => q.id != row.id).find? (fun q => q.id == r.id) = none := by
        refine List.find?_eq_none.mpr fun q hq => ?_
        have hother := (List.mem_filter.mp hq).2
        rw [← hholds.id]
        simpa using hother
      have hfound : (s.rows.filter (fun q => q.id != row.id) ++ [row]).find?
          (fun q => q.id == r.id) = some row := by
        rw [List.find?_append, hnone]
        simp [hholds.id]
      rw [get?, whenOpen, if_pos hopen]
      simp only [hfound, hholds.toRecord]
      rfl
  · cases h

/-! ### At a desk -/

namespace Rehearsal.Desk

/-- A store that has been put under a path is found there. -/
theorem lookup_putStore (p : Path) (s : RunStore) (stores : List (Path × RunStore)) :
    (putStore p s stores).lookup p = some s := by
  induction stores with
  | nil => simp [putStore]
  | cons q rest ih =>
    obtain ⟨q, t⟩ := q
    by_cases hq : q = p
    · simp [putStore, hq]
    · have hne : (p == q) = false := by simpa using Ne.symm hq
      simp only [putStore, if_neg hq, List.lookup_cons, hne, ih]

section Stores

variable (d : Desk)

theorem currentStore_onPage {α : Type} (i : Int) (f : Page → Except Fault α × Page) :
    (onPage i f d).2.currentStore = d.currentStore := by
  unfold onPage
  split <;> rfl

theorem currentStore_upload (key : String) (data : List UInt8) :
    (upload key data d).2.currentStore = d.currentStore := by
  unfold upload
  split <;> rfl

theorem currentStore_delete (key : String) : (delete key d).2.currentStore = d.currentStore := by
  unfold delete
  split <;> rfl

theorem currentStore_openSession (i : Nat) :
    (openSession i d).2.currentStore = d.currentStore := by
  rw [openSession, run_get_bind, run_bind]
  rcases (launcherDo (Launcher.session d.launcher.options (i : Int)) d).1 with outcome | context <;>
    rfl

theorem currentStore_closeSession (i : Nat) :
    (closeSession i d).2.currentStore = d.currentStore := by
  simp only [closeSession, run_get_bind]
  rcases d.sessions.lookup (i : Int) with _ | session <;> rfl

end Stores

/-- Whoever works at a desk keeps records in its store. -/
theorem keeps : KeepsRecords collaborators currentStore where
  save r d hok := by
    change (withStore (RunStore.save r) d).1 = .ok () at hok
    change d.currentStore.save r = .ok (withStore (RunStore.save r) d).2.currentStore
    unfold withStore at hok ⊢
    cases hsave : d.currentStore.save r with
    | error e =>
      rw [hsave] at hok
      cases hok
    | ok s => simp [currentStore, lookup_putStore]
  aloof c s hc := by
    cases c with
    | emit e =>
      rcases Shared.outside_emit collaborators e s with h | ⟨r, h⟩
      · exact congrArg currentStore h
      · exact (congrArg currentStore h).trans rfl
    | offerEnd =>
      obtain ⟨-, consumer, js, heq, -⟩ := Shared.offerEnd_spec s
      exact congrArg (·.outside.currentStore) heq
    | stopConsumer =>
      obtain ⟨consumer, js, heq, -⟩ := Shared.stopConsumer_spec s
      exact congrArg (·.outside.currentStore) heq
    | stopTicker =>
      obtain ⟨ticker, timers, js, heq, -⟩ := Shared.stopTicker_spec s
      exact congrArg (·.outside.currentStore) heq
    | page i call => exact currentStore_onPage s.outside i fun p => p.request call
    | screenshot i options => exact currentStore_onPage s.outside i fun p => p.screenshot options
    | upload key data contentType => exact currentStore_upload s.outside key data
    | delete key => exact currentStore_delete s.outside key
    | openSession i => exact currentStore_openSession s.outside i
    | closeSession i => exact currentStore_closeSession s.outside i
    | save r => exact absurd rfl (hc r)
    | _ => rfl

/-- A desk with an open store that is empty. -/
def ready (epoch : Rat) : Desk :=
  { stores := [(["runs.db"], ({} : RunStore).opened)], store := ["runs.db"], world := { epoch } }

end Rehearsal.Desk

namespace Whole

variable {σ : Type} {env : Collaborators σ} {store : σ → RunStore}

/-! ### The last save -/

/-- What the store answered when it was last asked to save a record. -/
def lastSave? (t : List Deed) : Option (Except Fault Unit) :=
  (t.filterMap fun
    | .call (.save _) reply => some reply
    | _ => none).getLast?

/-- Nothing is done that asks the store to save a record. -/
def Saveless (t : List Deed) : Prop := ∀ r reply, .call (.save r) reply ∉ t

theorem Saveless.lastSave?_append {t u : List Deed} (hu : Saveless u) :
    lastSave? (t ++ u) = lastSave? t := by
  have hnone : (u.filterMap fun
      | .call (.save _) reply => some reply
      | _ => none) = ([] : List (Except Fault Unit)) := by
    refine List.filterMap_eq_nil_iff.mpr fun d hd => ?_
    rcases d with ⟨c, reply⟩ | _ | _
    case call =>
      cases c
      case save r => exact absurd hd (hu r reply)
      all_goals rfl
    all_goals rfl
  rw [lastSave?, lastSave?, List.filterMap_append, hnone, List.append_nil]

theorem lastSave?_concat_save (t : List Deed) (r : RunRecord) (reply : Except Fault Unit) :
    lastSave? (t ++ [.call (.save r) reply]) = some reply := by
  simp [lastSave?]

/-- The store has taken a record that shows the last snapshot, and both daemons are over. -/
structure Kept (store : σ → RunStore) (r : RunRecord) (s : Shared σ) : Prop where
  still : s.Still
  shown : r.withSnapshot s.flushed = r
  saved : ∃ before : RunStore, before.save r = .ok (store s.outside)

theorem Kept.drifts {r : RunRecord} {s s' : Shared σ} (h : Kept store r s)
    (hs : Shared.Drifts store s s') : Kept store r s' := by
  obtain ⟨before, hbefore⟩ := h.saved
  refine ⟨hs.still h.still, ?_, before, ?_⟩
  · rw [hs.flushed h.still]
    exact h.shown
  · rw [hs.kept h.still]
    exact hbefore

/-- A record is kept if the last save succeeded. -/
def KeptIfSaved (store : σ → RunStore) (r : RunRecord) (t : List Deed) (s : Shared σ) : Prop :=
  lastSave? t = some (.ok ()) → Kept store r s

/-- A run ends with a record under an identifier, which is kept unless the run is cut short. -/
def KeptAtEnd (store : σ → RunStore) (id : String) (e : Ended) (t : List Deed) (s : Shared σ) :
    Prop :=
  e.record.id = id ∧ (¬ CutShort t → KeptIfSaved store e.record t s)

/-! ### What finishing a run assures -/

/-- A record that is kept stays so while nobody meddles. -/
theorem assures_keptIfSaved (hkeeps : KeepsRecords env store) {α : Type} {p : Program α}
    (hp : p.Only (fun c => ¬ c.Meddles) (fun _ => True)) {r : RunRecord} {t : List Deed}
    {s : Shared σ} (h : KeptIfSaved store r t s) :
    Assures env store (fun _ => KeptIfSaved store r) p t s := by
  refine (assures_of_only hkeeps hp t s).ends.mono ?_
  rintro a _ s' ⟨hdrifts, u, rfl, hu⟩ hlast
  have hsaveless : Saveless u := fun r reply hm => (hp.of_leads hu).2.1 _ _ hm trivial
  rw [hsaveless.lastSave?_append] at hlast
  exact (h hlast).drifts hdrifts

/-- Saving a record has it kept, when both daemons are over. -/
theorem assures_save (hkeeps : KeepsRecords env store) {r : RunRecord} {s : Shared σ}
    (hstill : s.Still) (hshown : r.withSnapshot s.flushed = r) (t : List Deed) :
    Assures env store (fun _ => KeptIfSaved store r) (save r) t s := by
  refine assures_ask_bind id (assures_keptIfSaved hkeeps ?_ ?_)
  · refine (only_await trivial).bind fun wake => ?_
    cases wake with
    | interrupted => exact only_pure _
    | resumed =>
      cases (Shared.answer env (.save r) s).1 with
      | ok => exact only_pure _
      | error f => exact (only_ask id).bind fun _ => only_pure _
  · intro hlast
    rw [lastSave?_concat_save] at hlast
    exact ⟨⟨hstill.consumer, hstill.ticker⟩, hshown, store s.outside,
      hkeeps.save r s.outside (Option.some.inj hlast)⟩

/-- When the consumer and the ticker have been waited for, they are over. -/
theorem assures_waitClosed (t : List Deed) (s : Shared σ) :
    Assures env store (fun wake t' s' => (wake = .interrupted → LeftOpen t') ∧
      (wake = .resumed → s'.Still)) waitClosed t s := by
  intro s₁ wake hconsumer
  cases wake with
  | interrupted => exact ⟨fun _ => ⟨t, .consumer, rfl, .inr rfl⟩, nofun⟩
  | resumed =>
    intro s₂ s₃ hs₂ hs₃ s₄ _ hticker
    obtain rfl := hs₂.eq id
    obtain rfl := hs₃.eq id
    have hstop : Shared.Drifts store s₂ (Shared.stopTicker s₂).2 := Shared.drifts_stopTicker s₂
    refine ⟨nofun, fun _ => ⟨?_, ?_⟩⟩
    · exact hticker.consumer (hstop.consumer (hconsumer.consumed rfl))
    · exact hticker.ticked rfl (Shared.ticker_stopTicker s₂).1

/-- Finishing a run has its record kept, unless it is interrupted while it gathers. -/
theorem assures_finish (hkeeps : KeepsRecords env store) (automation : Automation) (r : RunRecord)
    (channels : List Channel) (ending : Ending) (raised : Option Failure) (t : List Deed)
    (s : Shared σ) :
    Assures env store (KeptAtEnd store r.id) (finish automation r channels ending raised)
      t s := by
  have hopen {e : Ended} {t : List Deed} {s : Shared σ} (hid : e.record.id = r.id)
      (h : LeftOpen t) : KeptAtEnd store r.id e t s :=
    ⟨hid, fun hcut => absurd (.inr h) hcut⟩
  have hany : Assures env store (fun _ _ _ => True) closeQueue t s :=
    assures_of_forall (fun _ _ _ => trivial) _ t s
  refine Assures.bind (hany.ends.mono ?_)
  rintro wake _ s₁ ⟨-, u, rfl, hclose⟩
  cases wake with
  | interrupted => exact hopen rfl ((ends_closeQueue_interrupted hclose).append t)
  | resumed =>
    refine Assures.bind ((assures_waitClosed _ s₁).mono ?_)
    rintro wake t₂ s₂ ⟨hleft, hstill⟩
    cases wake with
    | interrupted => exact hopen rfl (hleft rfl)
    | resumed =>
      -- The record shows the last snapshot, and no snapshot is made after this one.
      let final := finished r s₂.flushed s₂.clock ending
      have hsave : Assures env store (fun _ => KeptIfSaved store final) (save final)
          (t₂ ++ [.call .snapshot s₂.flushed] ++ [.call .now s₂.clock]) s₂ :=
        assures_save hkeeps (hstill rfl) rfl _
      refine assures_ask_bind id (assures_ask_bind id (Assures.bind (hsave.mono ?_)))
      intro wake t₃ s₃ hkept
      cases wake with
      | interrupted => exact ⟨rfl, fun _ => hkept⟩
      | resumed =>
        have htold : Only (fun c => ¬ c.Meddles) (fun _ => True)
            (notify automation final channels) :=
          (only_tells_notify ..).mono (fun c hc => by cases c <;> first | exact hc.elim | exact id)
            fun _ => False.elim
        refine Assures.bind ((assures_keptIfSaved hkeeps htold hkept).mono ?_)
        exact fun _ t₄ s₄ hkept => ⟨rfl, fun _ => hkept⟩

/-- Whatever its loop indices come to, concluding a run ends with finishing it. -/
theorem assures_conclude (hkeeps : KeepsRecords env store) (automation : Automation) (r : RunRecord)
    (channels : List Channel) (result : Except Failure (Option RunError)) (t : List Deed)
    (s : Shared σ) :
    Assures env store (KeptAtEnd store r.id) (conclude automation r channels result) t s := by
  have hfinish (channels : List Channel) (ending : Ending) (raised : Option Failure) :=
    assures_finish hkeeps automation r channels ending raised
  rcases result with (e | f | _) | _ | e
  case error.interrupted =>
    exact assures_bind_of_forall _ (fun _ => assures_bind_of_forall _ fun _ =>
      hfinish _ _ _) t s
  case error.error => exact assures_bind_of_forall _ (fun _ => hfinish _ _ _) t s
  case error.fault => exact assures_bind_of_forall _ (fun _ => hfinish _ _ _) t s
  case ok.none => exact hfinish _ _ _ t s
  case ok.some => exact hfinish _ _ _ t s

/-- A run has its record kept, unless it is cut short. -/
theorem assures_run (hkeeps : KeepsRecords env store) (runner : Runner) (automation : Automation)
    (record : RunRecord) (s : Shared σ) :
    Assures env store (KeptAtEnd store record.id) (run runner automation record) [] s := by
  have hend (channels : List Channel) (result : Except Failure (Option RunError)) :=
    assures_conclude hkeeps automation (begun record s.clock) channels result
  refine assures_ask_bind id ?_
  have hany : Assures env store (fun _ _ _ => True) (save (begun record s.clock))
      [.call .now s.clock] s := assures_of_forall (fun _ _ _ => trivial) _ _ s
  refine Assures.bind (hany.ends.mono ?_)
  rintro wake _ s₁ ⟨-, u, rfl, hsave⟩
  cases wake with
  | interrupted =>
    obtain ⟨reply, told, rfl, hnone, -⟩ := ends_save hsave
    obtain rfl := hnone rfl
    exact ⟨rfl, fun hcut => absurd (.inl ⟨_, _, _, rfl⟩) hcut⟩
  | resumed =>
    refine assures_ask_bind id ?_
    rcases AutomationConfig.parse automation.config with fault | config
    · dsimp only
      rcases fault.toFailure with e | f | _
      · exact assures_bind_of_forall _ (fun _ => hend _ _) ..
      · exact hend ..
      · exact hend ..
    · exact assures_bind_of_forall _ (fun _ => hend _ _) ..

/-! ### In every schedule -/

section Schedules

variable {runner : Runner} {automation : Automation} {record : RunRecord} {shared : Shared σ}
  {h h' : List Happening} {s s' : State σ Ended} {e : Ended}

/-- Loop indices neither save records nor begin to gather events. -/
theorem Scheduled.loopsAloof (hregistry : runner.registry.Proper)
    (hs : Scheduled env runner automation record shared h s) : State.LoopsAloof h := by
  intro i c reply hm hc
  obtain ⟨t, o, hends⟩ := hs.exists_ends_loop hregistry i
  have hindexed := lawful_loopProgram (indexed_broad.steers hregistry automation) hends _
    (List.mem_append_left _ hm)
  cases c <;> first | exact hc | exact hindexed

/-- The final record of a run that has ended is kept. -/
theorem Scheduled.kept (hkeeps : KeepsRecords env store) (hregistry : runner.registry.Proper)
    (hs : Scheduled env runner automation record shared h s) (he : s.main = .ended e)
    (hcut : ¬ CutShort (deedsOf none h)) (hsave : lastSave? (deedsOf none h) = some (.ok ())) :
    e.record.id = record.id ∧ Kept store e.record s.shared := by
  have hassured := hs.assured hkeeps (assures_run hkeeps runner automation record)
    (hs.loopsAloof hregistry)
  rw [he] at hassured
  obtain ⟨s₀, ⟨hid, hkept⟩, hdrifts⟩ := hassured
  exact ⟨hid, (hkept hcut hsave).drifts hdrifts⟩

/-- Whether something that happens writes to the store: a record is saved, or progress is. -/
def writes : Happening → Bool
  | .deed _ (.call (.save _) _) | .flush => true
  | _ => false

/-- Once a run has ended and both daemons are over, nobody writes to the store. -/
theorem Scheduled.quiet (hkeeps : KeepsRecords env store) (hregistry : runner.registry.Proper)
    (hs : Scheduled env runner automation record shared h s) (he : s.main = .ended e)
    (hs' : State.Reaches env (loopProgram runner automation record.id) s h' s')
    (hstill : s.shared.Still) :
    (∀ x ∈ h', writes x = false) ∧ Shared.Drifts store s.shared s'.shared := by
  have haloof := ((Scheduled.loopsAloof hregistry (hs.trans hs')).of_append).2
  obtain ⟨-, hdeeds, hdrifts, hflush⟩ :=
    hs'.drifts hkeeps (hs.distinct (State.distinct_start _ _)) he haloof
  refine ⟨fun x hx => ?_, hdrifts⟩
  cases x with
  | deed task d =>
    cases d with
    | call c reply =>
      have hc : ¬ c.Meddles := by
        cases task with
        | none =>
          have hm := mem_deedsOf_iff.mpr hx
          rw [hdeeds] at hm
          cases hm
        | some i => exact haloof i c reply (mem_deedsOf_iff.mpr hx)
      cases c with
      | save r => exact absurd trivial hc
      | _ => rfl
    | _ => rfl
  | flush => exact absurd hx (hflush hstill)
  | _ => rfl

/-- **The record that is kept is the final one.** A run over a store ends without having been cut
short, and its last save succeeds. Then, however the schedule goes on, nothing is written to the
store any more, and it stays as it is; the record still shows what it showed when the run ended; and
this is the record that the store gives for the run, if it reads back. -/
theorem final_record_kept (hkeeps : KeepsRecords env store) (hregistry : runner.registry.Proper)
    (hs : Scheduled env runner automation record shared h s) (he : s.main = .ended e)
    (hcut : ¬ CutShort (deedsOf none h)) (hsave : lastSave? (deedsOf none h) = some (.ok ()))
    (hs' : State.Reaches env (loopProgram runner automation record.id) s h' s') :
    (∀ x ∈ h', writes x = false) ∧ store s'.shared.outside = store s.shared.outside ∧
      e.record.withSnapshot s'.shared.flushed = e.record ∧
      (e.record.Legible → (store s'.shared.outside).get? record.id = .ok (some e.record)) := by
  obtain ⟨hid, hkept⟩ := hs.kept hkeeps hregistry he hcut hsave
  obtain ⟨hwrites, hdrifts⟩ := hs.quiet hkeeps hregistry he hs' hkept.still
  have hkept' := hkept.drifts hdrifts
  obtain ⟨before, hbefore⟩ := hkept'.saved
  refine ⟨hwrites, hdrifts.kept hkept.still, hkept'.shown, fun hlegible => ?_⟩
  rw [← hid]
  exact RunStore.get?_of_save hbefore hlegible

end Schedules

/-- An automation that writes one message into its log. -/
def greetingAutomation : Automation :=
  { id := "auto-1", name := "Auto"
    steps := [{ id := "s0", name := "Step 0", actions := [
      { id := "a0", actionType := "playwright:log", config := [("message", .text "hello")] }] }] }

/-- A run at a desk keeps its record with the message, and when the ticker is roused once more and
the task of the run is interrupted after its end, nothing happens to it. -/
theorem final_record_kept_at_desk : ∃ h s e h' s',
    Scheduled Desk.collaborators sampleRunner greetingAutomation sampleRecord
      { clock := 1704067200000, outside := .ready 1704067200000 } h s ∧
    s.main = .ended e ∧ e.record.logs.length = 1 ∧ ¬ CutShort (deedsOf none h) ∧
    lastSave? (deedsOf none h) = some (.ok ()) ∧
    State.Reaches Desk.collaborators (loopProgram sampleRunner greetingAutomation sampleRecord.id)
      s h' s' ∧ h'.length = 2 ∧ (∀ x ∈ h', writes x = false) ∧
    s'.shared.outside.currentStore.get? "run-1" = .ok (some e.record) := by
  let program := loopProgram sampleRunner greetingAutomation sampleRecord.id
  let start : State Desk Ended := State.start
    { clock := 1704067200000, outside := .ready 1704067200000 }
    (run sampleRunner greetingAutomation sampleRecord)
  let jobs : List Job := [.main, .consumer, .main, .ticker, .main]
  let later : List Job := [.alarm .tick, .ticker, .consumer, .alarm .interrupt, .main]
  let atEnd := (State.carryOut Desk.collaborators program jobs start).2
  have hs : Scheduled Desk.collaborators sampleRunner greetingAutomation sampleRecord _ _ atEnd :=
    State.carryOut_reaches Desk.collaborators program jobs (by decide) start
  have hs' := State.carryOut_reaches Desk.collaborators program later (by decide) atEnd
  obtain ⟨e, he, hfacts⟩ : ∃ e, atEnd.main = .ended e ∧
      decide (e.record.status = .completed ∧ e.record.logs.length = 1 ∧
        (∀ t ∈ e.record.startTime, t.Valid) ∧ (∀ t ∈ e.record.endTime, t.Valid) ∧
        Json.PlainItems e.record.logs) = true :=
    Task.exists_ended (by decide +kernel)
  obtain ⟨hstatus, hlogs, hstart, hend, hplain⟩ := of_decide_eq_true hfacts
  have hcut :
      ¬ CutShort (deedsOf none (State.carryOut Desk.collaborators program jobs start).1) := by
    intro hcut
    rcases finalized_or_cutShort (hs.ends he) with ⟨-, hrunning⟩ | ⟨hnot, -⟩
    · rw [hstatus] at hrunning
      cases hrunning
    · exact hnot hcut
  have hsave : lastSave? (deedsOf none (State.carryOut Desk.collaborators program jobs start).1) =
      some (.ok ()) := by
    have hok : (lastSave? (deedsOf none (State.carryOut Desk.collaborators program jobs
        start).1)).map Except.isOk = some true := by decide +kernel
    obtain ⟨reply, hreply, hok⟩ := Option.map_eq_some_iff.mp hok
    cases reply with
    | ok => exact hreply
    | error => cases hok
  obtain ⟨hwrites, -, -, hget⟩ := final_record_kept Desk.keeps Catalogue.registry_proper hs he hcut
    hsave hs'
  exact ⟨_, _, e, _, _, hs, he, hlogs, hcut, hsave, hs', by decide +kernel, hwrites,
    hget ⟨hstart, hend, Row.legible_of_plain hplain⟩⟩

end Whole

end Runbook
