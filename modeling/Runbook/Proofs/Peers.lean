import Runbook.Proofs.Calls

/-!
# Surroundings that go on alike

Two surroundings are compared in which a run does the same. What the tasks share is alike in both,
and so are the pages and the servers; but in either of them the run store, the notifier, the log,
and whatever takes pictures and stores them may do as they like and fail whenever they like. They
leave everything else alone, and so the surroundings stay alike whatever they do.

What becomes of an event is left open as well, because a picture that is stored adds an event that
is missing in the other run. So the queue may differ, and with it the turns of the consumer.

* `Peers env env' same`: two worlds that go on alike, but for what is left open.
* `Shared.core`: what tasks share, but for what is left open.
* `Shared.Like same s s'`: what tasks share is alike in two runs.
* `Like.answer`: in lockstep, both get the same reply and stay alike.
* `Like.answer_left`: one of them stays like the other when it makes a spare call alone.
-/

namespace Runbook

open Schedule

variable {σ β : Type}

/-! ### Two worlds -/

/-- Two worlds do the same, and afterwards they are as alike as before. -/
def Concur (same : σ → σ → Prop) (m m' : StateM σ β) : Prop :=
  ∀ o o', same o o' → (m o).1 = (m' o').1 ∧ same (m o).2 (m' o').2

/-- Whatever one of two worlds does alone, they are as alike as before. -/
def Aloof (same : σ → σ → Prop) (m m' : StateM σ β) : Prop :=
  ∀ o o', same o o' → same (m o).2 o' ∧ same o (m' o').2

/-- Two worlds in which pages and servers do the same. The run store, the notifier, the log, and
whatever takes pictures and stores them do as they like; what they do changes nothing for the
others. -/
structure Peers (env env' : Collaborators σ) (same : σ → σ → Prop) : Prop where
  page (i : Int) (c : PageCall) : Concur same (env.page i c) (env'.page i c)
  request (r : Api.Request) : Concur same (env.request r) (env'.request r)
  observe (entry : Json) : Concur same (env.observe entry) (env'.observe entry)
  openSession (i : Nat) : Concur same (env.openSession i) (env'.openSession i)
  closeSession (i : Nat) : Concur same (env.closeSession i) (env'.closeSession i)
  screenshot (i : Int) (options : Fields) :
    Aloof same (env.screenshot i options) (env'.screenshot i options)
  upload (key : String) (data : List UInt8) (contentType : String) :
    Aloof same (env.upload key data contentType) (env'.upload key data contentType)
  save (r : RunRecord) : Aloof same (env.save r) (env'.save r)
  progress (runId : String) (s : Snapshot) (now : Rat) :
    Aloof same (env.progress runId s now) (env'.progress runId s now)
  notify (m : NotificationMessage) (channels : List Channel) :
    Aloof same (env.notify m channels) (env'.notify m channels)
  log (r : LogRecord) : Aloof same (env.log r) (env'.log r)

section Symm

variable {same : σ → σ → Prop}

theorem Concur.symm {m m' : StateM σ β} (h : Concur same m m') :
    Concur (fun o o' => same o' o) m' m :=
  fun o o' ho => ⟨(h o' o ho).1.symm, (h o' o ho).2⟩

theorem Aloof.symm {m m' : StateM σ β} (h : Aloof same m m') :
    Aloof (fun o o' => same o' o) m' m :=
  fun o o' ho => (h o' o ho).symm

theorem Peers.symm {env env' : Collaborators σ} (h : Peers env env' same) :
    Peers env' env fun o o' => same o' o where
  page i c := (h.page i c).symm
  request r := (h.request r).symm
  observe entry := (h.observe entry).symm
  openSession i := (h.openSession i).symm
  closeSession i := (h.closeSession i).symm
  screenshot i options := (h.screenshot i options).symm
  upload key data contentType := (h.upload key data contentType).symm
  save r := (h.save r).symm
  progress runId s now := (h.progress runId s now).symm
  notify m channels := (h.notify m channels).symm
  log r := (h.log r).symm

end Symm

namespace Schedule

/-! ### What tasks share -/

/-- The jobs in a list but for the turns of the consumer. -/
def visible (js : List Job) : List Job := js.filter fun j => j ≠ .consumer

@[simp]
theorem visible_nil : visible [] = [] := rfl

theorem visible_cons {j : Job} (hj : j ≠ .consumer) (js : List Job) :
    visible (j :: js) = j :: visible js :=
  List.filter_cons_of_pos (decide_eq_true hj)

theorem visible_append (js js' : List Job) : visible (js ++ js') = visible js ++ visible js' :=
  List.filter_append ..

namespace Shared

/-- What tasks share, but for the events and the world outside. -/
def core (s : Shared σ) : Shared Unit where
  clock := s.clock
  timers := s.timers
  current := visible s.current
  next := visible s.next
  cancellation := s.cancellation
  globals := s.globals
  chance := s.chance
  flushEvery := s.flushEvery
  ticker := s.ticker
  outcomes := s.outcomes
  outside := ()

/-- What tasks share is alike in two runs, but for the events and for what is left open of the
world outside. -/
structure Like (same : σ → σ → Prop) (s s' : Shared σ) : Prop where
  core : s.core = s'.core
  outside : same s.outside s'.outside

variable {same : σ → σ → Prop} {env env' : Collaborators σ} {s s' : Shared σ}

theorem Like.symm (h : Like same s s') : Like (fun o o' => same o' o) s' s :=
  ⟨h.core.symm, h.outside⟩

/-- What can be read off the core is the same in both runs. -/
theorem Like.read {γ : Type} (h : Like same s s') (f : Shared Unit → γ) : f s.core = f s'.core :=
  congrArg f h.core

/-- What is done to the core on both sides keeps it alike. -/
theorem Like.change (h : Like same s s') {t t' : Shared σ} (f : Shared Unit → Shared Unit)
    (ht : t.core = f s.core) (ht' : t'.core = f s'.core) (hout : t.outside = s.outside)
    (hout' : t'.outside = s'.outside) : Like same t t' :=
  ⟨by rw [ht, ht', h.core], by rw [hout, hout']; exact h.outside⟩

/-! ### Calls in lockstep -/

/-- What both worlds do alike. -/
theorem Like.concur (h : Like same s s') {m m' : StateM σ β} (hm : Concur same m m') :
    (outsideDo m s).1 = (outsideDo m' s').1 ∧
      Like same (outsideDo m s).2 (outsideDo m' s').2 :=
  ⟨(hm _ _ h.outside).1, h.core, (hm _ _ h.outside).2⟩

/-- What one world does alone. -/
theorem Like.aloof (h : Like same s s') {m m' : StateM σ β} (hm : Aloof same m m') :
    Like same (outsideDo m s).2 s' :=
  ⟨h.core, (hm _ _ h.outside).1⟩

end Shared

end Schedule

/-- A call to which both runs get the same reply. -/
def Call.Ordinary : Call → Prop
  | .now | .log _ | .dispatched _ _ _ | .chance | .setChance _ | .globals | .setGlobal _ _
  | .cancellation | .cancel _ _ | .page _ _ | .request _ | .observe _ | .openSession _
  | .closeSession _ | .armTimeout _ _ | .disarmTimeout | .startAggregator _ | .outcomes => True
  | _ => False

/-- Whether an event tells how an action came out. -/
def RunEvent.tellsOutcome (e : RunEvent) : Bool := e.type = .log ∨ e.type = .error

/-- A call that leaves the core alone and that may have any reply. -/
def Call.Spare : Call → Prop
  | .now | .globals | .chance | .log _ | .screenshot _ _ | .upload _ _ _ | .save _
  | .notify _ _ => True
  | .emit e => e.tellsOutcome = false
  | _ => False

namespace Schedule.Shared

variable {same : σ → σ → Prop} {env env' : Collaborators σ} {s s' : Shared σ}

theorem core_disarmTimeout (s : Shared σ) :
    (disarmTimeout s).2.core = (disarmTimeout s.core).2 := by
  have hcurrent (js : List Job) (p : Job → Bool) :
      visible (js.filter p) = (visible js).filter p := by
    rw [visible, visible, List.filter_filter, List.filter_filter]
    exact List.filter_congr fun j _ => Bool.and_comm ..
  have htimers : (disarmTimeout s).2.core =
      { (disarmTimeout s.core).2 with current := visible (disarmTimeout s).2.current } := rfl
  rw [htimers]
  exact congrArg (fun current => { (disarmTimeout s.core).2 with current }) (hcurrent ..)

theorem core_startAggregator (r : RunRecord) (s : Shared σ) :
    (startAggregator r s).2.core =
      { s.core with ticker := { phase := .fresh }, next := s.core.next ++ [.ticker] } := by
  have hnext : visible (s.next ++ [.consumer] ++ [.ticker]) = visible s.next ++ [.ticker] := by
    rw [visible_append, visible_append]
    exact congrArg (· ++ [Job.ticker]) (List.append_nil _)
  exact congrArg (fun next => { s.core with ticker := { phase := .fresh }, next }) hnext

/-- Both runs get the same reply to an ordinary call and stay alike. -/
theorem Like.answer (hp : Peers env env' same) (h : Like same s s') {c : Call} (hc : c.Ordinary) :
    (Shared.answer env c s).1 = (Shared.answer env' c s').1 ∧
      Like same (Shared.answer env c s).2 (Shared.answer env' c s').2 := by
  cases c with
  | now => exact ⟨h.read (·.clock), h⟩
  | log r => exact ⟨rfl, (h.aloof (hp.log r)).symm.aloof (hp.log r).symm |>.symm⟩
  | dispatched => exact ⟨rfl, h⟩
  | chance => exact ⟨h.read (·.chance), h⟩
  | setChance chance => exact ⟨rfl, h.change (fun k => { k with chance }) rfl rfl rfl rfl⟩
  | globals => exact ⟨h.read (·.globals), h⟩
  | setGlobal name value =>
    exact ⟨rfl, h.change (fun k => { k with globals := Fields.set k.globals name value })
      rfl rfl rfl rfl⟩
  | cancellation => exact ⟨h.read (·.cancellation), h⟩
  | cancel reason timedOut =>
    exact ⟨rfl, h.change (fun k => (cancel reason timedOut k).2) rfl rfl rfl rfl⟩
  | page i c => exact h.concur (hp.page i c)
  | request r => exact h.concur (hp.request r)
  | observe entry => exact h.concur (hp.observe entry)
  | openSession i => exact h.concur (hp.openSession i)
  | closeSession i => exact h.concur (hp.closeSession i)
  | armTimeout ms reason =>
    exact ⟨rfl, h.change (fun k => (arm ms (.timeout reason) k).2) rfl rfl rfl rfl⟩
  | disarmTimeout =>
    exact ⟨rfl, h.change (fun k => (disarmTimeout k).2) (core_disarmTimeout s)
      (core_disarmTimeout s') rfl rfl⟩
  | startAggregator r =>
    exact ⟨rfl, h.change (fun k => { k with
      ticker := { phase := .fresh }, next := k.next ++ [.ticker] }) (core_startAggregator r s)
      (core_startAggregator r s') rfl rfl⟩
  | outcomes => exact ⟨h.read (·.outcomes), h⟩
  | _ => exact hc.elim

/-! ### Calls of one run alone -/

theorem core_wakeConsumer (s : Shared σ) : (wakeConsumer s).2.core = s.core := by
  by_cases hphase : s.consumer.phase = .waiting
  · simp only [wakeConsumer, run_get_bind, hphase, if_true]
    have hnext : visible (s.next ++ [.consumer]) = visible s.next := by
      rw [visible_append]
      exact List.append_nil _
    exact congrArg (fun next => { s.core with next }) hnext
  · simp only [wakeConsumer, run_get_bind, hphase, if_false]
    rfl

theorem core_emit (env : Collaborators σ) (e : RunEvent) (s : Shared σ) :
    (emit env e s).2.core = s.core := by
  rcases hemit : s.pipeline.emit e with ⟨pipeline, _ | _, _ | r⟩ <;>
    simp only [emit, run_get_bind, hemit]
  · rfl
  · rfl
  · exact core_wakeConsumer _
  · exact core_wakeConsumer _

/-- Whatever becomes of an event in one run, it stays like the other. -/
theorem Like.emit_left (hp : Peers env env' same) (h : Like same s s') (e : RunEvent) :
    Like same (emit env e s).2 s' := by
  refine ⟨(core_emit env e s).trans h.core, ?_⟩
  rcases outside_emit env e s with hout | ⟨r, hout⟩
  · rw [hout]
    exact h.outside
  · rw [hout]
    exact (hp.log r _ _ h.outside).1

/-- After a spare call that it makes alone, a run is still like the other. -/
theorem Like.answer_left (hp : Peers env env' same) (h : Like same s s') {c : Call}
    (hc : c.Spare) : Like same (Shared.answer env c s).2 s' := by
  cases c with
  | now => exact h
  | globals => exact h
  | chance => exact h
  | log r => exact h.aloof (hp.log r)
  | screenshot i options => exact h.aloof (hp.screenshot i options)
  | upload key data contentType => exact h.aloof (hp.upload key data contentType)
  | save r => exact h.aloof (hp.save r)
  | notify m channels => exact h.aloof (hp.notify m channels)
  | emit e => exact h.emit_left hp e
  | _ => exact hc.elim

/-- Both runs offer an event, and whatever becomes of it, they stay alike. -/
theorem Like.emit (hp : Peers env env' same) (h : Like same s s') (e : RunEvent) :
    Like same (Shared.emit env e s).2 (Shared.emit env' e s').2 :=
  ((h.emit_left hp e).symm.emit_left hp.symm e).symm

/-! ### Turns of the daemons -/

/-- A flush of one run alone leaves it like the other. -/
theorem Like.flush_left (hp : Peers env env' same) (h : Like same s s') :
    Like same (flush env s).2 s' := by
  refine ⟨?_, ?_⟩
  · obtain ⟨_, heq⟩ := flush_spec env s
    rw [heq]
    exact h.core
  · have hprogress := (hp.progress s.runId (s.gathered.snapshot s.pipeline.dropped) s.clock _ _
      h.outside).1
    rw [flush, run_get_bind, run_set_bind, run_outsideDo_bind]
    cases (env.progress s.runId (s.gathered.snapshot s.pipeline.dropped) s.clock s.outside).1 with
    | ok => exact hprogress
    | error f => exact (hp.log _ _ _ hprogress).1

/-- A turn of the consumer of one run alone leaves it like the other. -/
theorem Like.consumerTurn_left (hp : Peers env env' same) (h : Like same s s') :
    Like same (consumerTurn env s).2 s' := by
  refine ⟨?_, ?_⟩
  · obtain ⟨_, _, _, _, _, heq⟩ := consumerTurn_spec env s
    rw [heq]
    exact h.core
  · by_cases hunborn : s.consumer.stopped = true ∧ s.consumer.phase = .fresh
    · rw [consumerTurn_of_unborn env hunborn.1 hunborn.2]
      exact h.outside
    · by_cases hends : s.pipeline.marked = true ∨ s.consumer.stopped = true
      · have hgathered : Like same (gatherAll s).2 s' := ⟨h.core, h.outside⟩
        rw [outside_consumerTurn_of_ending env hunborn hends]
        exact (hgathered.flush_left hp).outside
      · rw [not_or, Bool.not_eq_true, Bool.not_eq_true] at hends
        rw [consumerTurn_of_waiting env hends.1 hends.2]
        exact h.outside

/-- What a turn of the ticker does to the core. -/
def tick (k : Shared Unit) : Shared Unit :=
  if k.ticker.stopped then { k with ticker := { k.ticker with phase := .ended } }
  else
    { k with
      timers := insertTimer (k.clock + k.flushEvery) .tick k.timers
      ticker := { k.ticker with phase := .waiting } }

theorem core_tickerTurn (env : Collaborators σ) (s : Shared σ) :
    (tickerTurn env s).2.core = tick s.core := by
  cases hstopped : s.ticker.stopped with
  | true =>
    have hcore : s.core.ticker.stopped = true := hstopped
    rw [tickerTurn_of_stopped env hstopped, tick, if_pos hcore]
    rfl
  | false =>
    have hcore : tick s.core = { s.core with
        timers := insertTimer (s.clock + s.flushEvery) .tick s.timers
        ticker := { s.ticker with phase := .waiting } } := by
      rw [tick, if_neg (by simp [core, hstopped])]
      rfl
    rw [hcore]
    obtain ⟨outside, hflush⟩ := flush_spec env s
    by_cases hwoken : s.ticker.phase = .woken
    · have hturn : (tickerTurn env s).2 =
          (setTicker .waiting (arm s.flushEvery .tick (flush env s).2).2).2 := by
        simp only [tickerTurn, run_get_bind, hstopped, hwoken, if_true]
        rfl
      rw [hturn, hflush]
      rfl
    · have hturn : (tickerTurn env s).2 =
          (setTicker .waiting (arm s.flushEvery .tick s).2).2 := by
        simp only [tickerTurn, run_get_bind, hstopped, hwoken, if_false]
        rfl
      rw [hturn]
      rfl

/-- A turn of the ticker leaves the world outside as alike as before. -/
theorem Like.outside_tickerTurn (hp : Peers env env' same) (h : Like same s s') :
    same (tickerTurn env s).2.outside s'.outside := by
  cases hstopped : s.ticker.stopped with
  | true =>
    rw [tickerTurn_of_stopped env hstopped]
    exact h.outside
  | false =>
    rw [outside_tickerTurn_of_going env hstopped]
    split
    · exact (h.flush_left hp).outside
    · exact h.outside

/-- The tickers of both runs have their turn. -/
theorem Like.tickerTurn (hp : Peers env env' same) (h : Like same s s') :
    Like same (Shared.tickerTurn env s).2 (Shared.tickerTurn env' s').2 := by
  refine ⟨?_, ?_⟩
  · rw [core_tickerTurn, core_tickerTurn, h.core]
  · have hleft : Like same { s with outside := (Shared.tickerTurn env s).2.outside } s' :=
      ⟨h.core, h.outside_tickerTurn hp⟩
    have hboth := hleft.symm.outside_tickerTurn hp.symm
    exact hboth

end Schedule.Shared

end Runbook
