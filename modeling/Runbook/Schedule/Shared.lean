import Runbook.Run.Aggregator
import Runbook.Schedule.Collaborators

/-!
# What the tasks of a run share

`Shared` is everything that a run keeps outside its programs: the clock and the timers, the request
to stop, the shared variables, the event queue and what has been gathered from it, and the jobs that
are ready to go on. `Shared.answer` answers the calls of a program; it never waits.

The consumer of events and the ticker that flushes periodically are tasks, too, but they need no
program: a `Daemon` says how far each of them has come.
-/

namespace Runbook.Schedule

/-- What a timer does when it is due. -/
inductive Alarm where
  /-- Wakes the main task. -/
  | wakeMain
  /-- Wakes the task of a loop index. -/
  | wakeLoop (i : Nat)
  /-- Wakes the ticker. -/
  | tick
  /-- Asks the run to stop because its time is up. -/
  | timeout (reason : String)
  /-- Asks the run to stop. -/
  | cancel (reason : String)
  /-- Interrupts the main task. -/
  | interrupt
  deriving DecidableEq, Repr

/-- Something that is ready to go on. -/
inductive Job where
  | main
  | loop (i : Nat)
  /-- Notes that the task of a loop index has ended. -/
  | loopEnded
  | consumer
  | ticker
  | alarm (a : Alarm)
  deriving DecidableEq, Repr

/-- How far a daemon has come. -/
inductive Phase where
  | absent
  /-- It has been started, but has not had control yet. -/
  | fresh
  | waiting
  | woken
  | ended
  deriving DecidableEq, Repr

/-- A task without a program. -/
structure Daemon where
  phase : Phase := .absent
  /-- Whether it has been told to stop. -/
  stopped : Bool := false
  deriving DecidableEq, Repr

/-- Whether a daemon may still do something. -/
def Daemon.isActive (d : Daemon) : Bool := d.phase ≠ .absent && d.phase ≠ .ended

/-- What the tasks of a run share. -/
structure Shared (σ : Type) where
  /-- Milliseconds since 1970. -/
  clock : Rat
  /-- Pending alarms, the earliest first. -/
  timers : List (Rat × Alarm) := []
  /-- Jobs of the batch that is being worked on. -/
  current : List Job := []
  /-- Jobs of the next batch. -/
  next : List Job := []
  cancellation : Option Cancellation := none
  globals : Fields := []
  chance : Chance := {}
  pipeline : Pipeline := {}
  gathered : Gathered := {}
  /-- What the last flush wrote to the record. -/
  flushed : Snapshot := {}
  runId : String := ""
  /-- Milliseconds between two flushes of the ticker. -/
  flushEvery : Rat := 5000
  consumer : Daemon := {}
  ticker : Daemon := {}
  /-- How the loop indices ended, in the order in which they did. -/
  outcomes : List (Nat × Option Failure) := []
  outside : σ

namespace Shared

variable {σ : Type}

/-- Puts a pending alarm in its place, behind those that are due at the same time. -/
def insertTimer (due : Rat) (a : Alarm) : List (Rat × Alarm) → List (Rat × Alarm)
  | [] => [(due, a)]
  | t :: rest => if t.1 ≤ due then t :: insertTimer due a rest else (due, a) :: t :: rest

/-- Sets a timer. -/
def arm (ms : Rat) (a : Alarm) : StateM (Shared σ) Unit :=
  modify fun s => { s with timers := insertTimer (s.clock + ms) a s.timers }

/-- Takes timers back. -/
def disarm (p : Alarm → Bool) : StateM (Shared σ) Unit :=
  modify fun s => { s with timers := s.timers.filter fun t => !p t.2 }

/-- Makes a job ready for the next batch. -/
def schedule (j : Job) : StateM (Shared σ) Unit :=
  modify fun s => { s with next := s.next ++ [j] }

/-- Lets a collaborator act. -/
def outsideDo {α : Type} (m : StateM σ α) : StateM (Shared σ) α := fun s =>
  let (a, o) := m s.outside
  (a, { s with outside := o })

/-- Wakes the consumer if it waits for events. -/
def wakeConsumer : StateM (Shared σ) Unit := do
  let s ← get
  if s.consumer.phase = .waiting then
    set { s with consumer := { s.consumer with phase := .woken } }
    schedule .consumer

/-- Offers an event to the queue. -/
def emit (env : Collaborators σ) (e : RunEvent) : StateM (Shared σ) Bool := do
  let (pipeline, taken, warning) := (← get).pipeline.emit e
  modify fun s => { s with pipeline }
  if let some r := warning then outsideDo (env.log r)
  if taken then wakeConsumer
  return taken

/-- Offers the end mark to the queue. -/
def offerEnd : StateM (Shared σ) Bool := do
  let (pipeline, taken) := (← get).pipeline.offerEnd
  modify fun s => { s with pipeline }
  if taken then wakeConsumer
  return taken

/-- Closes the queue; the reply says whether it was open. -/
def closeQueue : StateM (Shared σ) Bool := do
  let s ← get
  set { s with pipeline := s.pipeline.close }
  return !s.pipeline.closed

/-- Writes what has been gathered to the record and to the store. A store that fails is logged. -/
def flush (env : Collaborators σ) : StateM (Shared σ) Unit := do
  let s ← get
  let snapshot := s.gathered.snapshot s.pipeline.dropped
  set { s with flushed := snapshot }
  match ← outsideDo (env.progress s.runId snapshot s.clock) with
  | .ok () => return ()
  | .error f =>
    outsideDo (env.log (.error "run_progress_flush_failed"
      [("run_id", .text s.runId), ("error", .text f.text)]))

/-- Takes everything out of the queue and gathers it; the reply says whether the end mark was among
it. -/
def gatherAll : StateM (Shared σ) Bool := do
  let s ← get
  let (pipeline, events) := s.pipeline.drain
  set { s with pipeline, gathered := s.gathered.gather events }
  return s.pipeline.marked

/-- Sets the phase of the consumer. -/
def setConsumer (phase : Phase) : StateM (Shared σ) Unit :=
  modify fun s => { s with consumer := { s.consumer with phase } }

/-- Sets the phase of the ticker. -/
def setTicker (phase : Phase) : StateM (Shared σ) Unit :=
  modify fun s => { s with ticker := { s.ticker with phase } }

/-- The consumer goes on: it gathers what is in the queue, and ends with a flush when it finds the
end mark or has been told to stop. Told to stop before it ever had control, it does nothing. -/
def consumerTurn (env : Collaborators σ) : StateM (Shared σ) Unit := do
  let s ← get
  if s.consumer.stopped && s.consumer.phase = .fresh then setConsumer .ended
  else
    let marked ← gatherAll
    if marked || s.consumer.stopped then
      flush env
      setConsumer .ended
    else setConsumer .waiting

/-- The ticker goes on: it flushes, unless it has only just begun, and waits for its next turn. -/
def tickerTurn (env : Collaborators σ) : StateM (Shared σ) Unit := do
  let s ← get
  if s.ticker.stopped then setTicker .ended
  else
    if s.ticker.phase = .woken then flush env
    arm s.flushEvery .tick
    setTicker .waiting

/-- Prepares to gather events beyond what the record of a run holds. -/
def beginGathering (r : RunRecord) : StateM (Shared σ) Unit :=
  modify fun s => { s with
    runId := r.id, gathered := ⟨r.logs, r.outputFiles⟩, flushed := r.snapshot }

/-- Starts the consumer and the ticker. -/
def startDaemons : StateM (Shared σ) Unit := do
  modify fun s => { s with consumer := { phase := .fresh }, ticker := { phase := .fresh } }
  schedule .consumer
  schedule .ticker

/-- Starts to gather events for a run. -/
def startAggregator (r : RunRecord) : StateM (Shared σ) Unit := do
  beginGathering r
  startDaemons

/-- Tells the consumer to stop. -/
def stopConsumer : StateM (Shared σ) Unit := do
  let s ← get
  if s.consumer.isActive then
    set { s with consumer := { s.consumer with stopped := true } }
    wakeConsumer

/-- Tells the ticker to stop. -/
def stopTicker : StateM (Shared σ) Unit := do
  let s ← get
  if s.ticker.isActive then
    set { s with ticker := { s.ticker with stopped := true } }
    if s.ticker.phase = .waiting then
      disarm (· = .tick)
      setTicker .woken
      schedule .ticker

/-- Whether an alarm belongs to the time limit of the run. -/
def isTimeout : Alarm → Bool
  | .timeout _ => true
  | _ => false

/-- Takes the time limit back, also when it has just become due. -/
def disarmTimeout : StateM (Shared σ) Unit := do
  disarm isTimeout
  modify fun s => { s with
    current := s.current.filter fun
      | .alarm a => !isTimeout a
      | _ => true }

/-- Asks the run to stop. -/
def cancel (reason : String) (timedOut : Bool) : StateM (Shared σ) Unit :=
  modify fun s => { s with cancellation := Cancellation.request s.cancellation reason timedOut }

/-- Answers a call. -/
def answer (env : Collaborators σ) : (c : Call) → StateM (Shared σ) c.Reply
  | .now => return (← get).clock
  | .emit e => emit env e
  | .log r => outsideDo (env.log r)
  | .dispatched _ _ _ => return ()
  | .chance => return (← get).chance
  | .setChance chance => modify fun s => { s with chance }
  | .globals => return (← get).globals
  | .setGlobal name value => modify fun s => { s with globals := Fields.set s.globals name value }
  | .cancellation => return (← get).cancellation
  | .cancel reason timedOut => cancel reason timedOut
  | .page i c => outsideDo (env.page i c)
  | .screenshot i options => outsideDo (env.screenshot i options)
  | .upload key data contentType => outsideDo (env.upload key data contentType)
  | .delete key => outsideDo (env.delete key)
  | .list beginning => outsideDo (env.list beginning)
  | .request r => outsideDo (env.request r)
  | .observe entry => outsideDo (env.observe entry)
  | .openSession i => outsideDo (env.openSession i)
  | .closeSession i => outsideDo (env.closeSession i)
  | .save r => outsideDo (env.save r)
  | .notify m channels => outsideDo (env.notify m channels)
  | .armTimeout ms reason => arm ms (.timeout reason)
  | .disarmTimeout => disarmTimeout
  | .startAggregator r => startAggregator r
  | .snapshot => return (← get).flushed
  | .closeQueue => closeQueue
  | .offerEnd => offerEnd
  | .stopConsumer => stopConsumer
  | .stopTicker => stopTicker
  | .outcomes => return (← get).outcomes

/-- Whether there is nothing to wait for. A store that has answered is done. -/
def isOver (s : Shared σ) : Wait → Bool
  | .consumer => !s.consumer.isActive
  | .ticker => !s.ticker.isActive
  | .store => true
  | _ => false

end Shared

end Runbook.Schedule
