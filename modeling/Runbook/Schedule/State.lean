import Runbook.Schedule.Shared

/-!
# Cooperative scheduling

A run has one main task and may have one task for each of several loop indices. A task keeps control
until it waits. `State.perform` carries out a single job, whatever the order of jobs; `State.step`
takes them in the order in which they became ready, in batches: the jobs that become ready during a
batch make up the next one, followed by the timers that are due by then. When no job is ready the
clock jumps to the earliest timer.

A timer only makes a task ready. So at any instant the alarms that ask for a cancellation act before
a task that wakes at that instant goes on.
-/

namespace Runbook.Schedule

/-- A task with a program. -/
inductive Task (α : Type) where
  | fresh (p : Program α)
  /-- It was interrupted before it had control. -/
  | stillborn
  | waiting (w : Wait) (k : Wake → Program α)
  /-- It has been woken and will go on when its turn comes. -/
  | woken (wake : Wake) (k : Wake → Program α)
  /-- It has given way at a call. No task does so when calls are answered at once. -/
  | paused (p : Program α)
  | ended (a : α)

/-- The result of a task that has ended. -/
def Task.result? {α : Type} : Task α → Option α
  | .ended a => some a
  | _ => none

/-- A run as the scheduler sees it. -/
structure State (σ α : Type) where
  shared : Shared σ
  main : Task α
  loops : List (Nat × Task (Option Failure)) := []
  /-- How many ends of loop indices have been noted. -/
  joined : Nat := 0
  /-- Whether the main task was interrupted while it waited for loop indices. -/
  joinInterrupted : Bool := false

variable {σ α : Type}

/-- Lets a program go on until it waits for something that is not over, or ends. -/
def advance (env : Collaborators σ) : Program α → StateM (Shared σ) (Task α)
  | .done a => return .ended a
  | .call c k => do
    let r ← Shared.answer env c
    advance env (k r)
  | .wait w k => do
    if (← get).isOver w then advance env (k .resumed) else return .waiting w k

namespace State

/-- Acts on what the tasks share. -/
def onShared {β : Type} (m : StateM (Shared σ) β) : StateM (State σ α) β := fun s =>
  let (b, shared) := m s.shared
  (b, { s with shared })

/-- The task of a loop index. -/
def loop? (s : State σ α) (i : Nat) : Option (Task (Option Failure)) :=
  (s.loops.find? fun l => l.1 == i).map Prod.snd

/-- Changes the task of a loop index. -/
def setLoop (i : Nat) (t : Task (Option Failure)) : StateM (State σ α) Unit :=
  modify fun s => { s with loops := s.loops.map fun l => if l.1 == i then (i, t) else l }

/-- What a sleep comes to: a timer, or for no time at all just another turn. -/
def sleeping {β : Type} (ms : Rat) (k : Wake → Program β) (a : Alarm) (j : Job) :
    StateM (Shared σ) (Task β) := do
  if ms ≤ 0 then
    Shared.schedule j
    return .woken .resumed k
  else
    Shared.arm ms a
    return .waiting (.sleep ms) k

/-- Starts tasks for the loop indices below a count. -/
def startLoops (program : Nat → Program (Option Failure)) (count : Nat) :
    StateM (State σ α) Unit := do
  let indices := List.range count
  modify fun s => { s with
    loops := indices.map fun i => (i, .fresh (program i)), joined := 0, joinInterrupted := false
    shared := { s.shared with outcomes := [] } }
  for i in indices do onShared (Shared.schedule (.loop i))

/-- Lets the main task go on with a program. -/
def advanceMain (env : Collaborators σ) (program : Nat → Program (Option Failure))
    (p : Program α) : StateM (State σ α) Unit := do
  let task ← onShared (advance env p)
  match task with
  | .waiting (.sleep ms) k =>
    let task ← onShared (sleeping ms k .wakeMain .main)
    modify fun s => { s with main := task }
  | .waiting (.loops count) _ =>
    modify fun s => { s with main := task }
    startLoops program count
  | _ => modify fun s => { s with main := task }

/-- Notes how the task of a loop index ended. -/
def endLoop (i : Nat) (outcome : Option Failure) : StateM (State σ α) Unit := do
  setLoop i (.ended outcome)
  onShared do
    modify fun s => { s with outcomes := s.outcomes ++ [(i, outcome)] }
    Shared.schedule .loopEnded

/-- Lets the task of a loop index go on with a program. -/
def advanceLoop (env : Collaborators σ) (i : Nat) (p : Program (Option Failure)) :
    StateM (State σ α) Unit := do
  let task ← onShared (advance env p)
  match task with
  | .waiting (.sleep ms) k =>
    let task ← onShared (sleeping ms k (.wakeLoop i) (.loop i))
    setLoop i task
  | .ended outcome => endLoop i outcome
  | _ => setLoop i task

/-- Wakes the main task if it waits for something. -/
def wakeMain (awaited : Wait → Bool) (wake : Wake) : StateM (State σ α) Unit := do
  if let .waiting w k := (← get).main then
    if awaited w then
      modify fun s => { s with main := .woken wake k }
      onShared (Shared.schedule .main)

/-- Interrupts the task of a loop index. -/
def interruptLoop (i : Nat) : Task (Option Failure) → StateM (State σ α) Unit
  | .fresh _ => setLoop i .stillborn
  | .waiting _ k => do
    setLoop i (.woken .interrupted k)
    onShared do
      Shared.disarm (· = .wakeLoop i)
      Shared.schedule (.loop i)
  | .woken _ k => setLoop i (.woken .interrupted k)
  | _ => return ()

/-- Interrupts the main task where it waits. Waiting for others, it hands the interruption on to
them and goes on when they have ended. -/
def interruptMain : StateM (State σ α) Unit := do
  match (← get).main with
  | .fresh _ => modify fun s => { s with main := .stillborn }
  | .woken _ k => modify fun s => { s with main := .woken .interrupted k }
  | .waiting w k =>
    match w with
    | .consumer => onShared Shared.stopConsumer
    | .ticker => onShared Shared.stopTicker
    | .loops _ =>
      modify fun s => { s with joinInterrupted := true }
      for (i, task) in (← get).loops do interruptLoop i task
    | .sleep _ | .room | .store =>
      modify fun s => { s with main := .woken .interrupted k }
      onShared do
        Shared.disarm (· = .wakeMain)
        Shared.schedule .main
  | _ => return ()

/-- Whether a wait is for the end of the loop indices. -/
def isForLoops : Wait → Bool
  | .loops _ => true
  | _ => false

/-- Whether a wait is a sleep. -/
def isSleep : Wait → Bool
  | .sleep _ => true
  | _ => false

/-- Whether a wait is for room in the queue. -/
def isForRoom : Wait → Bool
  | .room => true
  | _ => false

/-- Whether a wait is for the consumer. -/
def isForConsumer : Wait → Bool
  | .consumer => true
  | _ => false

/-- Whether a wait is for the ticker. -/
def isForTicker : Wait → Bool
  | .ticker => true
  | _ => false

/-- An alarm goes off. -/
def ring : Alarm → StateM (State σ α) Unit
  | .wakeMain => wakeMain isSleep .resumed
  | .wakeLoop i => do
    if let some (.waiting (.sleep _) k) := (← get).loop? i then
      setLoop i (.woken .resumed k)
      onShared (Shared.schedule (.loop i))
  | .tick => do
    if (← get).shared.ticker.phase = .waiting then
      onShared do
        Shared.setTicker .woken
        Shared.schedule .ticker
  | .timeout reason => onShared (Shared.cancel reason true)
  | .cancel reason => onShared (Shared.cancel reason false)
  | .interrupt => interruptMain

/-- Carries out one job. A job whose task is not ready changes nothing. -/
def perform (env : Collaborators σ) (program : Nat → Program (Option Failure)) :
    Job → StateM (State σ α) Unit
  | .main => do
    match (← get).main with
    | .fresh p | .paused p => advanceMain env program p
    | .woken wake k => advanceMain env program (k wake)
    | _ => return ()
  | .loop i => do
    match (← get).loop? i with
    | some (.fresh p) | some (.paused p) => advanceLoop env i p
    | some (.woken wake k) => advanceLoop env i (k wake)
    | some .stillborn => endLoop i (some .interrupted)
    | _ => return ()
  | .loopEnded => do
    modify fun s => { s with joined := s.joined + 1 }
    let s ← get
    if s.joined = s.loops.length then
      wakeMain isForLoops (if s.joinInterrupted then .interrupted else .resumed)
  | .consumer => do
    let before := (← get).shared
    if before.consumer.isActive then
      onShared (Shared.consumerTurn env)
      if !before.pipeline.isEmpty then wakeMain isForRoom .resumed
      let after := (← get).shared.consumer
      if after.phase = .ended then
        wakeMain isForConsumer (if after.stopped then .interrupted else .resumed)
  | .ticker => do
    if (← get).shared.ticker.isActive then
      onShared (Shared.tickerTurn env)
      if (← get).shared.ticker.phase = .ended then wakeMain isForTicker .interrupted
  | .alarm a => ring a

/-- The alarms that are due. -/
def dueAlarms (s : Shared σ) : List Job :=
  (s.timers.takeWhile fun t => t.1 ≤ s.clock).map fun t => .alarm t.2

/-- Forms the next batch: what has become ready, and the timers that are due by then. -/
def formBatch (s : Shared σ) : Shared σ :=
  { s with
    current := s.next ++ dueAlarms s
    next := []
    timers := s.timers.dropWhile fun t => t.1 ≤ s.clock }

/-- The next job to be carried out, if there is one. -/
def nextJob? (s : Shared σ) : Option (Job × Shared σ) :=
  let s := if s.current.isEmpty then
      match s.next, s.timers with
      | [], t :: _ => formBatch { s with clock := if s.clock ≤ t.1 then t.1 else s.clock }
      | _, _ => formBatch s
    else s
  match s.current with
  | [] => none
  | j :: rest => some (j, { s with current := rest })

/-- Carries out the next job, until the main task has ended. -/
def step (env : Collaborators σ) (program : Nat → Program (Option Failure)) (s : State σ α) :
    Option (State σ α) :=
  match s.main.result? with
  | some _ => none
  | none =>
    (nextJob? s.shared).map fun (j, shared) =>
      (perform env program j { s with shared }).2

/-- Goes on for at most so many jobs. -/
def run (env : Collaborators σ) (program : Nat → Program (Option Failure)) :
    Nat → State σ α → State σ α
  | 0, s => s
  | n + 1, s =>
    match step env program s with
    | some s' => run env program n s'
    | none => s

/-- How many jobs are carried out before a run is given up. -/
def patience : Nat := 100000000

/-- Starts a main task on what tasks share, and goes on until it ends; alarms that are due already
belong to the first batch. -/
def runMain (env : Collaborators σ) (program : Nat → Program (Option Failure)) (shared : Shared σ)
    (p : Program α) : State σ α :=
  let shared := if shared.current.isEmpty && shared.next.isEmpty then formBatch shared else shared
  let start : State σ α := { shared, main := .fresh p }
  run env program patience (advanceMain env program p start).2

end State

end Runbook.Schedule
