import Runbook.Number.Duration
import Runbook.Run.Loop

/-!
# A whole run

A run of an automation goes through its loop indices, one after another or all at once, and then
finishes its record: the status, the error message and the time at which it ended.

One after another, the first loop index that fails ends the run, and there is a delay between two.
All at once, every loop index goes on to its own end; the first error counts, unless a failure of
another kind occurred, which is raised again when all have ended.

`Ending.status` says how a run is judged. A run that was cancelled by request is cancelled, one that
ran out of time has failed.
-/

namespace Runbook

/-- How the loop indices of a run came to an end. -/
inductive Ending where
  | completed
  | failed (e : RunError)
  /-- By a failure that the runner does not know. -/
  | crashed (e : Failure)

namespace Ending

/-- The status and the error message of a record, given the message it had before. -/
def verdict (earlier : String) : Ending → RunStatus × String
  | crashed e => (.failed, s!"unexpected error: {e.text}")
  | failed e =>
    (if e.cancellation? = some false then .cancelled else .failed, e.message)
  | completed => (if earlier.isEmpty then .completed else .failed, earlier)

end Ending

/-- A run that has ended: its record, without what has been gathered, and what it raises. -/
structure Ended where
  record : RunRecord
  raised : Option Failure

namespace Whole

/-- Logs that a loop index failed. -/
def logLoopFailed (runId : String) (loopIndex : Nat) (e : RunError) : Program Unit :=
  Program.ask (.log (.error "loop_failed" [
    ("run_id", .text runId), ("loop_index", .nat loopIndex), ("error", .text e.message)]))

/-- The delay between two loop indices; an error if there is no number that large. -/
def delay (ms : Nat) : Program (Except Failure Unit) :=
  if ms = 0 then return .ok ()
  else
    match Duration.seconds? ms with
    | none =>
      return .error (.fault ⟨.overflow, "integer division result too large for a float"⟩)
    | some seconds => do
      match ← Program.await (.sleep (Duration.millis seconds)) with
      | .resumed => return .ok ()
      | .interrupted => return .error .interrupted

/-- Runs loop indices one after another from a given one on; `remaining` more follow it. The reply
is the error that ended them, or what they raise. -/
def sequentially (loop : Nat → Program (Except Failure Unit)) (runId : String) (delayMs : Nat) :
    Nat → Nat → Program (Except Failure (Option RunError))
  | loopIndex, remaining => do
    match ← loop loopIndex with
    | .error (.error e) =>
      logLoopFailed runId loopIndex e
      return .ok (some e)
    | .error e => return .error e
    | .ok () =>
      match remaining with
      | 0 => return .ok none
      | remaining + 1 =>
        match ← delay delayMs with
        | .error e => return .error e
        | .ok () => sequentially loop runId delayMs (loopIndex + 1) remaining

/-- The program of a loop index that runs along with others. -/
def alongside (loop : Nat → Program (Except Failure Unit)) (runId : String) (loopIndex : Nat) :
    Program (Option Failure) := do
  match ← loop loopIndex with
  | .ok () => return none
  | .error (.error e) =>
    logLoopFailed runId loopIndex e
    return some (.error e)
  | .error e => return some e

/-- Puts the end of a loop index in its place, before those of greater ones. -/
def place (l : Nat × Option Failure) : List (Nat × Option Failure) → List (Nat × Option Failure)
  | [] => [l]
  | m :: rest => if l.1 ≤ m.1 then l :: m :: rest else m :: place l rest

/-- The ends of loop indices in the order of their numbers. -/
def byIndex (outcomes : List (Nat × Option Failure)) : List (Nat × Option Failure) :=
  outcomes.foldr place []

/-- The failure of the smallest loop index that ended in one that the runner does not know. -/
def unexpected? (outcomes : List (Nat × Option Failure)) : Option Failure :=
  ((byIndex outcomes).filterMap Prod.snd).find? fun
    | .error _ => false
    | _ => true

/-- The first error, in the order in which loop indices ended. -/
def firstError? (outcomes : List (Nat × Option Failure)) : Option RunError :=
  outcomes.findSome? fun
    | (_, some (.error e)) => some e
    | _ => none

/-- What loop indices that ran all at once come to. -/
def joined (outcomes : List (Nat × Option Failure)) : Except Failure (Option RunError) :=
  match unexpected? outcomes with
  | some e => .error e
  | none => .ok (firstError? outcomes)

/-- Runs all loop indices below a count at once. -/
def allAtOnce (count : Nat) : Program (Except Failure (Option RunError)) := do
  match ← Program.await (.loops count) with
  | .interrupted => return .error .interrupted
  | .resumed => return joined (← Program.ask .outcomes)

/-- The loop indices of a run under its time limit. -/
def loops (loop : Nat → Program (Except Failure Unit)) (config : AutomationConfig)
    (runId : String) : Program (Except Failure (Option RunError)) := do
  Program.ask (.armTimeout ((config.timeoutS : Rat) * 1000)
    s!"automation timed out after {config.timeoutS}s")
  let result ← match config.runMode with
    | .parallel => allAtOnce config.runCount
    | .sequential => sequentially loop runId config.multirun.delayMs 0 (config.runCount - 1)
  Program.ask .disarmTimeout
  return result

/-- Saves a record. That it cannot be saved is only logged. -/
def save (r : RunRecord) : Program Wake := do
  let reply ← Program.ask (.save r)
  match ← Program.await .store with
  | .interrupted => return .interrupted
  | .resumed =>
    if let .error f := reply then
      Program.ask (.log (.error "run_save_failed"
        [("run_id", .text r.id), ("error", .text f.text)]))
    return .resumed

/-- Closes the queue and puts the end mark in, waiting for room if need be. -/
def closeQueue : Program Wake := do
  if ← Program.ask .closeQueue then
    if ← Program.ask .offerEnd then return .resumed
    else
      match ← Program.await .room with
      | .interrupted => return .interrupted
      | .resumed =>
        let _ ← Program.ask .offerEnd
        return .resumed
  else return .resumed

/-- Stops the ticker. -/
def stopTicker : Program Unit := do
  Program.ask .stopTicker
  let _ ← Program.await .ticker

/-- Waits until everything in the queue has been gathered, then stops the ticker. -/
def waitClosed : Program Wake := do
  match ← Program.await .consumer with
  | .interrupted => return .interrupted
  | .resumed =>
    stopTicker
    return .resumed

/-- Stops gathering without the end mark; what is in the queue is still gathered. -/
def stopGathering : Program Unit := do
  let _ ← Program.ask .closeQueue
  Program.ask .stopConsumer
  let _ ← Program.await .consumer
  stopTicker

/-- The message about a finished run. -/
def messageOf (automation : Automation) (r : RunRecord) : NotificationMessage :=
  { automationId := automation.id
    automationName := automation.name
    projectId := automation.projectId
    projectName := automation.projectName
    runId := r.id
    status := r.status.word
    startTime := r.startTime
    endTime := r.endTime
    errorMessage := r.errorMessage
    outputFiles := r.outputFiles
    logsCount := r.logs.length }

/-- Sends the message about a finished run, if there are channels. That it fails is only logged. -/
def notify (automation : Automation) (r : RunRecord) (channels : List Channel) : Program Unit := do
  if channels.isEmpty then return
  match ← Program.ask (.notify (messageOf automation r) channels) with
  | .ok () => return ()
  | .error f =>
    Program.ask (.log (.error "notification_dispatch_failed"
      [("run_id", .text r.id), ("error", .text f.text)]))

/-- The finished record. -/
def finished (r : RunRecord) (s : Snapshot) (now : Rat) (ending : Ending) : RunRecord :=
  let (status, errorMessage) := ending.verdict r.errorMessage
  { r.withSnapshot s with status, errorMessage, endTime := some (.ofMillis now) }

/-- Finishes a run: gathers what is left, completes the record, saves it, and tells the channels of
the settings, if they are known. Interrupted while it gathers, it leaves the record as it is;
interrupted while it saves, it tells nobody. -/
def finish (automation : Automation) (r : RunRecord) (channels : List Channel) (ending : Ending)
    (raised : Option Failure) : Program Ended := do
  match ← closeQueue with
  | .interrupted => return ⟨r, some .interrupted⟩
  | .resumed =>
    match ← waitClosed with
    | .interrupted => return ⟨r, some .interrupted⟩
    | .resumed =>
      let snapshot ← Program.ask .snapshot
      let now ← Program.ask .now
      let r := finished r snapshot now ending
      match ← save r with
      | .interrupted => return ⟨r, some .interrupted⟩
      | .resumed =>
        notify automation r channels
        return ⟨r, raised⟩

/-- Logs that a run crashed. -/
def logCrash (automation : Automation) (r : RunRecord) (e : Failure) : Program Unit :=
  Program.ask (.log (.error "automation_run_crashed" [
    ("run_id", .text r.id), ("automation_id", .text automation.id), ("error", .text e.text)]))

/-- Goes from the end of the loop indices to the end of the run. -/
def conclude (automation : Automation) (r : RunRecord) (channels : List Channel) :
    Except Failure (Option RunError) → Program Ended
  | .ok none => finish automation r channels .completed none
  | .ok (some e) => finish automation r channels (.failed e) (some (.error e))
  | .error .interrupted => do
    let reason := "run task cancelled"
    Program.ask (.cancel reason false)
    stopGathering
    finish automation r [] (.failed (.cancelled reason false)) (some .interrupted)
  | .error e => do
    logCrash automation r e
    finish automation r [] (.crashed e) (some e)

/-- The record of a run that begins. -/
def begun (r : RunRecord) (now : Rat) : RunRecord :=
  { r with status := .running, startTime := some (r.startTime.getD (.ofMillis now)) }

/-- Goes through the loop indices of a run that has been saved as begun, and to its end. -/
def execute (runner : Runner) (automation : Automation) (r : RunRecord) : Program Ended := do
  Program.ask (.startAggregator r)
  match AutomationConfig.parse automation.config with
  | .error fault =>
    match fault.toFailure with
    | .error e =>
      Program.ask (.log (.error "automation_config_invalid"
        [("run_id", .text r.id), ("error", .text e.message)]))
      conclude automation r [] (.ok (some e))
    | e => conclude automation r [] (.error e)
  | .ok config =>
    let result ← loops (Loop.run runner automation config r.id) config r.id
    conclude automation r config.notifications result

/-- Runs an automation. Interrupted while its beginning is saved, it leaves the record as begun. -/
def run (runner : Runner) (automation : Automation) (record : RunRecord) : Program Ended := do
  let r := begun record (← Program.ask .now)
  match ← save r with
  | .interrupted => return ⟨r, some .interrupted⟩
  | .resumed => execute runner automation r

/-- The program of a loop index that runs along with others; nothing when the settings are
wrong. -/
def loopProgram (runner : Runner) (automation : Automation) (runId : String) (loopIndex : Nat) :
    Program (Option Failure) :=
  match AutomationConfig.parse automation.config with
  | .ok config => alongside (Loop.run runner automation config runId) runId loopIndex
  | .error _ => return none

end Whole

end Runbook
