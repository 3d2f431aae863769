import Runbook.Number.Duration
import Runbook.Rehearsal.World
import Runbook.Run.Whole
import Runbook.Schedule.State

/-!
# Rehearsing the event queue

Events are put into the queue of a run, and the queue is emptied, closed and gathered from, one step
at a time. Every step shows how much the queue holds afterwards and what the record of the run has.
A step that could never end is not carried out.
-/

namespace Runbook.Rehearsal

open Runbook.Schedule

/-- Something done to the queue of a run, or to whoever empties it. -/
inductive QueueStep where
  /-- Offers events, each made at the time that it is given. -/
  | emit (events : List (Timestamp → RunEvent))
  /-- Stops taking events. -/
  | refuse
  /-- Stops taking events and puts the end mark in. -/
  | close
  | drain
  /-- Starts the consumer and the ticker. -/
  | start
  | flush
  | sleep (seconds : Binary64)
  | waitClosed
  | cancel

/-- What a step brings. -/
inductive QueueReply where
  | done
  /-- How many of the offered events were taken. -/
  | taken (count : Nat)
  | drained (events : List RunEvent)
  /-- The step could never end. -/
  | wouldBlock

/-- A step and what it leaves. -/
structure QueueScene where
  reply : QueueReply
  /-- The number of events in the queue. -/
  queued : Nat
  dropped : Nat
  record : Snapshot

namespace Gathering

/-- Lets a program run to its end. -/
def perform (p : Program Unit) : StateM (Shared World) QueueReply := fun s =>
  (.done, (State.runMain World.collaborators (fun _ => return none) s p).shared)

/-- Whether a step could never end. -/
def blocks (s : Shared World) : QueueStep → Bool
  | .close => s.pipeline.isFull && !s.pipeline.closed && !s.consumer.isActive
  | .waitClosed => s.consumer.isActive && !s.pipeline.closed
  | _ => false

/-- Offers events one after another. -/
def emitAll : List (Timestamp → RunEvent) → StateM (Shared World) Nat
  | [] => return 0
  | e :: rest => do
    let taken ← Shared.emit World.collaborators (e (.ofMillis (← get).clock))
    let more ← emitAll rest
    return (if taken then 1 else 0) + more

/-- Carries out a step. -/
def carryOut : QueueStep → StateM (Shared World) QueueReply
  | .emit events => return .taken (← emitAll events)
  | .refuse => do
    modify fun s => { s with pipeline := s.pipeline.close }
    return .done
  | .close => perform (do let _ ← Whole.closeQueue)
  | .drain => fun s =>
    let (pipeline, events) := s.pipeline.drain
    (.drained events, { s with pipeline })
  | .start => do
    Shared.startDaemons
    return .done
  | .flush => do
    Shared.flush World.collaborators
    return .done
  | .sleep seconds =>
    perform (do let _ ← Program.await (.sleep (Duration.millis seconds)))
  | .waitClosed => perform (do let _ ← Whole.waitClosed)
  | .cancel => perform Whole.stopGathering

/-- Carries out a step, unless it could never end, and shows what it leaves. -/
def play (step : QueueStep) : StateM (Shared World) QueueScene := do
  let reply ← if blocks (← get) step then pure .wouldBlock else carryOut step
  let s ← get
  return {
    reply, queued := s.pipeline.queue.length, dropped := s.pipeline.dropped, record := s.flushed }

/-- Carries out steps, and stops gathering at the end. The reply is what each step left. -/
def playAll (r : RunRecord) (steps : List QueueStep) : StateM (Shared World) (List QueueScene) := do
  Shared.beginGathering r
  let scenes ← steps.mapM play
  let _ ← perform Whole.stopGathering
  return scenes

end Gathering

end Runbook.Rehearsal
