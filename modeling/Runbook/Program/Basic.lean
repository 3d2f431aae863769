import Runbook.Action.Frame
import Runbook.Api.Exchange
import Runbook.Cancellation
import Runbook.Log
import Runbook.Notification
import Runbook.Page.Call
import Runbook.Run.Record

/-!
# Programs

What a run does to its surroundings is written as a `Program`: a tree that ends in a value, makes a
call and goes on with the reply, or waits and goes on when it is woken. At a wait it gives up
control until what it waits for is over, and only there can it be interrupted. Every branch of the
tree is finite, so every program ends if its waits do.

The surroundings are not part of a program. What it does under all of them is what its tree says.
-/

namespace Runbook

/-- Randomness that has not been drawn yet. -/
structure Chance where
  /-- For the conditions of steps. -/
  draws : List Binary64 := []
  /-- For templates. -/
  ints : List Int := []

/-- What a program may ask for. -/
inductive Call where
  /-- The time in milliseconds since 1970. -/
  | now
  /-- Offers an event to the queue; the reply says whether it was taken. -/
  | emit (e : RunEvent)
  | log (r : LogRecord)
  /-- Announces that an action is dispatched with this configuration, not yet resolved. -/
  | dispatched (loopIndex : Int) (frame : Frame) (config : Fields)
  | chance
  | setChance (c : Chance)
  /-- The variables that all loop indices share. -/
  | globals
  | setGlobal (name : String) (value : Json)
  /-- The request to stop, if there is one. -/
  | cancellation
  | cancel (reason : String) (timedOut : Bool)
  | page (loopIndex : Int) (c : PageCall)
  | screenshot (loopIndex : Int) (options : Fields)
  /-- Stores bytes under a key; the reply is where they can be found. -/
  | upload (key : String) (data : List UInt8) (contentType : String)
  | delete (key : String)
  /-- The stored keys that begin with a text. -/
  | list (beginning : String)
  | request (r : Api.Request)
  /-- Reports something to whoever watches. -/
  | observe (entry : Json)
  | openSession (loopIndex : Nat)
  | closeSession (loopIndex : Nat)
  | save (r : RunRecord)
  | notify (m : NotificationMessage) (channels : List Channel)
  /-- Asks for a cancellation when so many milliseconds have passed. -/
  | armTimeout (ms : Rat) (reason : String)
  | disarmTimeout
  /-- Starts to gather events for a run, beyond what its record holds. -/
  | startAggregator (r : RunRecord)
  /-- What was last written to the record. -/
  | snapshot
  /-- Stops taking events; the reply says whether they were still taken. -/
  | closeQueue
  /-- Puts the end mark into the queue; the reply says whether there was room. -/
  | offerEnd
  /-- Stops gathering events without waiting for the end mark. -/
  | stopConsumer
  | stopTicker
  /-- How the concurrent loop indices ended, in the order in which they did. -/
  | outcomes

/-- What a call is answered with. -/
abbrev Call.Reply : Call → Type
  | .now => Rat
  | .emit _ => Bool
  | .chance => Chance
  | .globals => Fields
  | .cancellation => Option Cancellation
  | .page _ _ => Except Fault Json
  | .screenshot _ _ => Except Fault (List UInt8)
  | .upload _ _ _ => Except Fault String
  | .delete _ => Except Fault Unit
  | .list _ => Except Fault (List String)
  | .request _ => Except Api.NoResponse Api.Response
  | .openSession _ => Except Fault Unit
  | .save _ => Except Fault Unit
  | .notify _ _ => Except Fault Unit
  | .snapshot => Snapshot
  | .closeQueue => Bool
  | .offerEnd => Bool
  | .outcomes => List (Nat × Option Failure)
  | _ => Unit

/-- What a program may wait for. -/
inductive Wait where
  /-- So many milliseconds to pass. -/
  | sleep (ms : Rat)
  /-- All loop indices below a count to run concurrently to their ends. -/
  | loops (count : Nat)
  /-- Room for the end mark in the queue. -/
  | room
  /-- The end of the consumer of events. -/
  | consumer
  /-- The end of the periodic flushes. -/
  | ticker
  /-- The end of what the store was asked to do. -/
  | store

/-- How a wait ends. -/
inductive Wake where
  | resumed
  | interrupted
  deriving DecidableEq, Repr

/-- A program that ends in a value of type `α`. -/
inductive Program (α : Type) where
  | done (a : α)
  | call (c : Call) (k : c.Reply → Program α)
  | wait (w : Wait) (k : Wake → Program α)

namespace Program

variable {α β γ : Type}

/-- One program after another. -/
def bind : Program α → (α → Program β) → Program β
  | done a, f => f a
  | call c k, f => call c fun r => bind (k r) f
  | wait w k, f => wait w fun r => bind (k r) f

instance : Monad Program where
  pure := done
  bind := bind

theorem bind_done (p : Program α) : p.bind done = p := by
  induction p with
  | done a => rfl
  | call c k ih => simp only [bind]; congr; funext r; exact ih r
  | wait w k ih => simp only [bind]; congr; funext r; exact ih r

theorem bind_bind (p : Program α) (f : α → Program β) (g : β → Program γ) :
    (p.bind f).bind g = p.bind fun a => (f a).bind g := by
  induction p with
  | done a => rfl
  | call c k ih => simp only [bind]; congr; funext r; exact ih r
  | wait w k ih => simp only [bind]; congr; funext r; exact ih r

instance : LawfulMonad Program :=
  LawfulMonad.mk' Program bind_done (fun _ _ => rfl) bind_bind

/-- Makes a call. -/
def ask (c : Call) : Program c.Reply := call c done

/-- Waits. -/
def await (w : Wait) : Program Wake := wait w done

end Program

end Runbook
