import Runbook.Error

/-!
# Cancellation

A run can be asked to stop. The first request counts: it fixes the reason and whether a time limit
was the cause, and later requests change nothing. The run looks at the request at its checkpoints
and stops there with an error.
-/

namespace Runbook

/-- A request to stop. -/
structure Cancellation where
  reason : String
  timedOut : Bool
  deriving DecidableEq, Repr

namespace Cancellation

/-- What is said when nobody gave a reason. -/
def defaultMessage : String := "execution cancelled"

/-- Adds a request to those made so far: the first one stays. -/
def request (earlier : Option Cancellation) (reason : String) (timedOut : Bool) :
    Option Cancellation :=
  match earlier with
  | some c => some c
  | none => some ⟨reason, timedOut⟩

/-- The first of two texts that says something. -/
def firstWords (a b : String) : String := if a.isEmpty then b else a

/-- The error with which a checkpoint stops, in its own words if it has any, else in those of the
request. -/
def toError (c : Cancellation) (checkpoint : String) : RunError :=
  .cancelled (firstWords checkpoint (firstWords c.reason defaultMessage)) c.timedOut

theorem request_some (c : Cancellation) (reason : String) (timedOut : Bool) :
    request (some c) reason timedOut = some c := rfl

end Cancellation

end Runbook
