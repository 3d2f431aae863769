import Runbook.Number.Layout

/-!
# Durations

Durations are stated in milliseconds and kept as numbers of seconds. A timer counts exactly what a
person reads off such a number: its shortest decimal text, taken as a rational.
-/

namespace Runbook.Duration

/-- The number of seconds nearest to so many milliseconds; none when there is no number that
large. -/
def seconds? (ms : Rat) : Option Binary64 :=
  match Binary64.ofRat (ms / 1000) with
  | .infinity _ => none
  | x => some x

/-- The milliseconds that a timer counts for a number of seconds, none for what is no number. -/
def millis (seconds : Binary64) : Rat := (seconds.toDecimal?.getD 0) * 1000

/-- The milliseconds that a timer counts for a stated number of milliseconds. -/
def ofMillis (ms : Binary64) : Rat :=
  match ms.toRat? with
  | some q => millis (Binary64.ofRat (q / 1000))
  | none => 0

example : ofMillis (Binary64.ofRat 700) = 700 := by decide +kernel

end Runbook.Duration
