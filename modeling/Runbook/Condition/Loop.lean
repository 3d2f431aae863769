import Runbook.Condition.Prime
import Runbook.Error
import Runbook.Log
import Runbook.Number.Numeral

/-!
# Conditions on a loop index

A step may be skipped for some loop indices: for even, odd or prime ones, or at random. The chance
of a random condition is a field of the step; it is held between zero and one, and stands at one
half when it is absent or unreadable. Random numbers come from a list of drawn numbers, and an
exhausted list gives zeros.
-/

namespace Runbook.Condition

/-- The chance of a random condition unless stated otherwise. -/
def defaultProbability : Binary64 := .half

/-- Takes the next drawn number. -/
def draw : List Binary64 → Binary64 × List Binary64
  | [] => (.zero false, [])
  | x :: rest => (x, rest)

/-- Evaluates a condition. One that is not known does not hold. -/
def holds (condition : Json) (loopIndex : Int) (probability : Binary64) (draws : List Binary64) :
    Bool × List Binary64 :=
  match condition with
  | .text "loop_index_is_even" => (loopIndex % 2 == 0, draws)
  | .text "loop_index_is_odd" => (loopIndex % 2 == 1, draws)
  | .text "loop_index_is_prime" => (isPrime loopIndex, draws)
  | .text "random" =>
    let (x, rest) := draw draws
    (x.lt probability, rest)
  | _ => (false, draws)

/-- The number a document stands for: nothing when it is no number, and a fault when it is an
integer beyond all numbers. -/
def number? : Json → Except Fault (Option Binary64)
  | .bool b => .ok (some (if b then .one else .zero false))
  | .int i =>
    match Binary64.ofInt? i with
    | some x => .ok (some x)
    | none => .error ⟨.overflow, "int too large to convert to float"⟩
  | .float x => .ok (some x)
  | .text s => .ok (Numeral.decimal? s)
  | _ => .ok none

/-- The chance that a field states, with a warning when it cannot be read. -/
def probability (value : Json) : Except Fault (Binary64 × List LogRecord) :=
  match value with
  | .null | .text "" => .ok (defaultProbability, [])
  | value => do
    match ← number? value with
    | some x => .ok (x.clampUnit, [])
    | none => .ok (defaultProbability, [.warning "invalid_probability" [("value", value)]])

/-- Whether a step is skipped, the numbers that are left, and what was logged. -/
structure Decision where
  skip : Bool
  draws : List Binary64
  log : List LogRecord := []

/-- The condition in a field, when one is stated. -/
def stated? (config : Fields) (key : String) : Option Json :=
  (Fields.get? config key).filter Json.truthy

/-- Decides whether a step is skipped for a loop index. `skip_condition` skips when it holds and
`run_only_condition` skips when it does not; the second is evaluated only if the first did not
skip. -/
def decideSkip (config : Fields) (loopIndex : Int) (draws : List Binary64) :
    Except Fault Decision := do
  if config.isEmpty then return { skip := false, draws }
  let (p, log) ← probability ((Fields.get? config "probability").getD .null)
  let (skipHolds, draws) := match stated? config "skip_condition" with
    | some c => holds c loopIndex p draws
    | none => (false, draws)
  if skipHolds then return { skip := true, draws, log }
  match stated? config "run_only_condition" with
  | none => return { skip := false, draws, log }
  | some c =>
    let (runHolds, draws) := holds c loopIndex p draws
    return { skip := !runHolds, draws, log }

end Runbook.Condition
