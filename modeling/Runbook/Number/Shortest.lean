import Runbook.Number.Binary64

/-!
# Digits of a number

`Digits` is a decimal number written with one digit before the point. `shortest` finds the fewest
digits that read back as the given binary number and, of these, the nearest to it; `rounded` gives
the digits of the exact value at a fixed count, a half going to the even neighbour. Both work on
natural numbers only.
-/

namespace Runbook

/-- Significant decimal digits `digits` (most significant first, as one natural number of `count`
digits) with the power of ten of the first digit. -/
structure Digits where
  digits : Nat
  count : Nat
  exponent : Int
  deriving DecidableEq, Repr, Inhabited

namespace Digits

/-- `n / d` in units of `10 ^ e`, as a quotient of natural numbers. -/
def inUnits (n d : Nat) (e : Int) : Nat × Nat :=
  (n * pow10 (-e).toNat, d * pow10 e.toNat)

/-- Moves a guess up until `10 ^ (e + 1)` exceeds `n / d`; the guess starts at most `steps` low. -/
def raise (n d : Nat) : Nat → Int → Int
  | 0, e => e
  | steps + 1, e =>
    let (a, b) := inUnits n d (e + 1)
    if b ≤ a then raise n d steps (e + 1) else e

/-- The power of ten of the first digit of `n / d`, for a positive quotient. -/
def leading (n d : Nat) : Int :=
  raise n d 4 (((n.log2 : Int) - d.log2 - 1) * 30103 / 100000 - 1)

/-- The digits of a positive quotient rounded to `count` places. -/
def rounded (n d count : Nat) : Digits :=
  let k := leading n d
  let (a, b) := inUnits n d (k + 1 - count)
  let t := roundDiv a b
  if t = pow10 count then ⟨pow10 (count - 1), count, k + 1⟩ else ⟨t, count, k⟩

/-- The interval of quotients that round to a binary number: `lower` and `upper` over `den`, the
ends included when `closed`. -/
structure Interval where
  lower : Nat
  upper : Nat
  den : Nat
  closed : Bool

/-- Whether `t * unit` lies in the interval, `unit` being the quotient `un / ud`. -/
def Interval.contains (i : Interval) (t un ud : Nat) : Bool :=
  let x := t * un * i.den
  let lo := i.lower * ud
  let hi := i.upper * ud
  if i.closed then lo ≤ x && x ≤ hi else lo < x && x < hi

/-- The numbers that round to `m * 2 ^ e`. Just above a power of two the gap below is half of the
gap above. -/
def intervalOf (m : Nat) (e : Int) : Interval :=
  let below := if m = pow2 52 ∧ Binary64.minExponent < e then 1 else 2
  let num := pow2 (e - 2).toNat
  { lower := (4 * m - below) * num
    upper := (4 * m + 2) * num
    den := pow2 (2 - e).toNat
    closed := m % 2 == 0 }

/-- The neighbours of `n / d` on the grid of `count` digits, tried for lying in the interval. -/
def onGrid? (n d : Nat) (i : Interval) (k : Int) (count : Nat) : Option Digits :=
  let e := k + 1 - count
  let (a, b) := inUnits n d e
  let t := a / b
  let r := 2 * (a % b)
  let un := pow10 e.toNat
  let ud := pow10 (-e).toNat
  let lowOk := i.contains t un ud
  let highOk := i.contains (t + 1) un ud
  let pick := if lowOk && highOk then
      some (if r < b then t else if b < r then t + 1 else if t % 2 = 0 then t else t + 1)
    else if lowOk then some t else if highOk then some (t + 1) else none
  pick.map fun t => if t = pow10 count then ⟨pow10 (count - 1), count, k + 1⟩ else ⟨t, count, k⟩

/-- The first grid, from `count` digits up, that has a point in the interval. -/
def search (n d : Nat) (i : Interval) (k : Int) : Nat → Nat → Digits
  | 0, _ => rounded n d 17
  | steps + 1, count =>
    match onGrid? n d i k count with
    | some r => r
    | none => search n d i k steps (count + 1)

/-- The fewest digits that read back as `m * 2 ^ e`, for `0 < m`. -/
def shortest (m : Nat) (e : Int) : Digits :=
  let n := m * pow2 e.toNat
  let d := pow2 (-e).toNat
  search n d (intervalOf m e) (leading n d) 17 1

/-- Leading digits without the zeros at the end, one digit at least. -/
def dropZeros : Nat → Nat → Nat → Nat × Nat
  | 0, digits, count => (digits, count)
  | steps + 1, digits, count =>
    if digits % 10 = 0 ∧ 1 < count then dropZeros steps (digits / 10) (count - 1)
    else (digits, count)

/-- The same number without zeros at the end of its digits. -/
def trimmed (x : Digits) : Digits :=
  let (digits, count) := dropZeros x.count x.digits x.count
  { x with digits, count }

example : shortest (pow2 52) (-52) = ⟨1, 1, 0⟩ := by decide +kernel
example : shortest 1 (-1074) = ⟨5, 1, -324⟩ := by decide +kernel
example : shortest 7205759403792794 (-56) = ⟨1, 1, -1⟩ := by decide +kernel
example : rounded 1234567 1 6 = ⟨123457, 6, 6⟩ := by decide +kernel

end Digits

end Runbook
