import Runbook.Number.Power

/-!
# Binary64 numbers

A 64-bit floating number is not-a-number, an infinity, or a sign with an integer mantissa and a
power of two. `Binary64.ofRatio` rounds an exact quotient to the nearest such number, a half going
to the even mantissa; all other arithmetic of this library is done on exact rationals and rounded
once. A finite number is kept in canonical form: its mantissa is below 2^53, and at least 2^52
unless the exponent is the least one.
-/

namespace Runbook

/-- A number with 53 significant bits. -/
inductive Binary64 where
  | nan
  | infinity (negative : Bool)
  | finite (negative : Bool) (mantissa : Nat) (exponent : Int)
  deriving DecidableEq, Repr, Inhabited

/-- The quotient rounded to a whole number, a half going to the even neighbour. -/
def roundDiv (n d : Nat) : Nat :=
  let q := n / d
  let r := 2 * (n % d)
  if r < d then q else if d < r then q + 1 else if q % 2 = 0 then q else q + 1

namespace Binary64

/-- The exponent of the numbers next to zero. -/
def minExponent : Int := -1074

/-- The exponent of the largest finite numbers. -/
def maxExponent : Int := 971

/-- Zero, with a sign. -/
def zero (negative : Bool) : Binary64 := .finite negative 0 minExponent

/-- `n / d` divided by `2 ^ e`, as a quotient of natural numbers. -/
def scale (n d : Nat) (e : Int) : Nat × Nat :=
  (n * pow2 (-e).toNat, d * pow2 e.toNat)

/-- The exponent at which `n / d` has a mantissa of exactly 53 bits, or the least exponent when
the quotient is too small for that. -/
def exponentFor (n d : Nat) : Int :=
  let e : Int := (n.log2 : Int) - d.log2 - 52
  let (a, b) := scale n d e
  max minExponent (if a < pow2 52 * b then e - 1 else e)

/-- The number nearest to `n / d`, with the given sign. -/
def ofRatio (negative : Bool) (n d : Nat) : Binary64 :=
  if n = 0 then zero negative
  else
    let e := exponentFor n d
    let (a, b) := scale n d e
    let m := roundDiv a b
    let (m, e) := if m = pow2 53 then (pow2 52, e + 1) else (m, e)
    if maxExponent < e then .infinity negative else .finite negative m e

/-- The number nearest to a rational. -/
def ofRat (q : Rat) : Binary64 := ofRatio (q.num < 0) q.num.natAbs q.den

/-- The number nearest to an integer; none when that lies beyond the finite numbers. -/
def ofInt? (i : Int) : Option Binary64 :=
  match ofRatio (i < 0) i.natAbs 1 with
  | .infinity _ => none
  | x => some x

/-- The number nearest to `digits * 10 ^ exponent`. Powers of ten far outside the range of finite
numbers are settled without computing them. -/
def ofDecimal (negative : Bool) (digits : Nat) (exponent : Int) : Binary64 :=
  if digits = 0 then zero negative
  else
    let magnitude : Int := (digits.log2 : Int) * 30103 / 100000 + exponent
    if 400 < magnitude then .infinity negative
    else if magnitude < -400 then zero negative
    else ofRatio negative (digits * pow10 exponent.toNat) (pow10 (-exponent).toNat)

/-- The exact value, where there is one. -/
def toRat? : Binary64 → Option Rat
  | .finite negative m e =>
    let v : Rat := mkRat (m * pow2 e.toNat) (pow2 (-e).toNat)
    some (if negative then -v else v)
  | _ => none

/-- The integer that the number stands for, if it is one. -/
def toInt? (x : Binary64) : Option Int :=
  x.toRat?.bind fun q => if q.den = 1 then some q.num else none

def isNegative : Binary64 → Bool
  | .nan => false
  | .infinity negative => negative
  | .finite negative _ _ => negative

/-- Numerically zero, whatever the sign. -/
def isZero : Binary64 → Bool
  | .finite _ m _ => m == 0
  | _ => false

/-- Numerical order. Nothing is below or above not-a-number. -/
def lt : Binary64 → Binary64 → Bool
  | .nan, _ | _, .nan => false
  | .infinity a, .infinity b => a && !b
  | .infinity a, _ => a
  | _, .infinity b => !b
  | x, y =>
    match x.toRat?, y.toRat? with
    | some p, some q => p < q
    | _, _ => false

/-- One. -/
def one : Binary64 := .finite false (pow2 52) (-52)

/-- One half. -/
def half : Binary64 := .finite false (pow2 52) (-53)

/-- The number held to the range from zero to one. Not-a-number and a negative zero pass. -/
def clampUnit (x : Binary64) : Binary64 :=
  let x := if lt x (zero false) then zero false else x
  if lt one x then one else x

example : ofRatio false 1 2 = half := by decide
example : (ofDecimal false 1 (-1)).toRat? = some (mkRat 3602879701896397 36028797018963968) := by
  decide +kernel
example : ofInt? (pow2 1024) = none := by decide +kernel
example : ofDecimal false 49 (-325) = .finite false 1 (-1074) := by decide +kernel
example : ofDecimal false 1 (-324) = zero false := by decide +kernel

end Binary64

end Runbook
