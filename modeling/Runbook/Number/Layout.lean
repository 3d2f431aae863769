import Runbook.Number.Shortest

/-!
# Written numbers

A layout decides where positional notation ends and how an exponent looks. `Layout.plain` writes
the shortest digits that read back, always with a point or an exponent; `Layout.general` writes at
most six significant digits and leaves out what is not needed.
-/

namespace Runbook

/-- How digits become text. -/
structure Layout where
  /-- The least power of ten of the first digit that is written positionally. -/
  least : Int
  /-- The first power of ten that is no longer written positionally. -/
  beyond : Int
  /-- A whole number written positionally ends in `.0`. -/
  keepPoint : Bool

namespace Layout

/-- Numbers in documents and messages: positional from 0.0001 up to below 10^16. -/
def plain : Layout := ⟨-4, 16, true⟩

/-- Six significant digits: positional from 0.0001 up to below 10^6. -/
def general : Layout := ⟨-4, 6, false⟩

/-- The digits of a natural number, padded with zeros in front to a width. -/
def padded (width n : Nat) : String :=
  let s := toString n
  "".pushn '0' (width - s.length) ++ s

/-- A digit string with a point after its first `k` digits, zeros filled in where it is short. -/
def pointAfter (layout : Layout) (s : String) (k : Nat) : String :=
  if s.length ≤ k then
    s.pushn '0' (k - s.length) ++ (if layout.keepPoint then ".0" else "")
  else (s.take k).toString ++ "." ++ (s.drop k).toString

/-- The text of a positive number with the given digits. -/
def write (layout : Layout) (x : Digits) : String :=
  let x := x.trimmed
  let s := padded x.count x.digits
  if x.exponent < layout.least ∨ layout.beyond ≤ x.exponent then
    let sign := if x.exponent < 0 then "-" else "+"
    (if s.length ≤ 1 then s else (s.take 1).toString ++ "." ++ (s.drop 1).toString)
      ++ "e" ++ sign ++ padded 2 x.exponent.natAbs
  else if x.exponent < 0 then
    "0." ++ "".pushn '0' (x.exponent.natAbs - 1) ++ s
  else layout.pointAfter s (x.exponent.toNat + 1)

end Layout

namespace Binary64

/-- The text of any number, given how a positive finite one and zero are written. -/
def writeWith (zeroText : String) (positive : Nat → Int → String) : Binary64 → String
  | .nan => "nan"
  | .infinity negative => if negative then "-inf" else "inf"
  | .finite negative m e =>
    (if negative then "-" else "") ++ if m = 0 then zeroText else positive m e

/-- The shortest text that reads back as the number. -/
def toText (x : Binary64) : String :=
  x.writeWith "0.0" fun m e => Layout.plain.write (Digits.shortest m e)

/-- The number to six significant digits. -/
def toGeneral (x : Binary64) : String :=
  x.writeWith "0" fun m e =>
    Layout.general.write (Digits.rounded (m * pow2 e.toNat) (pow2 (-e).toNat) 6)

/-- The value of the shortest text: the decimal number a person reads off it. -/
def toDecimal? : Binary64 → Option Rat
  | .finite _ 0 _ => some 0
  | .finite negative m e =>
    let x := Digits.shortest m e
    let shift := x.exponent + 1 - x.count
    let v : Rat := mkRat (x.digits * pow10 shift.toNat) (pow10 (-shift).toNat)
    some (if negative then -v else v)
  | _ => none

end Binary64

end Runbook
