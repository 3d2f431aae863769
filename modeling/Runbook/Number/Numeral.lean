import Runbook.Number.Binary64
import Runbook.Text.Blank
import Runbook.Text.Digit

/-!
# Numerals

Reading numbers that stand in a text. Two conventions are in use.

* A *free* numeral may be surrounded by white space and may use the decimal digits of any script.
* A *field* numeral, as a configuration field accepts it, may be surrounded by white space and uses
  ASCII digits; an integer field takes `30.0` for thirty.

In both, a single underscore may stand between two digits.
-/

namespace Runbook.Numeral

open Runbook.Text

/-- The value of a list of decimal digits, most significant first. -/
def valueOf (cs : List Char) : Nat :=
  cs.foldl (fun n c => 10 * n + (c.toNat - 48)) 0

/-- Decimal digits of any script as ASCII digits; everything else unchanged. -/
def toAscii (cs : List Char) : List Char :=
  cs.map fun c => if c.toNat < 0x80 then c else
    match digitValue? c with
    | some d => Char.ofNat (48 + d)
    | none => c

/-- Splits off a sign; `true` means negative. -/
def takeSign : List Char → Bool × List Char
  | '-' :: cs => (true, cs)
  | '+' :: cs => (false, cs)
  | cs => (false, cs)

/-- Removes underscores; none unless each of them stands between two digits. -/
def dropUnderscores (cs : List Char) : Option (List Char) :=
  go false cs
where
  go (afterDigit : Bool) : List Char → Option (List Char)
    | [] => some []
    | '_' :: cs =>
      if afterDigit && cs.head?.any Char.isDigit then go false cs else none
    | c :: cs => (go c.isDigit cs).map (c :: ·)

/-- A non-empty list of digits, underscores allowed between them. -/
def natural? (cs : List Char) : Option Nat :=
  match dropUnderscores cs with
  | some ds => if !ds.isEmpty && ds.all Char.isDigit then some (valueOf ds) else none
  | none => none

/-- A sign and digits. -/
def signed? (cs : List Char) : Option Int :=
  let (negative, ds) := takeSign cs
  (natural? ds).map fun n => if negative then -(n : Int) else n

/-- How many digits the numeral of an integer may have. -/
def maxDigits : Nat := 4300

/-- The integer that a free numeral stands for, unless it has too many digits. -/
def integer? (s : String) : Option Int :=
  let cs := trimBoth (· == ' ') (toAscii (s.toList.map fun c => if isSpace c then ' ' else c))
  if maxDigits < cs.countP Char.isDigit then none else signed? cs

/-- Whether a text is a word, letters compared without case. -/
def isWord (word : String) (cs : List Char) : Bool :=
  cs.map Char.toLower == word.toList

/-- The exponent part of a decimal numeral: nothing, or `e` with a signed whole number. -/
def exponent? : List Char → Option Int
  | [] => some 0
  | c :: cs =>
    if c == 'e' || c == 'E' then
      let (negative, ds) := takeSign cs
      if !ds.isEmpty && ds.all Char.isDigit then
        some (if negative then -(valueOf ds : Int) else valueOf ds)
      else none
    else none

/-- A decimal numeral without underscores: digits with an optional point and exponent, or a word
for infinity or for not-a-number. -/
def plainDecimal? (cs : List Char) : Option Binary64 :=
  let (negative, body) := takeSign cs
  if isWord "inf" body || isWord "infinity" body then some (.infinity negative)
  else if isWord "nan" body then some .nan
  else
    let whole := body.takeWhile Char.isDigit
    let rest := body.dropWhile Char.isDigit
    let (fraction, rest) := match rest with
      | '.' :: r => (r.takeWhile Char.isDigit, r.dropWhile Char.isDigit)
      | r => ([], r)
    if whole.isEmpty && fraction.isEmpty then none
    else (exponent? rest).map fun e =>
      .ofDecimal negative (valueOf (whole ++ fraction)) (e - fraction.length)

/-- The number that a free decimal numeral stands for. -/
def decimal? (s : String) : Option Binary64 :=
  let cs := trimBoth (· == ' ') (toAscii (s.toList.map fun c => if isSpace c then ' ' else c))
  (dropUnderscores cs).bind plainDecimal?

/-- The integer that a field numeral stands for; zeros may follow a point. -/
def fieldInteger? (s : String) : Option Int :=
  let cs := trimBoth isSpace s.toList
  let whole := cs.takeWhile (· != '.')
  let zeros := cs.dropWhile (· != '.')
  if (zeros.drop 1).all (· == '0') then signed? whole else none

/-- The number that a field decimal numeral stands for. -/
def fieldDecimal? (s : String) : Option Binary64 :=
  match plainDecimal? (trimBoth isSpace s.toList) with
  | some x => some x
  | none =>
    if s.toList.contains '_' then (dropUnderscores s.toList).bind plainDecimal? else none

example : integer? " 1_0\n" = some 10 := by decide +kernel
example : integer? "1__0" = none := by decide +kernel
example : fieldInteger? "3_0.00" = some 30 := by decide +kernel
example : fieldInteger? "30.5" = none := by decide +kernel

end Runbook.Numeral
