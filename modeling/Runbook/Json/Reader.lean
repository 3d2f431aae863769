import Runbook.Json.Basic
import Runbook.Number.Numeral
import Runbook.Text.Hex

/-!
# Reading JSON text

A strict reader with two extensions: the words `NaN`, `Infinity` and `-Infinity` are numbers. A
numeral is an integer unless it has a point or an exponent. A key that occurs twice in an object
takes its last value. Every refusal names one cause and the place at which it was found.

The reader works on the characters that are left. A reading step gives its result with the
characters after it. A place is remembered as the number of characters left there, and turned into a
line and a column once, at the top.
-/

namespace Runbook.Json

open Runbook.Text

/-- Why a text is not JSON. -/
inductive Refusal where
  | expectingValue
  | expectingName
  | expectingColon
  | expectingComma
  | extraData
  | unterminatedString
  | invalidControl
  | invalidEscape
  | invalidCodeEscape
  | byteOrderMark
  deriving DecidableEq, Repr

/-- The wording of a refusal. -/
def Refusal.wording : Refusal → String
  | .expectingValue => "Expecting value"
  | .expectingName => "Expecting property name enclosed in double quotes"
  | .expectingColon => "Expecting ':' delimiter"
  | .expectingComma => "Expecting ',' delimiter"
  | .extraData => "Extra data"
  | .unterminatedString => "Unterminated string starting at"
  | .invalidControl => "Invalid control character at"
  | .invalidEscape => "Invalid \\escape"
  | .invalidCodeEscape => "Invalid \\uXXXX escape"
  | .byteOrderMark => "Unexpected UTF-8 BOM (decode using utf-8-sig)"

/-- A refusal and the number of characters left at its place. -/
structure Stop where
  refusal : Refusal
  left : Nat
  deriving DecidableEq, Repr

/-- Stops at the place where `cs` is left. -/
def stopAt {α : Type} (refusal : Refusal) (cs : List Char) : Except Stop α :=
  .error ⟨refusal, cs.length⟩

/-- The four blanks of JSON. -/
def isBlank (c : Char) : Bool := c == ' ' || c == '\t' || c == '\n' || c == '\r'

/-- Drops blanks. -/
def skip (cs : List Char) : List Char := cs.dropWhile isBlank

/-- Whether a code unit is the first half of a pair. -/
def isHighUnit (n : Nat) : Bool := 0xd800 ≤ n && n ≤ 0xdbff

/-- Whether a code unit is the second half of a pair. -/
def isLowUnit (n : Nat) : Bool := 0xdc00 ≤ n && n ≤ 0xdfff

/-- The character of a code unit; half of a pair on its own gives the replacement character. -/
def charOfUnit (n : Nat) : Char :=
  if isHighUnit n || isLowUnit n then Char.ofNat 0xfffd else Char.ofNat n

/-- The character of a pair of code units. -/
def charOfPair (high low : Nat) : Char :=
  Char.ofNat (0x10000 + (high - 0xd800) * 0x400 + (low - 0xdc00))

/-- Four hexadecimal digits after `\u`, with at least one character after them. `cs` is what
follows the `u`, and `place` what is left from the `u` on. -/
def codeUnit (place cs : List Char) : Except Stop (Nat × List Char) :=
  if cs.length < 5 then stopAt .invalidCodeEscape place
  else
    match hexNumber? (cs.take 4) with
    | some n => .ok (n, cs.drop 4)
    | none => stopAt .invalidCodeEscape place

/-- The second half of a pair, when a complete escape for one follows. -/
def lowUnit (cs : List Char) : Except Stop (Option (Nat × List Char)) :=
  match cs with
  | '\\' :: 'u' :: rest =>
    if cs.length < 7 then .ok none
    else
      match hexNumber? (rest.take 4) with
      | none => stopAt .invalidCodeEscape ('u' :: rest)
      | some n => .ok (if isLowUnit n then some (n, rest.drop 4) else none)
  | _ => .ok none

/-- One escape; `cs` is what follows the backslash, and `start` the characters left at the
opening quote. -/
def escape (start : Nat) (cs : List Char) : Except Stop (Char × List Char) :=
  match cs with
  | [] => .error ⟨.unterminatedString, start⟩
  | 'u' :: rest => do
    let (unit, rest) ← codeUnit cs rest
    if isHighUnit unit then
      match ← lowUnit rest with
      | some (low, rest) => .ok (charOfPair unit low, rest)
      | none => .ok (charOfUnit unit, rest)
    else .ok (charOfUnit unit, rest)
  | c :: rest =>
    let letter : Option Char :=
      if c == '"' || c == '\\' || c == '/' then some c
      else if c == 'b' then some (Char.ofNat 8)
      else if c == 'f' then some (Char.ofNat 12)
      else if c == 'n' then some '\n'
      else if c == 'r' then some '\r'
      else if c == 't' then some '\t'
      else none
    match letter with
    | some x => .ok (x, rest)
    | none => stopAt .invalidEscape ('\\' :: cs)

/-- The characters of a string up to its closing quote. `start` is what was left at the opening
quote; `done` holds the characters read so far, last first. Every step takes a character, so
`fuel` is never short when it starts as the number of characters left. -/
def stringBody (start : Nat) : Nat → List Char → List Char → Except Stop (String × List Char)
  | 0, _, _ => .error ⟨.unterminatedString, start⟩
  | fuel + 1, done, cs =>
    match cs with
    | [] => .error ⟨.unterminatedString, start⟩
    | '"' :: rest => .ok (String.ofList done.reverse, rest)
    | '\\' :: rest =>
      match escape start rest with
      | .ok (c, rest) => stringBody start fuel (c :: done) rest
      | .error stop => .error stop
    | c :: rest =>
      if c.toNat < 0x20 then stopAt .invalidControl cs
      else stringBody start fuel (c :: done) rest

/-- A string, from the character after its opening quote. -/
def string (rest : List Char) : Except Stop (String × List Char) :=
  stringBody (rest.length + 1) (rest.length + 1) [] rest

/-- The exponent of a numeral, if a complete one follows. -/
def exponentPart (cs : List Char) : Option (Int × List Char) :=
  match cs with
  | c :: rest =>
    if c == 'e' || c == 'E' then
      let (negative, body) := Numeral.takeSign rest
      let ds := body.takeWhile Char.isDigit
      if ds.isEmpty then none
      else
        let n : Int := Numeral.valueOf ds
        some (if negative then -n else n, body.dropWhile Char.isDigit)
    else none
  | [] => none

/-- Splits off a minus sign. -/
def takeMinus : List Char → Bool × List Char
  | '-' :: cs => (true, cs)
  | cs => (false, cs)

/-- The digits of an integer part, which has no leading zero. -/
def wholeDigits : List Char → List Char
  | '0' :: _ => ['0']
  | cs => cs.takeWhile Char.isDigit

/-- The digits after a point, if one follows. -/
def fractionDigits : List Char → List Char
  | '.' :: cs => cs.takeWhile Char.isDigit
  | _ => []

/-- A numeral: an integer part without a leading zero, then an optional fraction and exponent. -/
def number? (cs : List Char) : Option (Json × List Char) :=
  let (negative, body) := takeMinus cs
  let whole := wholeDigits body
  if whole.isEmpty then none
  else
    let rest := body.drop whole.length
    let fraction := fractionDigits rest
    let afterFraction := if fraction.isEmpty then rest else rest.drop (fraction.length + 1)
    let n := Numeral.valueOf (whole ++ fraction)
    match exponentPart afterFraction with
    | some (e, rest) => some (.float (.ofDecimal negative n (e - fraction.length)), rest)
    | none =>
      if fraction.isEmpty then some (.int (if negative then -(n : Int) else n), rest)
      else some (.float (.ofDecimal negative n (-fraction.length)), afterFraction)

/-- Takes a word off the front. -/
def word? (w : String) (cs : List Char) : Option (List Char) :=
  if w.toList.isPrefixOf cs then some (cs.drop w.length) else none

/-- The words that are values. -/
def words : List (String × Json) :=
  [("null", .null), ("true", .bool true), ("false", .bool false), ("NaN", .float .nan),
   ("Infinity", .float (.infinity false)), ("-Infinity", .float (.infinity true))]

/-- A value that is a word or a numeral. -/
def atom (cs : List Char) : Except Stop (Json × List Char) :=
  match words.findSome? fun w => (word? w.1 cs).map fun rest => (w.2, rest) with
  | some r => .ok r
  | none =>
    match number? cs with
    | some r => .ok r
    | none => stopAt .expectingValue cs

/-- A key with its colon, up to the value. -/
def name (cs : List Char) : Except Stop (String × List Char) :=
  match cs with
  | '"' :: rest => do
    let (key, rest) ← string rest
    match skip rest with
    | ':' :: rest => .ok (key, skip rest)
    | rest => stopAt .expectingColon rest
  | _ => stopAt .expectingName cs

mutual

/-- A value. Every step takes a character, so `fuel` is never short when it starts as twice the
number of characters left. -/
def value : Nat → List Char → Except Stop (Json × List Char)
  | 0, cs => stopAt .expectingValue cs
  | fuel + 1, cs =>
    match cs with
    | '"' :: rest => do
      let (s, rest) ← string rest
      .ok (.text s, rest)
    | '[' :: rest =>
      match skip rest with
      | ']' :: rest => .ok (.list [], rest)
      | rest => items fuel [] rest
    | '\x7b' :: rest =>
      match skip rest with
      | '\x7d' :: rest => .ok (.object [], rest)
      | rest => members fuel [] rest
    | _ => atom cs

/-- The items of a list, from one of them on; `done` holds the items before, last first. -/
def items : Nat → List Json → List Char → Except Stop (Json × List Char)
  | 0, _, cs => stopAt .expectingValue cs
  | fuel + 1, done, cs =>
    match value fuel cs with
    | .error stop => .error stop
    | .ok (x, rest) =>
      match skip rest with
      | ']' :: rest => .ok (.list (x :: done).reverse, rest)
      | ',' :: rest => items fuel (x :: done) (skip rest)
      | rest => stopAt .expectingComma rest

/-- The members of an object, from one of them on; `done` holds the members before, last first. -/
def members : Nat → List (String × Json) → List Char → Except Stop (Json × List Char)
  | 0, _, cs => stopAt .expectingName cs
  | fuel + 1, done, cs =>
    match name cs with
    | .error stop => .error stop
    | .ok (key, rest) =>
      match value fuel rest with
      | .error stop => .error stop
      | .ok (x, rest) =>
        match skip rest with
        | '\x7d' :: rest => .ok (.object (Fields.ofPairs ((key, x) :: done).reverse), rest)
        | ',' :: rest => members fuel ((key, x) :: done) (skip rest)
        | rest => stopAt .expectingComma rest

end

/-- One document with nothing but blanks around it. -/
def document (cs : List Char) : Except Stop Json := do
  if cs.head? == some (Char.ofNat 0xfeff) then stopAt .byteOrderMark cs
  else
    let (x, rest) ← value (2 * cs.length + 2) (skip cs)
    match skip rest with
    | [] => .ok x
    | rest => stopAt .extraData rest

/-- A refusal with its place in the text. -/
structure ReadError where
  refusal : Refusal
  position : Nat
  line : Nat
  column : Nat
  deriving DecidableEq, Repr

/-- The place in a text at which so many characters are left. -/
def Stop.locate (stop : Stop) (cs : List Char) : ReadError :=
  let position := cs.length - stop.left
  let before := cs.take position
  { refusal := stop.refusal
    position
    line := before.count '\n' + 1
    column := (before.reverse.takeWhile (· != '\n')).length + 1 }

/-- The message of a refusal. -/
def ReadError.message (e : ReadError) : String :=
  s!"{e.refusal.wording}: line {e.line} column {e.column} (char {e.position})"

/-- Reads a text as one document. -/
def read (s : String) : Except ReadError Json :=
  match document s.toList with
  | .ok x => .ok x
  | .error stop => .error (stop.locate s.toList)

example : (read "[1,\n 2,\n oops]").toOption.isNone := by decide +kernel

end Runbook.Json
