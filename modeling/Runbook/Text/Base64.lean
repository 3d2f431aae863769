/-!
# Base64

Bytes as text of 64 characters, in groups of four for every three bytes, the last group filled up
with equals signs. `decode?` is strict: foreign characters, missing padding and anything after the
padding are refused, though spare bits may be set, and full groups may be followed by any number of
equals signs. `decodeLoose?` skips foreign characters and stops at the end of the padding.
-/

namespace Runbook.Base64

/-- The character for six bits. -/
def digit (n : Nat) : Char :=
  if n < 26 then Char.ofNat (65 + n)
  else if n < 52 then Char.ofNat (71 + n)
  else if n < 62 then Char.ofNat (n - 4)
  else if n = 62 then '+'
  else '/'

/-- The six bits of a character. -/
def sextet? (c : Char) : Option Nat :=
  if 'A' ≤ c && c ≤ 'Z' then some (c.toNat - 65)
  else if 'a' ≤ c && c ≤ 'z' then some (c.toNat - 71)
  else if '0' ≤ c && c ≤ '9' then some (c.toNat + 4)
  else if c = '+' then some 62
  else if c = '/' then some 63
  else none

/-- Bytes as text. -/
def encode : List UInt8 → List Char
  | [] => []
  | [a] => [digit (a.toNat / 4), digit (a.toNat % 4 * 16), '=', '=']
  | [a, b] => [
      digit (a.toNat / 4), digit (a.toNat % 4 * 16 + b.toNat / 16), digit (b.toNat % 16 * 4), '=']
  | a :: b :: c :: rest =>
    digit (a.toNat / 4) :: digit (a.toNat % 4 * 16 + b.toNat / 16)
      :: digit (b.toNat % 16 * 4 + c.toNat / 64) :: digit (c.toNat % 64) :: encode rest

/-- The bytes that sextets make up. In an incomplete group at the end, the bits that make up no
byte are dropped. -/
def pack : List Nat → List UInt8
  | a :: b :: c :: d :: rest =>
    UInt8.ofNat (a * 4 + b / 16) :: UInt8.ofNat (b % 16 * 16 + c / 4)
      :: UInt8.ofNat (c % 4 * 64 + d) :: pack rest
  | [a, b, c] => [UInt8.ofNat (a * 4 + b / 16), UInt8.ofNat (b % 16 * 16 + c / 4)]
  | [a, b] => [UInt8.ofNat (a * 4 + b / 16)]
  | _ => []

/-- Whether so many characters may be followed by so many equals signs. -/
def padded (characters signs : Nat) : Bool :=
  match characters % 4 with
  | 0 => signs = 0 || characters ≠ 0
  | 2 => signs = 2
  | 3 => signs = 1
  | _ => false

/-- Strict decoding. -/
def decode? (cs : List Char) : Option (List UInt8) :=
  let front := cs.takeWhile fun c => (sextet? c).isSome
  let tail := cs.drop front.length
  if tail.all (· = '=') && padded front.length tail.length then
    some (pack (front.filterMap sextet?))
  else none

/-- The sextets of a text, foreign characters skipped, up to the equals sign that completes a
group. `pending` characters of the current group have been seen, and then `signs` equals signs.
None when the last group stays incomplete. -/
def looseSextets? (pending signs : Nat) : List Char → Option (List Nat)
  | [] => if pending = 0 then some [] else none
  | c :: rest =>
    if c = '=' then
      if 2 ≤ pending && 4 ≤ pending + signs + 1 then some []
      else looseSextets? pending (if 2 ≤ pending then signs + 1 else signs) rest
    else
      match sextet? c with
      | some n => (looseSextets? ((pending + 1) % 4) 0 rest).map (n :: ·)
      | none => looseSextets? pending signs rest

/-- Loose decoding. -/
def decodeLoose? (cs : List Char) : Option (List UInt8) :=
  (looseSextets? 0 0 cs).map pack

example : encode [65, 66, 67, 68] = ['Q', 'U', 'J', 'D', 'R', 'A', '=', '='] := by decide

end Runbook.Base64
