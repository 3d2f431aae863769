/-!
# UTF-8

A character as one to four bytes. `decodeUtf8?` reads text that is UTF-8 throughout; `decodeUtf8`
puts the replacement character in the place of each byte that begins no character.
-/

namespace Runbook.Text

/-- The bytes of a character. -/
def utf8Char (c : Char) : List UInt8 :=
  let n := c.toNat
  if n < 0x80 then [UInt8.ofNat n]
  else if n < 0x800 then [UInt8.ofNat (0xc0 + n / 0x40), UInt8.ofNat (0x80 + n % 0x40)]
  else if n < 0x10000 then [
    UInt8.ofNat (0xe0 + n / 0x1000), UInt8.ofNat (0x80 + n / 0x40 % 0x40),
    UInt8.ofNat (0x80 + n % 0x40)]
  else [
    UInt8.ofNat (0xf0 + n / 0x40000), UInt8.ofNat (0x80 + n / 0x1000 % 0x40),
    UInt8.ofNat (0x80 + n / 0x40 % 0x40), UInt8.ofNat (0x80 + n % 0x40)]

/-- The bytes of a text. -/
def utf8 (s : String) : List UInt8 := s.toList.flatMap utf8Char

/-- The six bits of a byte that continues a character. -/
def continuation? (b : UInt8) : Option Nat :=
  if 0x80 ≤ b.toNat && b.toNat < 0xc0 then some (b.toNat - 0x80) else none

/-- The character of a code point at least `least`, if there is one. -/
def scalar? (least n : Nat) : Option Char :=
  if h : n.isValidChar then if least ≤ n then some (Char.ofNatAux n h) else none else none

/-- The character that a list of bytes begins with, and how many bytes follow its first one. -/
def charAt? : List UInt8 → Option (Char × Nat)
  | [] => none
  | a :: rest => do
    let n := a.toNat
    if n < 0x80 then some (Char.ofNat n, 0)
    else if n < 0xc0 then none
    else if n < 0xe0 then
      let x ← (rest[0]?).bind continuation?
      let c ← scalar? 0x80 ((n - 0xc0) * 0x40 + x)
      some (c, 1)
    else if n < 0xf0 then
      let x ← (rest[0]?).bind continuation?
      let y ← (rest[1]?).bind continuation?
      let c ← scalar? 0x800 (((n - 0xe0) * 0x40 + x) * 0x40 + y)
      some (c, 2)
    else
      let x ← (rest[0]?).bind continuation?
      let y ← (rest[1]?).bind continuation?
      let z ← (rest[2]?).bind continuation?
      let c ← scalar? 0x10000 ((((n - 0xf0) * 0x40 + x) * 0x40 + y) * 0x40 + z)
      some (c, 3)

/-- Reads bytes; `skip` more of them belong to the last character. -/
def decodeFrom (skip : Nat) : List UInt8 → List (Option Char)
  | [] => []
  | b :: rest =>
    match skip with
    | skip + 1 => decodeFrom skip rest
    | 0 =>
      match charAt? (b :: rest) with
      | some (c, more) => some c :: decodeFrom more rest
      | none => none :: decodeFrom 0 rest

/-- Reads bytes that are UTF-8 throughout. -/
def decodeUtf8? (bytes : List UInt8) : Option (List Char) := (decodeFrom 0 bytes).mapM id

/-- Reads bytes, with replacement characters where they are not UTF-8. -/
def decodeUtf8 (bytes : List UInt8) : List Char :=
  (decodeFrom 0 bytes).map fun c => c.getD (Char.ofNat 0xfffd)

example : decodeUtf8? (utf8 "aé€😀") = some ['a', 'é', '€', '😀'] := by decide +kernel

end Runbook.Text
