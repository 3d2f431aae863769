import Runbook.Json.Basic
import Runbook.Number.Layout
import Runbook.Text.Hex

/-!
# Documents as JSON text

Writing a document as JSON. Only ASCII is written: any other character becomes one escape of its
UTF-16 code unit, or two when it lies beyond the first plane. `spaced` leaves a blank after each
comma and colon, `compact` leaves none.
-/

namespace Runbook.Json

open Runbook.Text

/-- What stands between items and between a key and its value. -/
structure Style where
  comma : String
  colon : String

/-- A blank after each comma and colon. -/
def Style.spaced : Style := ⟨", ", ": "⟩

/-- No blanks. -/
def Style.compact : Style := ⟨",", ":"⟩

/-- A UTF-16 code unit as an escape. -/
def escapeUnit (n : Nat) : List Char := '\\' :: 'u' :: hexChars 4 n

/-- One character inside a JSON string. -/
def escapeChar (c : Char) : List Char :=
  if c == '"' then ['\\', '"']
  else if c == '\\' then ['\\', '\\']
  else if c == '\n' then ['\\', 'n']
  else if c == '\r' then ['\\', 'r']
  else if c == '\t' then ['\\', 't']
  else if c.toNat == 8 then ['\\', 'b']
  else if c.toNat == 12 then ['\\', 'f']
  else if 0x20 ≤ c.toNat && c.toNat < 0x7f then [c]
  else if c.toNat < 0x10000 then escapeUnit c.toNat
  else
    let n := c.toNat - 0x10000
    escapeUnit (0xd800 + n / 0x400) ++ escapeUnit (0xdc00 + n % 0x400)

/-- A JSON string, appended to what is written already. -/
def writeString (out s : String) : String :=
  (s.toList.foldl (fun acc c => (escapeChar c).foldl String.push acc) (out.push '"')).push '"'

/-- The text of a number; the values that are no numbers have words of their own. -/
def numberText : Binary64 → String
  | .nan => "NaN"
  | .infinity negative => if negative then "-Infinity" else "Infinity"
  | x => x.toText

mutual

/-- Appends a document to what is written already. -/
def writeTo (style : Style) (out : String) : Json → String
  | .null => out ++ "null"
  | .bool b => out ++ (if b then "true" else "false")
  | .int i => out ++ toString i
  | .float x => out ++ numberText x
  | .text s => writeString out s
  | .list items => (writeItems style (out ++ "[") items).push ']'
  | .object fields => (writeFields style (out ++ "\x7b") fields).push '\x7d'
  | .foreign _ _ alone => writeString out alone

def writeItems (style : Style) (out : String) : List Json → String
  | [] => out
  | [x] => writeTo style out x
  | x :: rest => writeItems style (writeTo style out x ++ style.comma) rest

def writeFields (style : Style) (out : String) : List (String × Json) → String
  | [] => out
  | [(k, x)] => writeTo style (writeString out k ++ style.colon) x
  | (k, x) :: rest =>
    writeFields style (writeTo style (writeString out k ++ style.colon) x ++ style.comma) rest

end

/-- A document as JSON text. -/
def write (style : Style) (x : Json) : String := writeTo style "" x

mutual

/-- The type of the first value in a document that has no JSON text of its own. -/
def foreignType? : Json → Option String
  | .foreign type _ _ => some type
  | .list items => foreignInList? items
  | .object fields => foreignInFields? fields
  | _ => none

def foreignInList? : List Json → Option String
  | [] => none
  | x :: rest => (foreignType? x).orElse fun _ => foreignInList? rest

def foreignInFields? : List (String × Json) → Option String
  | [] => none
  | (_, x) :: rest => (foreignType? x).orElse fun _ => foreignInFields? rest

end

end Runbook.Json
