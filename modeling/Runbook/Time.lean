import Runbook.Number.Binary64
import Runbook.Number.Layout
import Runbook.Text.Digit
import Runbook.Text.Split

/-!
# Points in time

A `Timestamp` is a date and a time of day to the microsecond, with the offset from universal time
when it is known. It is written in the extended ISO format: `2024-02-29T23:59:59.000001+00:00`,
the fraction only when it is not zero. `Timestamp.ofMicros` converts a count of microseconds since
1970 by the usual division of the Gregorian calendar into eras of 400 years.
-/

namespace Runbook

/-- A date and a time of day. -/
structure Timestamp where
  year : Nat
  month : Nat
  day : Nat
  hour : Nat := 0
  minute : Nat := 0
  second : Nat := 0
  micro : Nat := 0
  /-- Seconds east of universal time, when known. -/
  offset : Option Int := none
  deriving DecidableEq, Repr

namespace Timestamp

/-- The number of days in a month. -/
def daysIn (year month : Nat) : Nat :=
  if month = 2 then
    if year % 4 = 0 && (year % 100 ≠ 0 || year % 400 = 0) then 29 else 28
  else if month = 4 || month = 6 || month = 9 || month = 11 then 30
  else 31

/-- The date is one of the years 1 to 9999, the time of day exists, and the offset is less than a
day. -/
structure Valid (t : Timestamp) : Prop where
  year : 1 ≤ t.year ∧ t.year ≤ 9999
  month : 1 ≤ t.month ∧ t.month ≤ 12
  day : 1 ≤ t.day ∧ t.day ≤ daysIn t.year t.month
  hour : t.hour < 24
  minute : t.minute < 60
  second : t.second < 60
  micro : t.micro < 1000000
  offset : ∀ s ∈ t.offset, s.natAbs < 86400

instance (t : Timestamp) : Decidable t.Valid :=
  decidable_of_iff
    ((1 ≤ t.year ∧ t.year ≤ 9999) ∧ (1 ≤ t.month ∧ t.month ≤ 12)
      ∧ (1 ≤ t.day ∧ t.day ≤ daysIn t.year t.month) ∧ t.hour < 24 ∧ t.minute < 60 ∧ t.second < 60
      ∧ t.micro < 1000000 ∧ ∀ s ∈ t.offset, s.natAbs < 86400)
    ⟨fun ⟨hy, hmo, hd, hh, hmi, hs, hu, ho⟩ => ⟨hy, hmo, hd, hh, hmi, hs, hu, ho⟩,
      fun h => ⟨h.year, h.month, h.day, h.hour, h.minute, h.second, h.micro, h.offset⟩⟩

/-- Days in an era of the calendar. -/
def eraDays : Nat := 146097

/-- Days from the first of March of the year zero to the first of January 1970. -/
def daysBefore1970 : Nat := 719468

/-- Year, month and day of a day counted from the first of January 1970. The count runs over years
that begin in March, so that the day of a leap year comes last. -/
def civil (days : Nat) : Nat × Nat × Nat :=
  let z := days + daysBefore1970
  let doe := z % eraDays
  let yoe := (doe - doe / 1460 + doe / 36524 - doe / 146096) / 365
  let doy := doe - (365 * yoe + yoe / 4 - yoe / 100)
  let mp := (5 * doy + 2) / 153
  let day := doy - (153 * mp + 2) / 5 + 1
  let month := if mp < 10 then mp + 3 else mp - 9
  let year := yoe + z / eraDays * 400
  (if month ≤ 2 then year + 1 else year, month, day)

/-- The point in universal time that lies so many microseconds after the beginning of 1970. -/
def ofMicros (micros : Nat) : Timestamp :=
  let seconds := micros / 1000000
  let (year, month, day) := civil (seconds / 86400)
  { year, month, day
    hour := seconds / 3600 % 24
    minute := seconds / 60 % 60
    second := seconds % 60
    micro := micros % 1000000
    offset := some 0 }

/-- An offset from universal time. -/
def offsetText (seconds : Int) : String :=
  let n := seconds.natAbs
  (if seconds < 0 then "-" else "+") ++ Layout.padded 2 (n / 3600) ++ ":"
    ++ Layout.padded 2 (n / 60 % 60)
    ++ (if n % 60 = 0 then "" else ":" ++ Layout.padded 2 (n % 60))

/-- The extended ISO text. -/
def toText (t : Timestamp) : String :=
  Layout.padded 4 t.year ++ "-" ++ Layout.padded 2 t.month ++ "-" ++ Layout.padded 2 t.day ++ "T"
    ++ Layout.padded 2 t.hour ++ ":" ++ Layout.padded 2 t.minute ++ ":" ++ Layout.padded 2 t.second
    ++ (if t.micro = 0 then "" else "." ++ Layout.padded 6 t.micro)
    ++ (match t.offset with
      | some s => offsetText s
      | none => "")

/-- The short form used in names of files. -/
def toStamp (t : Timestamp) : String :=
  Layout.padded 4 t.year ++ Layout.padded 2 t.month ++ Layout.padded 2 t.day ++ "-"
    ++ Layout.padded 2 t.hour ++ Layout.padded 2 t.minute ++ Layout.padded 2 t.second

/-- The number that ASCII digits write. -/
def digits? (cs : List Char) : Option Nat :=
  if cs.all Char.isDigit && !cs.isEmpty then
    some (cs.foldl (fun n c => 10 * n + (c.toNat - 48)) 0)
  else none

/-- Hours, perhaps minutes, and perhaps seconds between colons. -/
def clock? (cs : List Char) : Option (Nat × Nat × Nat) := do
  match ← (Text.splitAt ':' cs).mapM digits? with
  | [h] => some (h, 0, 0)
  | [h, m] => some (h, m, 0)
  | [h, m, s] => some (h, m, s)
  | _ => none

/-- Reads an offset: `Z` or a signed time of day. -/
def offset? (cs : List Char) : Option (Option Int) :=
  match cs with
  | [] => some none
  | ['Z'] => some (some 0)
  | sign :: rest => do
    let (h, m, s) ← clock? rest
    let n : Int := (h * 3600 + m * 60 + s : Nat)
    if sign = '+' then some (some n) else if sign = '-' then some (some (-n)) else none

/-- The characters of a time of day. -/
def isClock (c : Char) : Bool := c.isDigit || c == ':'

/-- The microseconds of a fraction of a second, none being zero, and what follows it. -/
def fraction? : List Char → Option (Nat × List Char)
  | '.' :: cs => do
    let micro ← digits? ((cs.takeWhile Char.isDigit ++ List.replicate 6 '0').take 6)
    some (micro, cs.dropWhile Char.isDigit)
  | cs => some (0, cs)

/-- The date, time of day and offset that a text in the extended ISO format names. -/
def parts? (cs : List Char) : Option Timestamp := do
  let [year, month, day] ← (Text.splitAt '-' (cs.take 10)).mapM digits? | none
  match cs.drop 10 with
  | [] => some { year, month, day }
  | _ :: time =>
    let (hour, minute, second) ← clock? (time.takeWhile isClock)
    let (micro, rest) ← fraction? (time.dropWhile isClock)
    let offset ← offset? rest
    some { year, month, day, hour, minute, second, micro, offset }

/-- Reads the extended ISO text of a point in time that exists. -/
def read? (text : String) : Option Timestamp := (parts? text.toList).filter fun t => decide t.Valid

example : (ofMicros 1709251199000001).toText = "2024-02-29T23:59:59.000001+00:00" := by decide

end Timestamp

end Runbook
