import Runbook.Error
import Runbook.Number.Numeral
import Runbook.Text.Hex
import Runbook.Text.Lowercase
import Runbook.Text.Quoted
import Runbook.Time

/-!
# Values of plain scalars

A YAML scalar that stands without quotes may be more than a text. `Tag.ofPlain` tells from its form
what it is, by the rules of YAML 1.1: `yes`, `off` and their like are truth values, `0x1F`, `010`
and `1:30` are integers, `1.0e+3` and `.5` are numbers, `2024-01-31` is a date. `Tag.construct`
gives the value. A form may promise a value that does not exist, such as the thirteenth month, and
a tag that is stated may not fit at all.
-/

namespace Runbook.Yaml

/-- Why a text is refused. -/
inductive Refusal where
  /-- It is not YAML, or has no value. -/
  | malformed
  /-- A scalar is said to have a value, by its form or by its tag, that does not exist. -/
  | valueless (f : Fault)
  deriving DecidableEq, Repr

/-- What a node is. -/
inductive Tag where
  | null
  | bool
  | int
  | float
  | timestamp
  | text
  /-- The key `<<`, under which the entries of other mappings are taken over. -/
  | merge
  /-- The scalar `=`. -/
  | default
  | sequence
  | mapping
  | unknown
  deriving DecidableEq, Repr

namespace Scalar

/-! ### Forms -/

def trueWords : List String := [
  "yes", "Yes", "YES", "true", "True", "TRUE", "on", "On", "ON"]

def falseWords : List String := [
  "no", "No", "NO", "false", "False", "FALSE", "off", "Off", "OFF"]

def nullWords : List String := ["~", "null", "Null", "NULL", ""]

def isDigitOrLine (c : Char) : Bool := c.isDigit || c == '_'

/-- A list of characters of a class, with at least one. -/
def some1 (p : Char → Bool) (cs : List Char) : Bool := !cs.isEmpty && cs.all p

/-- A list of characters without its sign. -/
def unsigned (cs : List Char) : List Char := (Numeral.takeSign cs).2

/-- Further places in base sixty: a digit or two, the first of two below six. -/
def isSixtieth : List Char → Bool
  | [a] => a.isDigit
  | [a, b] => '0' ≤ a && a ≤ '5' && b.isDigit
  | _ => false

/-- A first place and at least one further place in base sixty. -/
def isSexagesimal (startsWith : Char → Bool) (cs : List Char) : Bool :=
  match Text.splitAt ':' cs with
  | (c :: first) :: rest =>
    startsWith c && first.all isDigitOrLine && !rest.isEmpty && rest.all isSixtieth
  | _ => false

def isOneToNine (c : Char) : Bool := '1' ≤ c && c ≤ '9'

/-- The forms of an integer. -/
def isInt (cs : List Char) : Bool :=
  let body := unsigned cs
  match body with
  | '0' :: 'b' :: ds => some1 (fun c => c == '0' || c == '1' || c == '_') ds
  | '0' :: 'x' :: ds => some1 (fun c => (Text.hexValue? c).isSome || c == '_') ds
  | ['0'] => true
  | '0' :: ds => ds.all fun c => ('0' ≤ c && c ≤ '7') || c == '_'
  | c :: ds => (isOneToNine c && ds.all isDigitOrLine) || isSexagesimal isOneToNine body
  | [] => false

/-- An exponent: nothing, or `e`, a sign and digits. -/
def isExponent : List Char → Bool
  | [] => true
  | e :: sign :: ds =>
    (e == 'e' || e == 'E') && (sign == '+' || sign == '-') && some1 Char.isDigit ds
  | _ => false

/-- What may follow the point: digits and an exponent. -/
def isFraction (cs : List Char) : Bool := isExponent (cs.dropWhile isDigitOrLine)

/-- The forms of a number with a point. -/
def isFloat (cs : List Char) : Bool :=
  let body := unsigned cs
  let whole := body.takeWhile (· != '.')
  match whole, body.drop whole.length with
  | [], '.' :: rest =>
    ["inf", "Inf", "INF"].contains (String.ofList rest)
      || (body.length = cs.length
        && (["nan", "NaN", "NAN"].contains (String.ofList rest)
          || (rest.head?.any Char.isDigit && isFraction rest)))
  | c :: _, '.' :: rest =>
    c.isDigit && ((whole.all isDigitOrLine && isFraction rest)
      || (isSexagesimal Char.isDigit whole && rest.all isDigitOrLine))
  | _, _ => false

/-! ### Dates -/

/-- One or two digits. -/
def isShort (cs : List Char) : Bool := some1 Char.isDigit cs && cs.length ≤ 2

/-- Two digits. -/
def isPair (cs : List Char) : Bool := cs.all Char.isDigit && cs.length = 2

/-- The parts of a date. -/
def dateParts? (exact : Bool) (cs : List Char) : Option (Nat × Nat × Nat) :=
  match Text.splitAt '-' cs with
  | [year, month, day] =>
    let fits := if exact then isPair else isShort
    if year.all Char.isDigit && year.length = 4 && fits month && fits day then
      some (Numeral.valueOf year, Numeral.valueOf month, Numeral.valueOf day)
    else none
  | _ => none

/-- Whether a character may part a date from a time of day. -/
def isGap (c : Char) : Bool := c == ' ' || c == '\t'

/-- An offset from universal time, in seconds; blanks may precede it. -/
def offset? (cs : List Char) : Option (Option Int) :=
  match cs.dropWhile isGap with
  | [] => if cs.isEmpty then some none else none
  | ['Z'] => some (some 0)
  | sign :: rest =>
    let seconds : Option Nat := match Text.splitAt ':' rest with
      | [h] => if isShort h then some (Numeral.valueOf h * 3600) else none
      | [h, m] =>
        if isShort h && isPair m then some (Numeral.valueOf h * 3600 + Numeral.valueOf m * 60)
        else none
      | _ => none
    if sign == '+' then seconds.map fun n => some (n : Int)
    else if sign == '-' then seconds.map fun n => some (-(n : Int))
    else none

/-- The number of microseconds that a fraction of a second writes. -/
def microsOf (fraction : List Char) : Nat :=
  Numeral.valueOf ((fraction ++ List.replicate 6 '0').take 6)

/-- A date with a time of day. -/
def dateTime? (cs : List Char) : Option Timestamp := do
  let date := cs.takeWhile fun c => c.isDigit || c == '-'
  let (year, month, day) ← dateParts? false date
  let rest := cs.drop date.length
  let time ← match rest with
    | c :: time =>
      if c == 'T' || c == 't' then some time
      else if isGap c then some (time.dropWhile isGap)
      else none
    | [] => none
  let clock := time.takeWhile fun c => c.isDigit || c == ':'
  let rest := time.drop clock.length
  match Text.splitAt ':' clock with
  | [h, m, s] =>
    if isShort h && isPair m && isPair s then
      let (fraction, rest) := match rest with
        | '.' :: r => (r.takeWhile Char.isDigit, r.dropWhile Char.isDigit)
        | r => ([], r)
      let offset ← offset? rest
      some {
        year, month, day
        hour := Numeral.valueOf h
        minute := Numeral.valueOf m
        second := Numeral.valueOf s
        micro := microsOf fraction
        offset }
    else none
  | _ => none

/-- The forms of a date. -/
def isTimestamp (cs : List Char) : Bool :=
  (dateParts? true cs).isSome || (dateTime? cs).isSome

/-- The objection to a point in time that does not exist. -/
def objection? (t : Timestamp) : Option String :=
  if t.year = 0 then some "year 0 is out of range"
  else if t.month = 0 || 12 < t.month then some "month must be in 1..12"
  else if t.day = 0 || Timestamp.daysIn t.year t.month < t.day then
    some "day is out of range for month"
  else if 23 < t.hour then some "hour must be in 0..23"
  else if 59 < t.minute then some "minute must be in 0..59"
  else if 59 < t.second then some "second must be in 0..59"
  else none

/-- Numbers with commas between them. -/
def listed (ns : List Nat) : String := ", ".intercalate (ns.map toString)

/-- A date as a document. -/
def dateDocument (year month day : Nat) : Json :=
  .foreign "date" s!"datetime.date({listed [year, month, day]})"
    (String.ofList (({ year, month, day } : Timestamp).toText.toList.take 10))

/-- A span of time, as it is shown inside a document. -/
def shownSpan (seconds : Int) : String :=
  let days := seconds.fdiv 86400
  let rest := seconds.fmod 86400
  let parts := (if days = 0 then [] else [s!"days={days}"])
    ++ (if rest = 0 then [] else [s!"seconds={rest}"])
  "datetime.timedelta(" ++ ", ".intercalate parts ++ ")"

/-- The offset of a point in time, as it is shown inside a document. -/
def shownOffset : Option Int → String
  | none => ""
  | some 0 => ", tzinfo=datetime.timezone.utc"
  | some n => ", tzinfo=datetime.timezone(" ++ shownSpan n ++ ")"

/-- A point in time as a document. -/
def timeDocument (t : Timestamp) : Json :=
  let seconds := if t.micro ≠ 0 then [t.second, t.micro]
    else if t.second ≠ 0 then [t.second] else []
  let inside := "datetime.datetime(" ++
    listed ([t.year, t.month, t.day, t.hour, t.minute] ++ seconds) ++ shownOffset t.offset ++ ")"
  let text := t.toText.toList
  .foreign "datetime" inside (String.ofList (text.take 10 ++ ' ' :: text.drop 11))

/-- The objection to an offset of a day or more. -/
def offsetObjection? (t : Timestamp) : Option String :=
  match t.offset with
  | some n =>
    if n.natAbs < 86400 then none
    else some ("offset must be a timedelta strictly between -timedelta(hours=24) and "
      ++ "timedelta(hours=24), not " ++ shownSpan n ++ ".")
  | none => none

/-- The value of a date. -/
def timestamp (cs : List Char) : Except Refusal Json :=
  let checked := fun (t : Timestamp) (x : Json) =>
    match (offsetObjection? t).or (objection? t) with
    | some text => .error (.valueless ⟨.badValue, text⟩)
    | none => .ok x
  match dateParts? false cs with
  | some (year, month, day) => checked { year, month, day } (dateDocument year month day)
  | none =>
    match dateTime? cs with
    | some t => checked t (timeDocument t)
    | none =>
      .error (.valueless ⟨.badAttribute, "'NoneType' object has no attribute 'groupdict'"⟩)

/-! ### Truth values -/

/-- The truth value that a word stands for, letters compared without case. -/
def bool (s : String) : Except Refusal Json :=
  let word := Text.lower s
  if ["yes", "true", "on"].contains word then .ok (.bool true)
  else if ["no", "false", "off"].contains word then .ok (.bool false)
  else .error (.valueless ⟨.badKey, Text.quoted word⟩)

/-! ### Numbers -/

/-- A numeral must have a character at least. -/
def noCharacter : Refusal := .valueless ⟨.badIndex, "string index out of range"⟩

/-- The value of digits in a base. -/
def inBase (base : Nat) (cs : List Char) : Nat :=
  cs.foldl (fun n c => base * n + (Text.hexValue? c).getD 0) 0

/-- A numeral without the letter that tells its base. -/
def dropBase (base : Nat) : List Char → List Char
  | '0' :: c :: cs =>
    if (base == 16 && (c == 'x' || c == 'X')) || (base == 8 && (c == 'o' || c == 'O'))
      || (base == 2 && (c == 'b' || c == 'B')) then cs
    else '0' :: c :: cs
  | cs => cs

/-- The integer that a numeral in a base stands for: a free numeral that may name its base. -/
def integer (base : Nat) (cs : List Char) : Except Refusal Int :=
  let bare := Numeral.toAscii (cs.map fun c => if Text.isSpace c then ' ' else c)
  let (negative, body) := Numeral.takeSign (Text.trimBoth (· == ' ') bare)
  let ds := dropBase base body
  let digits := ds.takeWhile fun c => (Text.hexValue? c).any (· < base)
  if base = 10 && Numeral.maxDigits < digits.length then
    .error (.valueless ⟨.badValue, s!"Exceeds the limit ({Numeral.maxDigits} digits) for integer "
      ++ s!"string conversion: value has {digits.length} digits; use "
      ++ "sys.set_int_max_str_digits() to increase the limit"⟩)
  else if digits.isEmpty || digits.length ≠ ds.length then
    .error (.valueless ⟨.badValue, s!"invalid literal for int() with base {base}: "
      ++ String.ofList ((Text.quoted (String.ofList cs)).toList.take 200)⟩)
  else .ok (if negative then -(inBase base digits : Int) else inBase base digits)

/-- The value of an integer. -/
def int (cs : List Char) : Except Refusal Json := do
  let (negative, body) := Numeral.takeSign (cs.filter (· != '_'))
  let n ← match body with
    | [] => .error noCharacter
    | '0' :: 'b' :: ds => integer 2 ds
    | '0' :: 'x' :: ds => integer 16 ds
    | '0' :: _ => integer 8 body
    | _ => do
      let places ← (Text.splitAt ':' body).mapM (integer 10)
      pure (places.foldl (fun n place => 60 * n + place) 0)
  return .int (if negative then -n else n)

/-- The number that a numeral stands for. -/
def decimal (cs : List Char) : Except Refusal Binary64 :=
  match Numeral.decimal? (String.ofList cs) with
  | some x => .ok x
  | none => .error (.valueless ⟨.badValue, "could not convert string to float: "
      ++ Text.quoted (String.ofList cs)⟩)

/-- The number that places in base sixty stand for, the last place first, which has some weight,
when the places behind it have some sum. Each step is rounded. What is no finite number stays so. -/
def sexagesimal (weight : Nat) (sum : Binary64) : List Binary64 → Except Refusal Binary64
  | [] => .ok sum
  | place :: rest =>
    match (Binary64.ofInt? weight).bind Binary64.toRat? with
    | none => .error (.valueless ⟨.overflow, "int too large to convert to float"⟩)
    | some w => sexagesimal (60 * weight) (plus sum (times place w)) rest
where
  times (x : Binary64) (w : Rat) : Binary64 :=
    match x.toRat? with
    | some q => .ofRat (q * w)
    | none => x
  plus (x y : Binary64) : Binary64 :=
    match x.toRat?, y.toRat? with
    | some p, some q => .ofRat (p + q)
    | none, some _ => x
    | some _, none => y
    | none, none => if x = y then x else .nan

/-- A number with the opposite sign. -/
def opposite : Binary64 → Binary64
  | .nan => .nan
  | .infinity negative => .infinity !negative
  | .finite negative m e => .finite (!negative) m e

/-- The value of a number with a point. -/
def float (cs : List Char) : Except Refusal Json := do
  let bare := (Text.lower (String.ofList (cs.filter (· != '_')))).toList
  let (negative, body) := Numeral.takeSign bare
  let x ← if bare.isEmpty then .error noCharacter
    else if body == ".inf".toList then pure (.infinity false)
    else if body == ".nan".toList then pure .nan
    else if body.contains ':' then do
      let places ← (Text.splitAt ':' body).mapM decimal
      sexagesimal 1 (.zero false) places.reverse
    else decimal body
  return .float (if negative then opposite x else x)

end Scalar

namespace Tag

/-- What a scalar without quotes is. -/
def ofPlain (s : String) : Tag :=
  let cs := s.toList
  if Scalar.trueWords.contains s || Scalar.falseWords.contains s then .bool
  else if Scalar.isFloat cs then .float
  else if Scalar.isInt cs then .int
  else if s == "<<" then .merge
  else if Scalar.nullWords.contains s then .null
  else if Scalar.isTimestamp cs then .timestamp
  else if s == "=" then .default
  else .text

/-- The tags that a name may state. -/
def ofName : String → Tag
  | "tag:yaml.org,2002:null" => .null
  | "tag:yaml.org,2002:bool" => .bool
  | "tag:yaml.org,2002:int" => .int
  | "tag:yaml.org,2002:float" => .float
  | "tag:yaml.org,2002:timestamp" => .timestamp
  | "tag:yaml.org,2002:str" => .text
  | "tag:yaml.org,2002:merge" => .merge
  | "tag:yaml.org,2002:value" => .default
  | "tag:yaml.org,2002:seq" => .sequence
  | "tag:yaml.org,2002:map" => .mapping
  | _ => .unknown

/-- The value of a scalar. A stated tag may not fit it. -/
def construct (tag : Tag) (s : String) : Except Refusal Json :=
  match tag with
  | .null => .ok .null
  | .bool => Scalar.bool s
  | .int => Scalar.int s.toList
  | .float => Scalar.float s.toList
  | .timestamp => Scalar.timestamp s.toList
  | .text => .ok (.text s)
  | _ => .error .malformed

end Tag

end Runbook.Yaml
