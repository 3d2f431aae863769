import Runbook.Error
import Runbook.Json.Writer
import Runbook.Log
import Runbook.Text.Quoted

/-!
# Generated values

Values that a template makes up: sample data such as names and addresses, random numbers of a given
length, and the time. Sample data comes from a `SampleData` source, randomness from a list of
drawn integers; an exhausted list gives zeros.
-/

namespace Runbook

/-- A source of sample data. -/
structure SampleData where
  name : String
  firstName : String
  lastName : String
  email : String
  phone : String
  address : String
  company : String
  username : String
  password : Nat → String
  uuid : String
  number : Int → Int → Int
  date : String

/-- What a template draws on while it is resolved: integers yet to be drawn, and the log. -/
structure Drawing where
  ints : List Int := []
  log : List LogRecord := []

namespace Template

/-- Why a template cannot be resolved. -/
inductive ResolveFault where
  /-- A variable is reached through too many others. -/
  | tooDeep (key : String)
  /-- A count is written with characters that have no place value, or with too many digits. -/
  | badCount (digits : String)
  deriving DecidableEq, Repr

/-- How often a variable may be reached through another one. -/
def maxDepth : Nat := 10

/-- Why a text that looks like digits is no count. Long texts are cut. -/
def countObjection (digits : String) : String :=
  let places := digits.toList.takeWhile fun c => (Text.digitValue? c).isSome
  if Numeral.maxDigits < places.length then
    s!"Exceeds the limit ({Numeral.maxDigits} digits) for integer string conversion: value has "
      ++ s!"{places.length} digits; use sys.set_int_max_str_digits() to increase the limit"
  else
    "invalid literal for int() with base 10: "
      ++ String.ofList ((Text.quoted digits).toList.take 200)

/-- A resolve fault as a failure. -/
def ResolveFault.toFailure : ResolveFault → Failure
  | .tooDeep key =>
    .error (.config (s!"variable '{key}' exceeds maximum resolution depth ({maxDepth}); "
      ++ "check for a reference cycle") none)
  | .badCount digits => .fault ⟨.badValue, countObjection digits⟩

/-- A resolution: it draws integers and logs, and may be refused. What it drew and logged before
a refusal stays. -/
abbrev ResolveM := ExceptT ResolveFault (StateM Drawing)

/-- Appends a warning to the log. -/
def warn (event : String) (fields : Fields) : ResolveM Unit :=
  modify fun d => { d with log := d.log ++ [.warning event fields] }

/-- Draws an integer between two bounds, both included. -/
def drawBetween (low high : Int) : ResolveM Int := do
  let d ← get
  match d.ints with
  | [] => return low
  | k :: rest =>
    set { d with ints := rest }
    return low + k.emod (high - low + 1)

/-- The text as a token around it. -/
def braced (s : String) : String := "\x7b\x7b" ++ s ++ "\x7d\x7d"

/-- The sample value of a kind. -/
def sample? (data : SampleData) : String → Option String
  | "name" => some data.name
  | "firstName" => some data.firstName
  | "lastName" => some data.lastName
  | "email" => some data.email
  | "phone" => some data.phone
  | "address" =>
    some (String.ofList (data.address.toList.flatMap fun c => if c = '\n' then [',', ' '] else [c]))
  | "company" => some data.company
  | "username" => some data.username
  | "password" => some (data.password 12)
  | "uuid" => some data.uuid
  | "number" => some (toString (data.number 1 1000))
  | "date" => some data.date
  | _ => none

/-- A sample value; an unknown kind is left as a token. -/
def fake (data : SampleData) (kind : String) : ResolveM String :=
  match sample? data kind with
  | some s => return s
  | none => do
    warn "unknown_faker_method" [("method", .text kind)]
    return braced ("faker." ++ kind)

/-- The number whose decimal notation is a digit written so many times. -/
def repeatedDigit (digit : Nat) (count : Nat) : Nat :=
  (List.replicate count digit).foldl (fun n d => 10 * n + d) 0

/-- How many digits a random number is to have, when `name` asks for one with between one and
eighteen digits. -/
def randomNumberLength? (name : String) : ResolveM (Option Nat) :=
  match Text.stripPrefix? "randomNumber." name with
  | none => return none
  | some digits =>
    if !digits.isEmpty && digits.toList.all Text.isDigitLike then
      match Numeral.integer? digits with
      | none => throw (.badCount digits)
      | some n => return if 1 ≤ n && n ≤ 18 then some n.toNat else none
    else return none

/-- The value of a generator function at a time in seconds; an unknown one is left as a token. -/
def callFunction (now : Int) (name : String) : ResolveM String := do
  match ← randomNumberLength? name with
  | some n => return toString (← drawBetween (repeatedDigit 1 n) (repeatedDigit 9 n))
  | none =>
    if name = "unixTimestamp" then return toString now
    else
      warn "unknown_function" [("name", .text name)]
      return braced ("function." ++ name)

end Template

end Runbook
