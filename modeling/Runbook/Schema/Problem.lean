/-!
# Problems of a configuration

A problem is one way in which a document differs from what its schema asks for: where it was found,
and what is wrong there. `Problem.type` names the kind of problem for programs and `Problem.message`
words it for people.
-/

namespace Runbook

/-- One step towards a place in a document. -/
inductive Place where
  | key (name : String)
  | index (i : Nat)
  deriving DecidableEq, Repr

/-- The text of one step. -/
def Place.text : Place → String
  | .key name => name
  | .index i => toString i

/-- What is wrong at a place. -/
inductive Violation where
  | missing
  | notText
  | tooShort (least : Nat)
  | notInteger
  | unreadableInteger
  | fractional
  | oversizedInteger
  | notFinite
  | notNumber
  | unreadableNumber
  | notBoolean
  | unreadableBoolean
  | below (least : Int)
  | above (most : Int)
  | notAmong (options : List String)
  | notList
  | tooFewItems (least actual : Nat)
  | notDictionary
  | notModel (model : String)
  | refused (text : String)
  deriving DecidableEq, Repr

/-- A violation and where it was found. -/
structure Problem where
  place : List Place
  violation : Violation
  deriving DecidableEq, Repr

namespace Violation

/-- The name of a kind of problem. -/
def type : Violation → String
  | .missing => "missing"
  | .notText => "string_type"
  | .tooShort _ => "string_too_short"
  | .notInteger => "int_type"
  | .unreadableInteger => "int_parsing"
  | .fractional => "int_from_float"
  | .oversizedInteger => "int_parsing_size"
  | .notFinite => "finite_number"
  | .notNumber => "float_type"
  | .unreadableNumber => "float_parsing"
  | .notBoolean => "bool_type"
  | .unreadableBoolean => "bool_parsing"
  | .below _ => "greater_than_equal"
  | .above _ => "less_than_equal"
  | .notAmong _ => "literal_error"
  | .notList => "list_type"
  | .tooFewItems _ _ => "too_short"
  | .notDictionary => "dict_type"
  | .notModel _ => "model_type"
  | .refused _ => "value_error"

/-- Options as a phrase: each between single quotes, the last one after `or`. -/
def orPhrase : List String → String
  | [] => ""
  | [a] => s!"'{a}'"
  | [a, b] => s!"'{a}' or '{b}'"
  | a :: rest => s!"'{a}', " ++ orPhrase rest

/-- A count with its noun. -/
def counted (n : Nat) (noun : String) : String :=
  if n = 1 then s!"{n} {noun}" else s!"{n} {noun}s"

/-- The wording of a problem. -/
def message : Violation → String
  | .missing => "Field required"
  | .notText => "Input should be a valid string"
  | .tooShort n => "String should have at least " ++ counted n "character"
  | .notInteger => "Input should be a valid integer"
  | .unreadableInteger =>
    "Input should be a valid integer, unable to parse string as an integer"
  | .fractional => "Input should be a valid integer, got a number with a fractional part"
  | .oversizedInteger =>
    "Unable to parse input string as an integer, exceeded maximum size"
  | .notFinite => "Input should be a finite number"
  | .notNumber => "Input should be a valid number"
  | .unreadableNumber => "Input should be a valid number, unable to parse string as a number"
  | .notBoolean => "Input should be a valid boolean"
  | .unreadableBoolean => "Input should be a valid boolean, unable to interpret input"
  | .below n => s!"Input should be greater than or equal to {n}"
  | .above n => s!"Input should be less than or equal to {n}"
  | .notAmong options => "Input should be " ++ orPhrase options
  | .notList => "Input should be a valid list"
  | .tooFewItems least actual =>
    "List should have at least " ++ counted least "item" ++ s!" after validation, not {actual}"
  | .notDictionary => "Input should be a valid dictionary"
  | .notModel model => s!"Input should be a valid dictionary or instance of {model}"
  | .refused text => "Value error, " ++ text

end Violation

namespace Problem

/-- The problem as seen from one step further out. -/
def under (step : Place) (p : Problem) : Problem := { p with place := step :: p.place }

/-- The place as dotted text; none for the document itself. -/
def field? (p : Problem) : Option String :=
  if p.place.isEmpty then none else some (".".intercalate (p.place.map Place.text))

end Problem

end Runbook
