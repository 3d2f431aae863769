import Runbook.Json.Basic
import Runbook.Number.Numeral
import Runbook.Schema.Problem

/-!
# Schemas

A schema is data: a model is a list of fields, each with the kind of value it takes, a default, and
a way of preparing the raw value first. `Kind.check` converts a document to what its kind asks for
or lists every problem in it, in the order in which the fields are declared.

Conversion is lenient in one direction: text and truth values may stand for numbers, text and
numbers for truth values. Nothing stands for a text, a list or an object. Bounds are checked after
conversion, and a default is taken as it is.
-/

namespace Runbook

/-- What is done to a raw value before it is checked. -/
inductive Preparation where
  | asIs
  /-- A value that is no text is written as JSON text, null as the empty text. -/
  | writtenOut
  /-- A text is trimmed and put in lower case; an empty one stands for the given word. -/
  | normalized (ifEmpty : String)
  /-- Zero, the text `0` and the empty text stand for no value. -/
  | zeroIsUnset
  deriving DecidableEq, Repr

mutual

/-- The kind of value that a field takes. -/
inductive Kind where
  | any
  | text (minLength : Nat)
  | integer (least most : Option Int)
  | number (least : Option Int)
  | boolean
  | choice (options : List String)
  | list (minItems : Nat) (item : Kind)
  | dictionary (value : Kind)
  | optional (kind : Kind)
  | model (name : String) (keepExtra : Bool) (fields : List Field)

/-- A field: the key that names it, another key that may stand in its place and goes first when
both are present, and what it holds. A field without a default must be given. -/
inductive Field where
  | mk (name : String) (otherKey : Option String) (kind : Kind) (default : Option Json)
      (preparation : Preparation)

end

instance : Inhabited Kind := ⟨.any⟩

namespace Field

def name : Field → String
  | mk name _ _ _ _ => name

def otherKey : Field → Option String
  | mk _ otherKey _ _ _ => otherKey

/-- A field that must be given. -/
def required (name : String) (kind : Kind) : Field := mk name none kind none .asIs

/-- A field with a default. -/
def withDefault (name : String) (kind : Kind) (default : Json) : Field :=
  mk name none kind (some default) .asIs

/-- A field that may be absent or null. -/
def optional (name : String) (kind : Kind) : Field :=
  mk name none (.optional kind) (some .null) .asIs

/-- The value given for the field, with the key it was given under. -/
def given? (field : Field) (raw : Fields) : Option (String × Json) :=
  let byAlias := field.otherKey.bind fun a => (raw.get? a).map fun x => (a, x)
  byAlias.orElse fun _ => (raw.get? field.name).map fun x => (field.name, x)

end Field

namespace Kind

/-- What a check gives: the converted document, or every problem. -/
abbrev Checked := Except (List Problem) Json

/-- A single violation at the document itself. -/
def fail (v : Violation) : Checked := .error [⟨[], v⟩]

/-- The words for false and for true. -/
def falseWords : List String := ["0", "off", "f", "false", "n", "no"]

def trueWords : List String := ["1", "on", "t", "true", "y", "yes"]

/-- Two to the power 63. -/
def wordLimit : Int := 9223372036854775808

/-- Whether an integer is one of 64 bits, the least one left out. -/
def fitsWord (i : Int) : Bool := -wordLimit < i && i < wordLimit

/-- Conversion to an integer. -/
def toInteger : Json → Except Violation Int
  | .bool b => .ok (if b then 1 else 0)
  | .int i => .ok i
  | .float x =>
    match x.toRat?, x.toInt? with
    | none, _ => .error .notFinite
    | _, none => .error .fractional
    | _, some i => if fitsWord i then .ok i else .error .oversizedInteger
  | .text s =>
    match Numeral.fieldInteger? s with
    | some i => .ok i
    | none => .error .unreadableInteger
  | _ => .error .notInteger

/-- Conversion to a number. -/
def toNumber : Json → Except Violation Binary64
  | .bool b => .ok (if b then Binary64.one else Binary64.zero false)
  | .int i =>
    match Binary64.ofInt? i with
    | some x => .ok x
    | none => .error .notNumber
  | .float x => .ok x
  | .text s =>
    match Numeral.fieldDecimal? s with
    | some x => .ok x
    | none => .error .unreadableNumber
  | _ => .error .notNumber

/-- The truth value of an integer. -/
def boolOfInt (i : Int) : Except Violation Bool :=
  if i = 0 then .ok false else if i = 1 then .ok true else .error .unreadableBoolean

/-- Conversion to a truth value. -/
def toBoolean : Json → Except Violation Bool
  | .bool b => .ok b
  | .text s =>
    let w := String.ofList (s.toList.map Char.toLower)
    if falseWords.contains w then .ok false
    else if trueWords.contains w then .ok true
    else .error .unreadableBoolean
  | .int i => if -wordLimit ≤ i && i < wordLimit then boolOfInt i else .error .notBoolean
  | .float x =>
    match x.toInt? with
    | some i => if fitsWord i then boolOfInt i else .error .notBoolean
    | none => .error .notBoolean
  | _ => .error .notBoolean

/-- Checks an integer against its bounds. -/
def checkInteger (least most : Option Int) (x : Json) : Checked :=
  match toInteger x with
  | .error v => fail v
  | .ok i =>
    match most.filter (· < i), least.filter (i < ·) with
    | some hi, _ => fail (.above hi)
    | none, some lo => fail (.below lo)
    | none, none => .ok (.int i)

/-- Checks a number against its lower bound. -/
def checkNumber (least : Option Int) (x : Json) : Checked :=
  match toNumber x with
  | .error v => fail v
  | .ok y =>
    match least.filter fun (lo : Int) => y.lt (Binary64.ofRat (lo : Rat)) with
    | some lo => fail (.below lo)
    | none => .ok (.float y)

/-- Joins the results of checking a list of things: all values, or all problems. -/
def collect {α : Type} (results : List (Except (List Problem) α)) :
    Except (List Problem) (List α) :=
  let problems := results.flatMap fun
    | .error ps => ps
    | .ok _ => []
  if problems.isEmpty then
    .ok (results.filterMap fun
      | .ok x => some x
      | .error _ => none)
  else .error problems

/-- Moves the problems of a result one step out. -/
def under {α : Type} (step : Place) : Except (List Problem) α → Except (List Problem) α
  | .error ps => .error (ps.map (Problem.under step))
  | .ok x => .ok x

end Kind

/-- Prepares a raw value. `write` writes a document as JSON text. -/
def Preparation.apply (write : Json → String) : Preparation → Json → Json
  | .asIs, x => x
  | .writtenOut, .null => .text ""
  | .writtenOut, .text s => .text s
  | .writtenOut, x => .text (write x)
  | .normalized ifEmpty, .text s =>
    let cs := (Text.trimBoth Text.isBlank s.toList).map Char.toLower
    .text (if cs.isEmpty then ifEmpty else String.ofList cs)
  | .normalized _, x => x
  | .zeroIsUnset, x =>
    let unset := match x with
      | .int i => i == 0
      | .bool b => !b
      | .float y => y.isZero
      | .text s => s == "" || s == "0"
      | _ => false
    if unset then .null else x

namespace Kind

/-- The extra fields of an object, those that no declared field takes. -/
def extras (fields : List Field) (raw : Fields) : Fields :=
  raw.filter fun f => !fields.any fun d => d.name == f.1 || d.otherKey == some f.1

mutual

/-- Converts a document to a kind, or lists its problems. -/
def check (write : Json → String) : Kind → Json → Checked
  | .any, x => .ok x
  | .text least, x =>
    match x with
    | .text s => if s.length < least then fail (.tooShort least) else .ok x
    | _ => fail .notText
  | .integer least most, x => checkInteger least most x
  | .number least, x => checkNumber least x
  | .boolean, x =>
    match toBoolean x with
    | .ok b => .ok (.bool b)
    | .error v => fail v
  | .choice options, x =>
    match x with
    | .text s => if options.contains s then .ok x else fail (.notAmong options)
    | _ => fail (.notAmong options)
  | .list least item, x =>
    match x with
    | .list items =>
      match collect (items.mapIdx fun i y => under (.index i) (check write item y)) with
      | .error ps => .error ps
      | .ok ys =>
        if ys.length < least then fail (.tooFewItems least ys.length) else .ok (.list ys)
    | _ => fail .notList
  | .dictionary value, x =>
    match x with
    | .object entries =>
      match collect (entries.map fun (k, y) => under (.key k) (check write value y)) with
      | .error ps => .error ps
      | .ok ys => .ok (.object ((entries.map Prod.fst).zip ys))
    | _ => fail .notDictionary
  | .optional kind, x =>
    match x with
    | .null => .ok .null
    | x => check write kind x
  | .model name keepExtra fields, x =>
    match x with
    | .object raw =>
      match collect (checkFields write fields raw) with
      | .error ps => .error ps
      | .ok declared =>
        .ok (.object (declared ++ if keepExtra then extras fields raw else []))
    | _ => fail (.notModel name)

/-- Converts the declared fields of a model, in order. -/
def checkFields (write : Json → String) :
    List Field → Fields → List (Except (List Problem) (String × Json))
  | [], _ => []
  | field :: rest, raw => checkField write field raw :: checkFields write rest raw

/-- Converts one field of a model. -/
def checkField (write : Json → String) :
    Field → Fields → Except (List Problem) (String × Json)
  | .mk name otherKey kind default preparation, raw =>
    match (Field.mk name otherKey kind default preparation).given? raw with
    | some (key, x) =>
      match check write kind (preparation.apply write x) with
      | .ok y => .ok (name, y)
      | .error ps => .error (ps.map (Problem.under (.key key)))
    | none =>
      match default with
      | some d => .ok (name, d)
      | none => .error [⟨[.key (otherKey.getD name)], .missing⟩]

end

end Kind

end Runbook
