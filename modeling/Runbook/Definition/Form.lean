import Runbook.Json.Display
import Runbook.Schema.Problem

/-!
# The form of a definition

Before a definition is taken apart its form is checked: which parts there must be, and of which type
each part is. A `Form` lists every deviation of a document, in the order in which its parts are
described. Of several deviations the one nearest to the root is reported, the first of those.
-/

namespace Runbook.Definition

/-- The types of document that a form tells apart. -/
inductive Shape where
  | object
  | array
  | string
  | integer
  | null
  deriving DecidableEq, Repr

namespace Shape

def word : Shape → String
  | object => "object"
  | array => "array"
  | string => "string"
  | integer => "integer"
  | null => "null"

/-- Whether a document is of a type. A decimal number without a fraction is an integer, too. -/
def holds : Shape → Json → Bool
  | object, .object _ => true
  | array, .list _ => true
  | string, .text _ => true
  | integer, .int _ => true
  | integer, .float x => x.toInt?.isSome
  | null, .null => true
  | _, _ => false

end Shape

/-- A way in which a part of a document is not as it should be. -/
inductive Flaw where
  | wrongType (value : Json) (shapes : List Shape)
  | missing (key : String)
  | empty

/-- The wording of a flaw. -/
def Flaw.message : Flaw → String
  | .wrongType value shapes =>
    value.inspect ++ " is not of type "
      ++ ", ".intercalate (shapes.map fun s => Text.quoted s.word)
  | .missing key => Text.quoted key ++ " is a required property"
  | .empty => "'' should be non-empty"

/-- A flaw and where it was found. -/
structure Deviation where
  place : List Place
  flaw : Flaw

namespace Deviation

/-- The deviation as it is seen from a step further out. -/
def within (step : Place) (d : Deviation) : Deviation := { d with place := step :: d.place }

/-- Where a deviation was found, in words. -/
def location (d : Deviation) : String :=
  let path := "/".intercalate (d.place.map Place.text)
  if path.isEmpty then "<root>" else path

/-- The deviation nearest to the root, the first of several. -/
def nearest? : List Deviation → Option Deviation
  | [] => none
  | d :: rest =>
    match nearest? rest with
    | none => some d
    | some e => some (if d.place.length ≤ e.place.length then d else e)

end Deviation

/-- What is asked of a document: the ways in which it deviates. -/
abbrev Form := Json → List Deviation

namespace Form

/-- A document of one of some types. -/
def ofShape (shapes : List Shape) : Form := fun x =>
  if shapes.any (·.holds x) then [] else [⟨[], .wrongType x shapes⟩]

/-- An object with some keys. -/
def requires (keys : List String) : Form
  | .object fields =>
    (keys.filter fun k => !Fields.has fields k).map fun k => ⟨[], .missing k⟩
  | _ => []

/-- A text that says something. -/
def nonEmpty : Form
  | .text s => if s.isEmpty then [⟨[], .empty⟩] else []
  | _ => []

/-- An object with a part of some form, if it has the part. -/
def field (key : String) (form : Form) : Form := fun x =>
  match x.get? key with
  | some y => (form y).map (·.within (.key key))
  | none => []

/-- A list of items of some form. -/
def items (form : Form) : Form
  | .list xs => (xs.mapIdx fun i x => (form x).map (·.within (.index i))).flatten
  | _ => []

/-- A document of several forms at once. -/
def all (forms : List Form) : Form := fun x => forms.flatMap fun form => form x

/-- A text. -/
def text : Form := ofShape [.string]

/-- Settings: an object, an object written as JSON text, or nothing. -/
def settings : Form := ofShape [.object, .string, .null]

/-- An action. -/
def action : Form := all [
  ofShape [.object],
  requires ["action_type"],
  field "id" text,
  field "name" text,
  field "action_type" (all [text, nonEmpty]),
  field "action_config" settings,
  field "action_order" (ofShape [.integer])]

/-- A step. -/
def step : Form := all [
  ofShape [.object],
  requires ["name", "actions"],
  field "id" text,
  field "name" text,
  field "step_order" (ofShape [.integer]),
  field "config" (ofShape [.object, .null]),
  field "actions" (all [ofShape [.array], items action])]

/-- What is said about the automation as a whole. -/
def about : Form := all [
  ofShape [.object],
  requires ["name"],
  field "id" text,
  field "name" (all [text, nonEmpty]),
  field "description" text,
  field "project_id" text,
  field "project_name" text,
  field "config" settings]

/-- A definition. -/
def definition : Form := all [
  ofShape [.object],
  requires ["automation", "steps"],
  field "automation" about,
  field "steps" (all [ofShape [.array], items step])]

end Form

end Runbook.Definition
