import Runbook.Number.Binary64

/-!
# Documents

`Json` is the value that definitions, configurations, responses and runtime variables are made of.
Objects keep their fields in the order in which they were written, and whole numbers are kept apart
from decimal ones. The reader of another format may meet a value that has no counterpart here, such
as a calendar date; it is kept as `foreign`, with the name of its type and the forms in which it is
shown inside another document and on its own.
-/

namespace Runbook

/-- A document. -/
inductive Json where
  | null
  | bool (b : Bool)
  | int (i : Int)
  | float (x : Binary64)
  | text (s : String)
  | list (items : List Json)
  | object (fields : List (String × Json))
  | foreign (type inside alone : String)
  deriving Inhabited, Repr

/-- Fields of an object, in order. -/
abbrev Fields := List (String × Json)

namespace Fields

/-- The value of a field. -/
def get? (fields : Fields) (key : String) : Option Json :=
  (fields.find? fun f => f.1 == key).map Prod.snd

/-- Whether a field is present. -/
def has (fields : Fields) (key : String) : Bool :=
  fields.any fun f => f.1 == key

/-- Sets a field: in place when it is present, at the end otherwise. -/
def set (fields : Fields) (key : String) (value : Json) : Fields :=
  match fields with
  | [] => [(key, value)]
  | (k, v) :: rest => if k == key then (k, value) :: rest else (k, v) :: set rest key value

/-- The text of a field, empty when it holds none. -/
def textAt (fields : Fields) (key : String) : String :=
  match get? fields key with
  | some (.text s) => s
  | _ => ""

/-- The text of a field that may hold none. -/
def text? (fields : Fields) (key : String) : Option String :=
  match get? fields key with
  | some (.text s) => some s
  | _ => none

/-- The truth value of a field, false when it holds none. -/
def boolAt (fields : Fields) (key : String) : Bool :=
  match get? fields key with
  | some (.bool b) => b
  | _ => false

/-- The integer of a field that may hold none. -/
def int? (fields : Fields) (key : String) : Option Int :=
  match get? fields key with
  | some (.int i) => some i
  | _ => none

/-- The list of a field, empty when it holds none. -/
def listAt (fields : Fields) (key : String) : List Json :=
  match get? fields key with
  | some (.list items) => items
  | _ => []

/-- The object of a field, empty when it holds none. -/
def objectAt (fields : Fields) (key : String) : Fields :=
  match get? fields key with
  | some (.object inner) => inner
  | _ => []

/-- Fields with each key once: a repeated key keeps its first place and takes its last value. -/
def ofPairs (pairs : List (String × Json)) : Fields :=
  pairs.foldl (fun fields f => set fields f.1 f.2) []

end Fields

namespace Json

/-- The value of a field, when the document is an object. -/
def get? : Json → String → Option Json
  | .object fields, key => Fields.get? fields key
  | _, _ => none

/-- The fields of an object, none for anything else. -/
def fields : Json → Fields
  | .object fields => fields
  | _ => []

/-- Whether the document counts as present: not null, false, zero or empty. -/
def truthy : Json → Bool
  | .null => false
  | .bool b => b
  | .int i => i != 0
  | .float x => !x.isZero
  | .text s => !s.isEmpty
  | .list items => !items.isEmpty
  | .object fields => !fields.isEmpty
  | .foreign _ _ _ => true

/-- The text that the document is, if it is one. -/
def text? : Json → Option String
  | .text s => some s
  | _ => none

mutual

/-- Size of a document: one for each node, each key and each character of a text. A text counts
all its characters because a nested definition may be written as one. -/
def weight : Json → Nat
  | .text s => s.length + 1
  | .list items => weightList items + 1
  | .object fields => weightFields fields + 1
  | _ => 1

/-- Size of a list of documents. -/
def weightList : List Json → Nat
  | [] => 0
  | x :: rest => weight x + weightList rest + 1

/-- Size of the fields of an object. -/
def weightFields : List (String × Json) → Nat
  | [] => 0
  | (_, x) :: rest => weight x + weightFields rest + 1

end

mutual

/-- Equality of documents, order of fields included. -/
def same : Json → Json → Bool
  | .null, .null => true
  | .bool a, .bool b => a == b
  | .int a, .int b => a == b
  | .float a, .float b => a == b
  | .text a, .text b => a == b
  | .list a, .list b => sameList a b
  | .object a, .object b => sameFields a b
  | .foreign a p _, .foreign b q _ => a == b && p == q
  | _, _ => false

def sameList : List Json → List Json → Bool
  | [], [] => true
  | x :: xs, y :: ys => same x y && sameList xs ys
  | _, _ => false

def sameFields : List (String × Json) → List (String × Json) → Bool
  | [], [] => true
  | (k, x) :: xs, (l, y) :: ys => k == l && same x y && sameFields xs ys
  | _, _ => false

end

example (a b : Json) : weight (.list [a, b]) = weight a + (weight b + 0 + 1) + 1 + 1 := rfl

instance : BEq Json := ⟨same⟩

end Json

end Runbook
