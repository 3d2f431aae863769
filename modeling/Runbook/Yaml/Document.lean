import Runbook.Json.Writer
import Runbook.Yaml.Node

/-!
# Documents in YAML

`Yaml.read` gives the document that a text writes. A key of a mapping is a text; any other scalar
stands for its JSON text, and a collection cannot be a key. A repeated key takes its last value. The
key `<<` takes over the entries of another mapping, or of a list of mappings, which the mapping's
own entries and earlier mappings of the list precede in rank.
-/

namespace Runbook.Yaml

/-- The key that a value stands for. -/
def keyOf : Json → Except Refusal String
  | .text s => .ok s
  | .list _ | .object _ => .error .malformed
  | x => .ok (x.write .spaced)

/-- The entries that a value of the key `<<` brings. -/
def mergedFields : Json → Except Refusal Fields
  | .object fields => .ok fields
  | .list items => do
    let parts ← items.mapM fun
      | .object fields => Except.ok fields
      | _ => .error .malformed
    return parts.reverse.flatten
  | _ => .error .malformed

namespace Node

/-- The tag of a scalar. -/
def scalarTag? : Node → Option Tag
  | .scalar tag _ => some tag
  | _ => none

/-- Entries of a mapping: those that are taken over, and its own. -/
structure Entries where
  merged : List (String × Json) := []
  own : List (String × Json) := []

mutual

/-- The document of a tree. -/
def toJson : Node → Except Refusal Json
  | .scalar tag text => tag.construct text
  | .sequence tag items => do
    let items ← toJsonList items
    if tag = .sequence then return .list items else throw .malformed
  | .mapping tag entries => do
    let entries ← toEntries entries
    if tag = .mapping then return .object (Fields.ofPairs (entries.merged ++ entries.own))
    else throw .malformed

def toJsonList : List Node → Except Refusal (List Json)
  | [] => .ok []
  | x :: rest => do
    let first ← toJson x
    return first :: (← toJsonList rest)

/-- The entries of a mapping. -/
def toEntries : List (Node × Node) → Except Refusal Entries
  | [] => .ok {}
  | (k, v) :: rest => do
    match k.scalarTag? with
    | some .merge => do
      let brought ← mergedFields (← toJson v)
      let more ← toEntries rest
      return { more with merged := brought ++ more.merged }
    | some .default => do
      let value ← toJson v
      let more ← toEntries rest
      return { more with own := ("=", value) :: more.own }
    | _ => do
      let key ← keyOf (← toJson k)
      let value ← toJson v
      let more ← toEntries rest
      return { more with own := (key, value) :: more.own }

end

end Node

/-- The document that a text writes; null when it holds none. -/
def read (text : String) : Except Refusal Json := do
  match ← Node.read text with
  | some x => x.toJson
  | none => return .null

end Runbook.Yaml
