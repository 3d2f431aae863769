import Runbook.Json.Basic
import Runbook.Number.Numeral
import Runbook.Text.Split

/-!
# Dotted paths

A path such as `data.items[0].id` names a node of a document. It is cut at its points; each segment
is a property `name`, an indexed property `name[i]`, or a bare index `[i]`. `Json.at?` follows a
path from a document; `Scope.lookup` starts at a named variable, the nearer scope first. Each way
of going wrong is a cause of its own.
-/

namespace Runbook

/-- Why a path leads nowhere. -/
inductive PathError where
  | emptyPath
  | unknownVariable (name : String)
  | nullAt (segment : String)
  | notObject (property : String)
  | noArray (name : String)
  | notArray (name : String)
  | badIndex (index : String)
  | outOfBounds (index : Int) (name : String)
  | noProperty (name : String)
  deriving DecidableEq, Repr

/-- The wording of a path error. -/
def PathError.message : PathError → String
  | .emptyPath => "empty path"
  | .unknownVariable name => s!"runtime variable '{name}' not found"
  | .nullAt segment => s!"null value encountered at path segment '{segment}'"
  | .notObject property => s!"cannot access property '{property}' on non-object"
  | .noArray name => s!"array '{name}' not found"
  | .notArray name => s!"'{name}' is not an array"
  | .badIndex index => s!"invalid array index '{index}'"
  | .outOfBounds index name => s!"array index {index} out of bounds for array '{name}'"
  | .noProperty name => s!"property '{name}' not found"

namespace Path

/-- Whether a character may stand in the name or in the index of an indexed segment. -/
def isPlain (c : Char) : Bool := c != '[' && c != ']'

/-- The name and the index of an indexed segment. One line feed may follow the closing bracket. -/
def indexed? (segment : String) : Option (String × String) :=
  let cs := segment.toList
  match cs.dropWhile isPlain with
  | '[' :: rest =>
    let tail := rest.dropWhile isPlain
    if tail = [']'] ∨ tail = [']', '\n'] then
      some (String.ofList (cs.takeWhile isPlain), String.ofList (rest.takeWhile isPlain))
    else none
  | _ => none

/-- The item of a list at a written index. -/
def item (value : Json) (name index : String) : Except PathError Json :=
  match value with
  | .null => .error (.nullAt s!"{name}[{index}]")
  | .list items =>
    match Numeral.integer? (Text.trim index) with
    | none => .error (.badIndex index)
    | some i =>
      if i < 0 then .error (.outOfBounds i name)
      else
        match items[i.toNat]? with
        | some x => .ok x
        | none => .error (.outOfBounds i name)
  | _ => .error (.notArray name)

/-- One segment further into a document. -/
def step (current : Json) (segment : String) : Except PathError Json :=
  match current with
  | .null => .error (.nullAt segment)
  | _ =>
    match indexed? segment with
    | some (name, index) =>
      if name.isEmpty then item current name index
      else
        match current with
        | .object fields =>
          match Fields.get? fields name with
          | some x => item x name index
          | none => .error (.noArray name)
        | _ => .error (.notObject name)
    | none =>
      match current with
      | .object fields =>
        match Fields.get? fields segment with
        | some x => .ok x
        | none => .error (.noProperty segment)
      | _ => .error (.notObject segment)

/-- Follows segments from a document. -/
def walk (current : Json) (segments : List String) : Except PathError Json :=
  segments.foldlM step current

end Path

/-- The node of a document that a path names. -/
def Json.at? (x : Json) (path : String) : Except PathError Json :=
  if path.isEmpty then .error .emptyPath else Path.walk x (Text.pieces '.' path)

/-- Looks a path up among named values: its first segment names one in `nearer` or, failing that,
in `farther`. -/
def Path.lookup (nearer farther : Fields) (path : String) : Except PathError Json :=
  match Text.pieces '.' path with
  | [] => .error (.unknownVariable "")
  | base :: rest =>
    let (name, index?) := match Path.indexed? base with
      | some (name, index) => (name, some index)
      | none => (base, none)
    match (Fields.get? nearer name).orElse fun _ => Fields.get? farther name with
    | none => .error (.unknownVariable name)
    | some x =>
      match index? with
      | some index => (Path.item x name index).bind fun y => Path.walk y rest
      | none => Path.walk x rest

end Runbook
