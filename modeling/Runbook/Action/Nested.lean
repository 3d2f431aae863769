import Runbook.Json.Reader

/-!
# Nested actions

A control action holds lists of further actions in its configuration. Each entry names a type, and
may have an identifier, a name and a configuration of its own; the configuration may be written as
JSON text. `NestedAction.ofEntry?` refuses every entry that is not of this form.
-/

namespace Runbook

/-- An action inside the configuration of another one. -/
structure NestedAction where
  id : String
  actionType : String
  config : Fields
  name : String

namespace NestedAction

/-- The configuration of an entry. Nothing, and anything empty, stand for an empty one. -/
def configOf? (raw : Json) : Option Fields :=
  if raw.truthy then
    match raw with
    | .object fields => some fields
    | .text s =>
      match Json.read s with
      | .ok (.object fields) => some fields
      | _ => none
    | _ => none
  else some []

/-- A text that says something, or else a default. -/
def textOr (x : Option Json) (default : String) : String :=
  match x with
  | some (.text s) => if s.isEmpty then default else s
  | _ => default

/-- The nested action of an entry; `defaultId` names an entry that has no identifier. -/
def ofEntry? (entry : Json) (defaultId : String) : Option NestedAction :=
  match entry with
  | .object fields =>
    match textOr (Fields.get? fields "action_type") "" with
    | "" => none
    | actionType =>
      (configOf? ((Fields.get? fields "action_config").getD .null)).map fun config =>
        { id := textOr (Fields.get? fields "id") defaultId
          actionType
          config
          name := textOr (Fields.get? fields "name") "" }
  | _ => none

end NestedAction

end Runbook
