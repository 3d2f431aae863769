import Runbook.Action.Kind
import Runbook.Action.Nested
import Runbook.Registry

/-!
# Dispatch

Dispatching an action looks up its kind, resolves its configuration except where that holds nested
actions, and carries it out. A control action dispatches its nested actions in the same way, each
with the configuration that stands in the definition.

How deep actions can be nested is known before the first one runs: a nested action lies inside the
configuration of the action that holds it, and so its own configuration weighs less. `dispatch`
is given the weight as the number of levels there can be.
-/

namespace Runbook

namespace Action

/-- Dispatches an action that may have nested actions up to so many levels deep. -/
def dispatchWithin (registry : Registry ActionKind) (ctx : LoopContext) : Nat → Dispatcher
  | 0 => fun frame _ => Act.fail (.error (.unknownAction frame.actionType))
  | levels + 1 => fun frame config => do
    Act.ask (.dispatched ctx.loopIndex frame config)
    let kind ← Act.ofExcept (registry.get frame.actionType)
    let deferred := kind.deferred.map Template.Deferral.ofText
    let resolved ← Act.resolving ctx fun env => Template.resolve env deferred (.object config)
    kind.execute ctx (dispatchWithin registry ctx levels) frame resolved

/-- Dispatches an action. -/
def dispatch (registry : Registry ActionKind) (ctx : LoopContext) : Dispatcher :=
  fun frame config => dispatchWithin registry ctx (Json.weightFields config + 1) frame config

/-- The entries of a list of nested actions. The keys of an object and the characters of a text
count as entries, too, and nothing as none. -/
def entries (x : Json) : Except Fault (List Json) :=
  if x.truthy then
    match x with
    | .list items => .ok items
    | .object fields => .ok (fields.map fun f => .text f.1)
    | .text s => .ok (s.toList.map fun c => .text (String.ofList [c]))
    | .bool _ => .error (notIterable "bool")
    | .int _ => .error (notIterable "int")
    | .float _ => .error (notIterable "float")
    | .foreign type _ _ => .error (notIterable type)
    | .null => .ok []
  else .ok []
where
  /-- The refusal of a value that has no entries. -/
  notIterable (type : String) : Fault := ⟨.badType, s!"'{type}' object is not iterable"⟩

/-- Dispatches the entries of a list from a position on, one after another. A malformed entry is
passed over with a warning; the first action that fails ends the list. With a checkpoint, each
entry is preceded by a look at the request to stop. -/
def runEntries (nested : Dispatcher) (frame : Frame) (idStem : String)
    (checkpoint : Option String) : Nat → List Json → Act Unit
  | _, [] => pure ()
  | i, entry :: rest => do
    if let some message := checkpoint then Act.checkpoint message
    match NestedAction.ofEntry? entry s!"{idStem}-{i}" with
    | none =>
      Act.log (.warning "nested_action_malformed"
        [("parent_action_id", .text frame.actionId), ("index", .nat i)])
    | some action =>
      nested (frame.child action.id action.actionType action.name) action.config
    runEntries nested frame idStem checkpoint (i + 1) rest

/-- Dispatches a list of nested actions. -/
def runNested (nested : Dispatcher) (frame : Frame) (items : Json) (idStem : String)
    (checkpoint : Option String) : Act Unit := do
  let entries ← Act.ofExcept ((entries items).mapError .fault)
  runEntries nested frame idStem checkpoint 0 entries

end Action

end Runbook
