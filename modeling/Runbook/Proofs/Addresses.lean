import Runbook.Json.Basic

/-!
# Addresses in documents

A node of a document has an address: the steps that lead to it from the top, each to the value
under a key of an object or to the item at a position of a list. What a path names and what a
resolution leaves alone can be said by address, without following the document.

* `Json.Step`, `Json.Address`: one step down a document, and the steps to a node.
* `Json.node? x a`: the node of the document `x` at the address `a`.
-/

namespace Runbook.Json

/-- One step down a document. -/
inductive Step where
  /-- To the value under a key of an object. -/
  | key (name : String)
  /-- To the item at a position of a list. -/
  | item (i : Nat)
  deriving DecidableEq, Repr

/-- The steps that lead to a node from the top. -/
abbrev Address := List Step

/-- The node one step down. -/
def child? : Json → Step → Option Json
  | .object fields, .key name => Fields.get? fields name
  | .list items, .item i => items[i]?
  | _, _ => none

/-- The node at an address. -/
def node? (x : Json) (a : Address) : Option Json := a.foldlM child? x

@[simp]
theorem node?_nil (x : Json) : x.node? [] = some x := rfl

theorem node?_cons (x : Json) (s : Step) (a : Address) :
    x.node? (s :: a) = (x.child? s).bind fun y => y.node? a :=
  List.foldlM_cons

end Runbook.Json
