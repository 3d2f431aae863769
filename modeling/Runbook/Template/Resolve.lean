import Runbook.Config
import Runbook.Json.Display
import Runbook.Template.Generator
import Runbook.Template.Token
import Runbook.Template.Variables

/-!
# Resolving templates

A token is replaced by the first of these that knows its name, blanks around it aside:

1. the reserved names of the loop index;
2. `runtime.` and a path into the runtime and global variables;
3. `faker.` and a kind of sample data;
4. `function.` and a generator function;
5. the static variables;
6. the declared variables of the automation.

A token that nothing knows stays as it is, and a warning is logged. The value that replaces a token
is not scanned again; only a declared variable of type environment is a template itself, and a
chain of these may have at most ten members.

`resolve` resolves every text in a document. Nested actions are left alone: the places that
hold them are named by deferrals, so that each nested action is resolved when it runs.
-/

namespace Runbook.Template

open Runbook.Text

/-- What a template may refer to. -/
structure Environment where
  context : VariableContext
  config : Option AutomationConfig
  data : SampleData
  /-- The time in whole seconds. -/
  now : Int

/-- A runtime value inside a template: a text as it is, nothing for null, lists and objects as
compact JSON. -/
def stringify : Json → String
  | .null => ""
  | .text s => s
  | .bool b => if b then "true" else "false"
  | x@(.list _) => x.write .compact
  | x@(.object _) => x.write .compact
  | x => x.display

/-- The runtime value at a path; nothing, with a warning, where the path leads nowhere. -/
def runtimeValue (v : VariableContext) (path : String) : ResolveM String :=
  match Path.lookup v.runtimeVars v.globalVars path with
  | .ok x => return stringify x
  | .error e => do
    warn "runtime_variable_unresolved" [("path", .text path), ("error", .text e.message)]
    return ""

/-- The value of a token, given how declared variables are resolved; none when nothing knows it. -/
def tokenValue (env : Environment) (declared : Variable → ResolveM String) (name : String) :
    ResolveM (Option String) := do
  if let some s := env.context.reserved? name then return some s
  if let some path := stripPrefix? "runtime." name then
    return some (← runtimeValue env.context path)
  if let some kind := stripPrefix? "faker." name then return some (← fake env.data kind)
  if let some function := stripPrefix? "function." name then
    return some (← callFunction env.now function)
  if let some s := env.context.static? name then return some s
  if let some v := env.config.bind (·.findVariable name) then return some (← declared v)
  warn "variable_not_found" [("name", .text name)]
  return none

/-- What a piece of a template becomes. -/
def pieceValue (env : Environment) (declared : Variable → ResolveM String) :
    Piece → ResolveM (List Char)
  | .char c => return [c]
  | .token body => do
    match ← tokenValue env declared (String.ofList (trimBoth isBlank body)) with
    | some s => return s.toList
    | none => return written body

/-- What the pieces of a template become. -/
def piecesValue (env : Environment) (declared : Variable → ResolveM String) :
    List Piece → ResolveM (List Char)
  | [] => return []
  | p :: rest => do
    let front ← pieceValue env declared p
    let back ← piecesValue env declared rest
    return front ++ back

/-- A template resolved, given how declared variables are resolved. -/
def textWith (env : Environment) (declared : Variable → ResolveM String) (s : String) :
    ResolveM String :=
  return String.ofList (← piecesValue env declared (scan s.toList))

/-- The value of a dynamic variable: sample data when the value is a single `faker` token. -/
def dynamicValue (env : Environment) (v : Variable) : ResolveM String :=
  let value := trim v.value
  match stripPrefix? "\x7b\x7bfaker." value with
  | some rest =>
    if endsWith value "\x7d\x7d" then
      fake env.data (trim (String.ofList (rest.toList.take (rest.length - 2))))
    else return v.value
  | none => return v.value

/-- The value of a declared variable that may be reached through `remaining` more. -/
def declaredValue (env : Environment) : Nat → Variable → ResolveM String
  | remaining, v =>
    match v.type with
    | .static => return v.value
    | .dynamic => dynamicValue env v
    | .environment =>
      match remaining with
      | 0 => throw (.tooDeep v.key)
      | remaining + 1 => textWith env (declaredValue env remaining) v.value

/-- Resolves a template. -/
def resolveText (env : Environment) (s : String) : ResolveM String :=
  textWith env (declaredValue env maxDepth) s

/-- A place in a document whose texts are left unresolved: under a key, or under a key of each
object in a list. -/
inductive Deferral where
  | key (name : String)
  | each (outer : String) (inner : Deferral)
  deriving DecidableEq, Repr

namespace Deferral

/-- The place that `outer[].inner` names, for any number of levels. -/
def ofNames : String → List String → Deferral
  | name, [] => .key name
  | name, next :: rest => .each name (ofNames next rest)

/-- Cuts a list of characters at each `[].`. -/
def cut : List Char → List (List Char)
  | [] => [[]]
  | '[' :: ']' :: '.' :: cs => [] :: cut cs
  | c :: cs =>
    match cut cs with
    | piece :: rest => (c :: piece) :: rest
    | [] => [[c]]

/-- The place that a text names. -/
def ofText (s : String) : Deferral :=
  match (cut s.toList).map String.ofList with
  | name :: rest => ofNames name rest
  | [] => .key s

/-- The text of a place. -/
def text : Deferral → String
  | .key name => name
  | .each outer inner => outer ++ "[]." ++ inner.text

/-- What is deferred inside each object of the list under a key. -/
def inside (deferred : List Deferral) (key : String) : List Deferral :=
  deferred.filterMap fun
    | .each outer inner => if outer = key then some inner else none
    | .key _ => none

end Deferral

mutual

/-- Resolves every text in a document. When it is an object, `deferred` names places in it; when it
is a list, `inner` names places in each of its items. -/
def resolveTree (env : Environment) (deferred inner : List Deferral) : Json → ResolveM Json
  | .text s => return .text (← resolveText env s)
  | .list items => return .list (← resolveItems env inner items)
  | .object fields => return .object (← resolveFields env deferred fields)
  | x => return x

/-- Resolves the items of a list. -/
def resolveItems (env : Environment) (inner : List Deferral) : List Json → ResolveM (List Json)
  | [] => return []
  | x :: rest => do
    let y ← resolveTree env inner [] x
    let ys ← resolveItems env inner rest
    return y :: ys

/-- Resolves the fields of an object. -/
def resolveFields (env : Environment) (deferred : List Deferral) :
    List (String × Json) → ResolveM (List (String × Json))
  | [] => return []
  | (key, x) :: rest => do
    let y ← if deferred.contains (.key key) then pure x
      else resolveTree env [] (Deferral.inside deferred key) x
    let ys ← resolveFields env deferred rest
    return (key, y) :: ys

end

/-- Resolves a document, leaving the deferred places of an object alone. -/
def resolve (env : Environment) (deferred : List Deferral) (x : Json) : ResolveM Json :=
  resolveTree env deferred [] x

end Runbook.Template
