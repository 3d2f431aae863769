import Runbook.Error
import Runbook.Log

/-!
# Registries

A registry maps types to what was registered under them. A second registration under one type
replaces the first, with a warning. Once frozen, a registry takes nothing more.
-/

namespace Runbook

/-- A table from types to values, in order of first registration. -/
structure Registry (α : Type) where
  entries : List (String × α) := []
  frozen : Bool := false

namespace Registry

variable {α : Type}

/-- What is registered under a type. -/
def find? (r : Registry α) (type : String) : Option α :=
  (r.entries.find? fun e => e.1 == type).map Prod.snd

/-- Whether something is registered under a type. -/
def contains (r : Registry α) (type : String) : Bool :=
  r.entries.any fun e => e.1 == type

/-- What is registered under a type, or the error that nothing is. -/
def get (r : Registry α) (type : String) : Except Failure α :=
  match r.find? type with
  | some x => .ok x
  | none => .error (.error (.unknownAction type))

/-- Puts a value in the place of the one registered under a type, or at the end. -/
def put (type : String) (x : α) : List (String × α) → List (String × α)
  | [] => [(type, x)]
  | e :: rest => if e.1 == type then (type, x) :: rest else e :: put type x rest

/-- Registers a value; gives the registry and what was logged. -/
def register (r : Registry α) (type : String) (x : α) :
    Except Failure (Registry α × List LogRecord) :=
  if r.frozen then
    .error (.fault (.failure s!"registry is frozen; cannot register {type}"))
  else
    let log := if r.contains type then
        [LogRecord.warning "action_type_replaced" [("action_type", .text type)]]
      else []
    .ok ({ r with entries := put type x r.entries }, log)

/-- Refuses all further registrations. -/
def freeze (r : Registry α) : Registry α := { r with frozen := true }

/-- The registered types, by code point. -/
def types (r : Registry α) : List String :=
  (r.entries.map Prod.fst).mergeSort fun a b => a ≤ b

end Registry

end Runbook
