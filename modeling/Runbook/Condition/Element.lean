import Runbook.Error

/-!
# Conditions on an element

What can be asked about an element of a page.
-/

namespace Runbook

/-- A state of an element. -/
inductive ElementState where
  | enabled
  | disabled
  | visible
  | hidden
  | checked
  | editable
  deriving DecidableEq, Repr

namespace ElementState

/-- All states. -/
def all : List ElementState := [.enabled, .disabled, .visible, .hidden, .checked, .editable]

/-- The word for a state in a configuration. -/
def word : ElementState → String
  | enabled => "is_enabled"
  | disabled => "is_disabled"
  | visible => "is_visible"
  | hidden => "is_hidden"
  | checked => "is_checked"
  | editable => "is_editable"

/-- The state that a word names. -/
def ofWord? (s : String) : Option ElementState := all.find? fun c => c.word == s

/-- The state that a word names, or the error that there is none. -/
def read (s : String) : Except Failure ElementState :=
  match ofWord? s with
  | some c => .ok c
  | none =>
    .error (.error {
      kind := .actionConfig none (some "condition_type")
      message := s!"unsupported condition_type '{s}'" })

theorem ofWord?_word (c : ElementState) : ofWord? c.word = some c := by
  cases c <;> decide

end ElementState

end Runbook
