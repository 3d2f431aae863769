import Runbook.Json.Basic

/-!
# Automations

An automation is a list of steps, and a step is a list of actions. Both say in which order they run
by a whole number; among equals the order of the definition decides.
-/

namespace Runbook

/-- An action of a step. -/
structure ActionItem where
  id : String
  actionType : String
  config : Fields := []
  /-- A whole number, as it is written. -/
  order : Json := .int 0
  name : String := ""

/-- A step. -/
structure Step where
  id : String
  name : String
  /-- A whole number, as it is written. -/
  order : Json := .int 0
  actions : List ActionItem := []
  /-- When the step is skipped. -/
  config : Fields := []

/-- An automation. -/
structure Automation where
  id : String
  name : String
  description : String := ""
  projectId : String := ""
  projectName : String := ""
  userId : String := ""
  /-- The settings as they are stored. -/
  config : Json := .null
  steps : List Step := []

/-- The number that decides the order. -/
def rank : Json → Rat
  | .int i => i
  | .float x => (x.toRat?).getD 0
  | .bool b => if b then 1 else 0
  | _ => 0

/-- Items in the order of their numbers; equal numbers keep the given order. -/
def byRank {α : Type} (order : α → Json) (items : List α) : List α :=
  items.mergeSort fun a b => rank (order a) ≤ rank (order b)

/-- The actions in the order in which they run. -/
def Step.orderedActions (s : Step) : List ActionItem := byRank ActionItem.order s.actions

/-- The steps in the order in which they run. -/
def Automation.orderedSteps (a : Automation) : List Step := byRank Step.order a.steps

end Runbook
