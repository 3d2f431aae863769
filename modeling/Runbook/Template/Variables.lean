import Runbook.Json.Basic

/-!
# Variables of a loop index

The named values that templates may refer to while one loop index runs. Runtime variables belong to
the loop index; global ones are shared by all loop indices of a run.
-/

namespace Runbook

/-- Where a runtime variable is kept. -/
inductive Scope where
  | local
  | global
  deriving DecidableEq, Repr

/-- The scope that a word names; any other word names the loop index's own. -/
def Scope.ofWord (s : String) : Scope := if s = "global" then .global else .local

/-- The variables of one loop index. -/
structure VariableContext where
  loopIndex : Int := 0
  localLoopIndex : Int := 0
  runId : String := ""
  timestamp : String := ""
  userId : String := ""
  projectId : String := ""
  automationId : String := ""
  staticVars : List (String × String) := []
  runtimeVars : Fields := []
  globalVars : Fields := []

namespace VariableContext

/-- Sets a runtime variable. -/
def setRuntime (v : VariableContext) (name : String) (value : Json) : Scope → VariableContext
  | .global => { v with globalVars := Fields.set v.globalVars name value }
  | .local => { v with runtimeVars := Fields.set v.runtimeVars name value }

/-- The value of a static variable. -/
def static? (v : VariableContext) (name : String) : Option String :=
  (v.staticVars.find? fun s => s.1 == name).map Prod.snd

/-- The value of a reserved name. -/
def reserved? (v : VariableContext) : String → Option String
  | "loopIndex" => some (toString v.loopIndex)
  | "localLoopIndex" => some (toString v.localLoopIndex)
  | "timestamp" => some v.timestamp
  | "runId" => some v.runId
  | "userId" => some v.userId
  | "projectId" => some v.projectId
  | "automationId" => some v.automationId
  | _ => none

end VariableContext

end Runbook
