import Runbook.Program.Basic
import Runbook.Template.Resolve

/-!
# Programs of a loop index

An `Act` is the part of a program that runs inside one loop index. It keeps the variables of that
loop index to itself, as a state, and it may fail; what it did to the state before it failed stays.
The variables that all loop indices share are reached by calls.
-/

namespace Runbook

/-- What does not change while a loop index runs. -/
structure LoopContext where
  runId : String
  config : AutomationConfig := {}
  loopIndex : Int := 0
  timestamp : String := ""
  userId : String := ""
  projectId : String := ""
  automationId : String := ""
  staticVars : List (String × String) := []
  /-- Whether there is a page. -/
  hasPage : Bool := false
  /-- Whether there is a storage service. -/
  hasStorage : Bool := false
  data : SampleData

/-- The variables of a loop index that change while it runs. -/
structure LoopState where
  runtimeVars : Fields := []
  localLoopIndex : Int := 0

/-- A part of a program inside one loop index. -/
abbrev Act := ExceptT Failure (StateT LoopState Program)

/-- The point in universal time so many milliseconds after the beginning of 1970. -/
def Timestamp.ofMillis (ms : Rat) : Timestamp :=
  .ofMicros (roundDiv (ms * 1000).num.natAbs (ms * 1000).den)

namespace Act

/-- A program as a part that keeps the state and does not fail. -/
def lift {α : Type} (p : Program α) : Act α := ExceptT.lift (StateT.lift p)

/-- Makes a call. -/
def ask (c : Call) : Act c.Reply := lift (Program.ask c)

/-- Fails. -/
def fail {α : Type} (e : Failure) : Act α := throw e

/-- Makes a call that may fail. -/
def attempt {α : Type} (p : Program (Except Fault α)) : Act α := do
  match ← lift p with
  | .ok a => return a
  | .error f => fail (.fault f)

/-- A value that may be missing with a reason. -/
def ofExcept {α : Type} : Except Failure α → Act α
  | .ok a => pure a
  | .error e => fail e

/-- Waits; an interruption ends the part. -/
def await (w : Wait) : Act Unit := do
  match ← lift (Program.await w) with
  | .resumed => return ()
  | .interrupted => fail .interrupted

/-- Logs a record. -/
def log (r : LogRecord) : Act Unit := ask (.log r)

/-- Logs a record with the run and the loop index bound to it. -/
def logBound (ctx : LoopContext) (level : LogLevel) (event : String) (fields : Fields) : Act Unit :=
  log ⟨level, event, [("run_id", .text ctx.runId), ("loop_index", .int ctx.loopIndex)] ++ fields⟩

/-- Stops with an error when a cancellation has been asked for. The checkpoint's own words go
before those of the request. -/
def checkpoint (message : String) : Act Unit := do
  match ← ask .cancellation with
  | none => return ()
  | some c => fail (.error (c.toError message))

/-- Sets a runtime variable. -/
def setRuntime (name : String) (value : Json) : Scope → Act Unit
  | .global => ask (.setGlobal name value)
  | .local => modify fun s => { s with runtimeVars := Fields.set s.runtimeVars name value }

/-- The variables as they are now. -/
def contextNow (ctx : LoopContext) : Act VariableContext := do
  let s ← get
  let globalVars ← ask .globals
  return {
    loopIndex := ctx.loopIndex
    localLoopIndex := s.localLoopIndex
    runId := ctx.runId
    timestamp := ctx.timestamp
    userId := ctx.userId
    projectId := ctx.projectId
    automationId := ctx.automationId
    staticVars := ctx.staticVars
    runtimeVars := s.runtimeVars
    globalVars }

/-- Carries out a resolution: its draws are taken and its log is written, also when it is
refused. -/
def resolving {α : Type} (ctx : LoopContext) (m : Template.Environment → Template.ResolveM α) :
    Act α := do
  let context ← contextNow ctx
  let now ← ask .now
  let chance ← ask .chance
  let env : Template.Environment :=
    { context, config := some ctx.config, data := ctx.data, now := (now / 1000).floor }
  let (result, drawing) := (m env).run.run { ints := chance.ints }
  ask (.setChance { chance with ints := drawing.ints })
  drawing.log.forM log
  match result with
  | .ok a => return a
  | .error e => fail e.toFailure

/-- Emits an event at a place. -/
def emit (ctx : LoopContext) (frame : Frame) (type : EventType) (content : RunEvent → RunEvent) :
    Act Unit := do
  let now ← ask .now
  let s ← get
  let _ ← ask (.emit (content (frame.event type (.ofMillis now) ctx.loopIndex s.localLoopIndex)))

/-- Tells that a file was stored. -/
def emitOutputFile (ctx : LoopContext) (frame : Frame) (url : String) : Act Unit :=
  emit ctx frame .outputFile fun e => { e with outputFile := url }

end Act

end Runbook
