import Runbook.Action.Catalogue
import Runbook.Rehearsal.Probe
import Runbook.Rehearsal.World
import Runbook.Schedule.State

/-!
# Rehearsing actions

Actions are dispatched one after another in one step of one loop index, on the built-in kinds and
the probes. What each of them did is shown by itself; that one fails does not stop the others. The
variables, the page and the storage go on from one action to the next.
-/

namespace Runbook.Rehearsal

open Runbook.Schedule

/-- An action to be rehearsed. -/
structure Cue where
  id : String
  name : String := ""
  actionType : String
  config : Fields := []
  /-- Why the run is asked to stop just before, if it is. -/
  cancel : Option String := none

namespace Cue

/-- Where the action takes place. -/
def frame (c : Cue) : Frame :=
  { stepId := "step-1"
    stepName := "Step 1"
    actionId := c.id
    actionName := c.name
    actionType := c.actionType }

end Cue

/-- What an action did. -/
structure Scene where
  result : Except Failure Unit
  events : List RunEvent
  observations : List Json
  requests : List Json
  calls : List Json
  runtimeVars : Fields
  globals : Fields
  localLoopIndex : Int
  /-- Milliseconds since the beginning. -/
  clock : Int

/-- A rehearsal of actions as far as it has come. -/
structure Stage where
  shared : Shared World
  vars : LoopState

namespace Stage

/-- The kinds that are known in a rehearsal. -/
def registryAt (epoch : Rat) : Registry ActionKind :=
  Catalogue.registryOf (Catalogue.kinds ++ probes epoch)

/-- The requests that the pages carried out. -/
def callsOf (w : World) : List Json := w.pages.flatMap fun p => p.2.calls

/-- The world without its notes on what the last action did. -/
def cleared (w : World) : World :=
  { w with
    requests := []
    observations := []
    pages := w.pages.map fun (i, p) => (i, { p with calls := [] }) }

/-- Takes everything out of the queue. -/
def drain : StateM (Shared World) (List RunEvent) := do
  let s ← get
  let (pipeline, events) := s.pipeline.drain
  set { s with pipeline }
  return events

/-- Dispatches an action. -/
def play (ctx : LoopContext) (c : Cue) (stage : Stage) : Scene × Stage :=
  let shared := match c.cancel with
    | some reason => (Shared.cancel reason false stage.shared).2
    | none => stage.shared
  let registry := registryAt shared.outside.epoch
  let program := (Action.dispatch registry ctx c.frame c.config).run.run stage.vars
  let state := State.runMain World.collaborators (fun _ => return none) shared program
  let (result, vars) := (state.main.result?).getD (.error .interrupted, stage.vars)
  let (events, shared) := drain state.shared
  let w := shared.outside
  ({ result, events
     observations := w.observations
     requests := w.requests
     calls := callsOf w
     runtimeVars := vars.runtimeVars
     globals := shared.globals
     localLoopIndex := vars.localLoopIndex
     clock := (shared.clock - w.epoch).floor },
   { shared := { shared with outside := cleared w }, vars })

/-- Dispatches actions one after another. -/
def playAll (ctx : LoopContext) : List Cue → Stage → List Scene × Stage
  | [], stage => ([], stage)
  | c :: rest, stage =>
    let (scene, stage) := play ctx c stage
    let (scenes, stage) := playAll ctx rest stage
    (scene :: scenes, stage)

end Stage

end Runbook.Rehearsal
