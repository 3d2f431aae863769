import Runbook.Rehearsal.Actions
import Runbook.Rehearsal.Sample
import Runbook.Run.Whole

/-!
# Rehearsing a run

A whole run of an automation, on the built-in kinds and the probes, in a scripted world.
-/

namespace Runbook.Rehearsal

open Runbook.Schedule

/-- What is done to a run from outside. -/
structure Disturbance where
  /-- Why the run is asked to stop before it begins. -/
  before : Option String := none
  /-- After how many milliseconds it is asked to stop. -/
  cancelAt : Option Rat := none
  /-- After how many milliseconds its task is interrupted. -/
  interruptAt : Option Rat := none

/-- A runner with the built-in kinds and the fixed sample data. -/
def sampleRunner : Runner := { registry := Catalogue.registry, data := sampleData }

/-- What the tasks of a run share when it begins at a time. -/
def sampleShared (epoch : Rat) : Shared World := { clock := epoch, outside := { epoch } }

/-- A record of a run that has not begun. -/
def sampleRecord : RunRecord := { id := "run-1", automationId := "auto-1" }

/-- An automation whose only action takes a branch with other actions in it. -/
def sampleAutomation (branch : List Json) : Automation :=
  { id := "auto-1", name := "Auto"
    steps := [{ id := "s0", name := "Step 0", actions := [
      { id := "a0", actionType := "playwright:if_else"
        config := [
          ("selector", .text "h1"), ("condition_type", .text "is_visible"),
          ("else_actions", .list branch)] }] }] }

/-- A run that has been rehearsed. -/
structure Performance where
  record : RunRecord
  raised : Option Failure
  world : World
  /-- Milliseconds since the beginning. -/
  clock : Int

namespace Disturbance

/-- Prepares what will be done to a run. -/
def prepare (d : Disturbance) : StateM (Shared World) Unit := do
  if let some reason := d.before then Shared.cancel reason false
  if let some ms := d.cancelAt then Shared.arm ms (.cancel "user stop")
  if let some ms := d.interruptAt then Shared.arm ms .interrupt

end Disturbance

/-- Runs an automation. -/
def perform (runner : Runner) (automation : Automation) (record : RunRecord) (d : Disturbance)
    (shared : Shared World) : Performance :=
  let (_, shared) := d.prepare shared
  let s := State.runMain World.collaborators
    (Whole.loopProgram runner automation record.id) shared (Whole.run runner automation record)
  let ended := (s.main.result?).getD ⟨record, some .interrupted⟩
  let w := s.shared.outside
  { record := ended.record.withSnapshot s.shared.flushed
    raised := ended.raised
    world := w
    clock := (s.shared.clock - w.epoch).floor }

end Runbook.Rehearsal
