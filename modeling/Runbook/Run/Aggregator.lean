import Runbook.Run.Pipeline
import Runbook.Run.Record

/-!
# Gathering events

The aggregator turns events into log entries and output files, in the order of the events. A step
event leaves no trace. A flush makes a snapshot of all that has been gathered, together with the
number of events that were lost.
-/

namespace Runbook

/-- Log entries and output files gathered so far. -/
structure Gathered where
  logs : List Json := []
  outputFiles : List String := []

namespace Gathered

/-- The log entry that an event leaves. -/
def logOf? (e : RunEvent) : Option Json :=
  if e.type = .step then none else some e.toLogEntry

/-- The output file that an event tells of. -/
def fileOf? (e : RunEvent) : Option String :=
  if e.type = .outputFile && !e.outputFile.isEmpty then some e.outputFile else none

/-- Gathers some events more. -/
def gather (g : Gathered) (events : List RunEvent) : Gathered :=
  { logs := g.logs ++ events.filterMap logOf?
    outputFiles := g.outputFiles ++ events.filterMap fileOf? }

/-- The snapshot of a flush. -/
def snapshot (g : Gathered) (dropped : Nat) : Snapshot := ⟨g.logs, g.outputFiles, dropped⟩

/-- Gathering in two goes is gathering in one. -/
theorem gather_append (g : Gathered) (a b : List RunEvent) :
    g.gather (a ++ b) = (g.gather a).gather b := by
  simp [gather, List.filterMap_append, List.append_assoc]

end Gathered

end Runbook
