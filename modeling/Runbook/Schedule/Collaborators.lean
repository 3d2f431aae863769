import Runbook.Program.Basic

/-!
# Collaborators

Whoever answers the calls of a program that concern the world outside: pages, storage, servers, the
run store, notifications and the log. They may keep a state of any type, and they answer at once.
What holds of a run for all collaborators holds whatever the world does.
-/

namespace Runbook

/-- The world outside, with a state of type `σ`. -/
structure Collaborators (σ : Type) where
  page : Int → PageCall → StateM σ (Except Fault Json)
  screenshot : Int → Fields → StateM σ (Except Fault (List UInt8))
  upload : String → List UInt8 → String → StateM σ (Except Fault String)
  delete : String → StateM σ (Except Fault Unit)
  list : String → StateM σ (Except Fault (List String))
  request : Api.Request → StateM σ (Except Api.NoResponse Api.Response)
  observe : Json → StateM σ Unit
  openSession : Nat → StateM σ (Except Fault Unit)
  closeSession : Nat → StateM σ Unit
  save : RunRecord → StateM σ (Except Fault Unit)
  /-- Writes what has been gathered for a run at a time. -/
  progress : String → Snapshot → Rat → StateM σ (Except Fault Unit)
  notify : NotificationMessage → List Channel → StateM σ (Except Fault Unit)
  log : LogRecord → StateM σ Unit

end Runbook
