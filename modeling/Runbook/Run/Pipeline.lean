import Runbook.Event
import Runbook.Log

/-!
# The event queue

All loop indices of a run put their events into one queue. Nobody ever waits to put an event in: one
that does not fit is dropped and counted. Once the queue is sealed it takes no more events; the end
mark tells whoever empties the queue that nothing more will come, and it needs room as an event
does.
-/

namespace Runbook

/-- A queue of events. -/
structure Pipeline where
  /-- How much the queue can hold; zero for any number. -/
  capacity : Nat := 1000
  queue : List RunEvent := []
  /-- Whether the end mark is in the queue, behind all events. -/
  marked : Bool := false
  /-- Whether no more events are taken. -/
  closed : Bool := false
  /-- How many events were not taken. -/
  dropped : Nat := 0

namespace Pipeline

/-- How much the queue holds. -/
def size (p : Pipeline) : Nat := p.queue.length + if p.marked then 1 else 0

/-- Whether nothing more fits. -/
def isFull (p : Pipeline) : Bool := p.capacity ≠ 0 && p.capacity ≤ p.size

/-- Whether there is nothing in the queue. -/
def isEmpty (p : Pipeline) : Bool := p.queue.isEmpty && !p.marked

/-- Counts an event that is not taken. -/
def drop (p : Pipeline) : Pipeline := { p with dropped := p.dropped + 1 }

/-- The warning about an event that is not taken. -/
def dropWarning (event : String) (e : RunEvent) (more : Fields) : LogRecord :=
  .warning event ([("event_type", .text e.type.word), ("action_id", .text e.actionId)] ++ more)

/-- Offers an event; gives the queue afterwards, whether the event was taken, and a warning if it
was not. -/
def emit (p : Pipeline) (e : RunEvent) : Pipeline × Bool × Option LogRecord :=
  if p.closed then (p.drop, false, some (dropWarning "event_after_close" e []))
  else if p.isFull then
    (p.drop, false, some (dropWarning "event_dropped" e [("dropped", .nat (p.dropped + 1))]))
  else ({ p with queue := p.queue ++ [e] }, true, none)

/-- Stops taking events. -/
def close (p : Pipeline) : Pipeline := { p with closed := true }

/-- Puts the end mark in, if there is room. -/
def offerEnd (p : Pipeline) : Pipeline × Bool :=
  if p.isFull then (p, false) else ({ p with marked := true }, true)

/-- Takes everything out: the queue afterwards and the events. -/
def drain (p : Pipeline) : Pipeline × List RunEvent :=
  ({ p with queue := [], marked := false }, p.queue)

/-- An event is taken exactly when the queue is neither sealed nor full. -/
theorem emit_taken_iff (p : Pipeline) (e : RunEvent) :
    (p.emit e).2.1 = true ↔ p.closed = false ∧ p.isFull = false := by
  unfold emit
  cases hc : p.closed <;> cases hf : p.isFull <;> simp

/-- The queue after an event that is taken. -/
theorem queue_emit_of_taken (p : Pipeline) (e : RunEvent) (h : (p.emit e).2.1 = true) :
    (p.emit e).1 = { p with queue := p.queue ++ [e] } := by
  obtain ⟨hc, hf⟩ := (emit_taken_iff p e).1 h
  simp [emit, hc, hf]

/-- The queue after an event that is not taken. -/
theorem queue_emit_of_not_taken (p : Pipeline) (e : RunEvent) (h : (p.emit e).2.1 = false) :
    (p.emit e).1 = p.drop := by
  unfold emit at h ⊢
  cases hc : p.closed <;> cases hf : p.isFull <;> simp_all

end Pipeline

end Runbook
