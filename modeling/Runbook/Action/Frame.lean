import Runbook.Event

/-!
# Frames

A frame says where in the tree of actions an execution takes place: the step, the action and the
action that holds it. Nothing in a frame changes; a nested action gets a frame of its own.
-/

namespace Runbook

/-- A place in the tree of actions. -/
structure Frame where
  stepId : String := ""
  stepName : String := ""
  actionId : String := ""
  actionName : String := ""
  parentActionId : String := ""
  actionType : String := ""
  /-- How many control actions the place lies in. -/
  depth : Nat := 0
  deriving DecidableEq, Repr

namespace Frame

/-- The frame of an action that the action of this frame holds. -/
def child (frame : Frame) (actionId actionType actionName : String) : Frame :=
  { frame with
    parentActionId := frame.actionId
    actionId
    actionName
    actionType
    depth := frame.depth + 1 }

/-- An event at this place. -/
def event (frame : Frame) (type : EventType) (timestamp : Timestamp)
    (loopIndex localLoopIndex : Int) : RunEvent :=
  { type, timestamp, loopIndex, localLoopIndex
    stepId := frame.stepId
    stepName := frame.stepName
    actionId := frame.actionId
    actionName := frame.actionName
    parentActionId := frame.parentActionId
    actionType := frame.actionType }

end Frame

end Runbook
