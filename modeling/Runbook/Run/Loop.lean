import Runbook.Action.Dispatch
import Runbook.Automation
import Runbook.Condition.Loop

/-!
# One loop index

What a run does for one loop index: it opens a session, goes through the steps that are not skipped,
dispatches their actions one after another, and closes the session, however it ended. Before each
step and each action it looks whether it has been asked to stop. The first error ends it.
-/

namespace Runbook

/-- What a run works with. -/
structure Runner where
  registry : Registry ActionKind
  data : SampleData
  /-- Whether there are browser sessions. -/
  hasSessions : Bool := true
  hasStorage : Bool := true

namespace Loop

/-- The static variables of a configuration: the last declaration of a key counts. -/
def staticVars (declared : List Variable) : List (String × String) :=
  (declared.filter fun v => v.type = .static).foldl (fun vars v => put v.key v.value vars) []
where
  /-- Sets a value: in place when its key is present, at the end otherwise. -/
  put (key value : String) : List (String × String) → List (String × String)
    | [] => [(key, value)]
    | (k, v) :: rest => if k == key then (k, value) :: rest else (k, v) :: put key value rest

/-- The context of a loop index that begins at a time. -/
def contextOf (r : Runner) (automation : Automation) (config : AutomationConfig) (runId : String)
    (loopIndex : Nat) (now : Rat) : LoopContext :=
  { runId, config, loopIndex
    timestamp := (Timestamp.ofMillis now).toStamp
    userId := automation.userId
    projectId := automation.projectId
    automationId := automation.id
    staticVars := staticVars config.declared
    hasPage := r.hasSessions
    hasStorage := r.hasStorage
    data := r.data }

/-- The outcome of a part. -/
def outcome {α : Type} (m : Act α) : Act (Except Failure α) :=
  ExceptT.mk do return .ok (← m.run)

/-- Takes a picture of the page and stores it. -/
def takePicture (ctx : LoopContext) (frame : Frame) : Act Unit := do
  let stored ← outcome do
    let data ← Act.attempt (Program.ask (.screenshot ctx.loopIndex []))
    let key ← Act.resolving ctx fun env =>
      Template.resolveText env ctx.config.screenshots.path
    Act.attempt (Program.ask (.upload key data "image/png"))
  match stored with
  | .ok url => Act.emitOutputFile ctx frame url
  | .error .interrupted => Act.fail .interrupted
  | .error e =>
    Act.log (.warning "screenshot_capture_failed" [
      ("run_id", .text ctx.runId), ("action_id", .text frame.actionId), ("error", .text e.text)])

/-- Takes a picture of the page if pictures are wanted and possible. That it fails is only
logged. -/
def capture (ctx : LoopContext) (frame : Frame) : Act Unit :=
  if ctx.config.screenshots.enabled && ctx.hasPage && ctx.hasStorage then takePicture ctx frame
  else pure ()

/-- Whether a step is skipped. -/
def isSkipped (ctx : LoopContext) (step : Step) : Act Bool := do
  let chance ← Act.ask .chance
  let decision ← Act.ofExcept
    ((Condition.decideSkip step.config ctx.loopIndex chance.draws).mapError .fault)
  Act.ask (.setChance { chance with draws := decision.draws })
  decision.log.forM Act.log
  return decision.skip

/-- The frame of an action of a step. -/
def frameOf (step : Step) (action : ActionItem) : Frame :=
  { stepId := step.id
    stepName := step.name
    actionId := action.id
    actionName := action.name
    actionType := action.actionType }

/-- Dispatches an action of a step. An error is logged, and unless it reports a cancellation a
picture of the page is taken, if the settings ask for one. -/
def runAction (r : Runner) (ctx : LoopContext) (step : Step) (action : ActionItem) : Act Unit := do
  Act.checkpoint ""
  let frame := frameOf step action
  match ← outcome (Action.dispatch r.registry ctx frame action.config) with
  | .ok () => return ()
  | .error (.error e) =>
    Act.logBound ctx .error "action_failed" [
      ("step_id", .text step.id), ("action_id", .text action.id),
      ("action_type", .text action.actionType), ("error", .text e.message)]
    if e.cancellation?.isNone && ctx.config.screenshots.onError then capture ctx frame
    Act.fail (.error e)
  | .error e => Act.fail e

/-- Tells that a step begins. -/
def announce (ctx : LoopContext) (step : Step) : Act Unit := do
  let now ← Act.ask .now
  let _ ← Act.ask (.emit {
    type := .step, timestamp := .ofMillis now, stepId := step.id, stepName := step.name
    message := s!"Starting step {step.name}", loopIndex := ctx.loopIndex })

/-- Runs a step, unless it is skipped. -/
def runStep (r : Runner) (ctx : LoopContext) (step : Step) : Act Unit := do
  Act.checkpoint ""
  if ← isSkipped ctx step then return
  announce ctx step
  step.orderedActions.forM (runAction r ctx step)

/-- Runs all steps. -/
def runSteps (r : Runner) (ctx : LoopContext) (steps : List Step) : Act Unit := do
  steps.forM (runStep r ctx)
  if ctx.config.screenshots.onSuccess then capture ctx {}

/-- Does something inside a session, which is closed however that ends. -/
def inSession (r : Runner) (loopIndex : Nat) (m : Act Unit) : Act Unit := do
  if !r.hasSessions then m
  else
    match ← Act.ask (.openSession loopIndex) with
    | .error f =>
      Act.fail (.error (.browser s!"failed to open browser session: {f.text}" none none))
    | .ok () =>
      let result ← outcome m
      Act.ask (.closeSession loopIndex)
      Act.ofExcept result

/-- Runs one loop index. -/
def run (r : Runner) (automation : Automation) (config : AutomationConfig) (runId : String)
    (loopIndex : Nat) : Program (Except Failure Unit) := do
  let now ← Program.ask .now
  let ctx := contextOf r automation config runId loopIndex now
  let steps := runSteps r ctx automation.orderedSteps
  let (result, _) ← (inSession r loopIndex steps).run.run {}
  return result

end Loop

end Runbook
