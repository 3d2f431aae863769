import Runbook.Action.Browser

/-!
# Probes

Three kinds of action that do nothing but show that they ran. `test:record` reports where and with
what it ran; on demand it sleeps, asks for a cancellation, or fails. `test:silent` has no message of
its own, and `test:base` does not know what to do.
-/

namespace Runbook.Rehearsal

/-- What a recording probe reports. -/
def observation (ctx : LoopContext) (localIndex : Int) (frame : Frame) (params : Fields)
    (now : Rat) : Json := .object [
  ("action_id", .text frame.actionId), ("parent", .text frame.parentActionId),
  ("loop", .int ctx.loopIndex), ("local", .int localIndex), ("config", .object params),
  ("at_ms", .int now.floor)]

/-- The recording probe. `epoch` is the time at which its clock begins. -/
def recordProbe (epoch : Rat) : ActionKind :=
  { type := "test:record"
    schema := Browser.model "RecordSchema" [
      .withDefault "label" (.text 0) (.text ""),
      .withDefault "fail" .boolean (.bool false),
      .withDefault "cancel" (.text 0) (.text ""),
      .withDefault "sleep_ms" (.integer none none) (.int 0)]
    wrap := ActionKind.plainWrap "test:record"
    behave := fun ctx _ frame params => do
      let label := Fields.textAt params "label"
      let now ← Work.lift (Act.ask .now)
      let localIndex := (← getThe LoopState).localLoopIndex
      Work.lift (Act.ask (.observe (observation ctx localIndex frame params (now - epoch))))
      let pause := (Fields.int? params "sleep_ms").getD 0
      if pause ≠ 0 then
        let seconds ← Work.lift (Act.ofExcept (match Duration.seconds? pause with
          | some x => .ok x
          | none =>
            .error (.fault ⟨.overflow, "integer division result too large for a float"⟩)))
        Work.lift (Act.await (.sleep (Duration.millis seconds)))
      let reason := Fields.textAt params "cancel"
      if !reason.isEmpty then Work.lift (Act.ask (.cancel reason false))
      if Fields.boolAt params "fail" then throw (.fault (.failure s!"{label} failed"))
      return s!"recorded {label}" }

/-- The probe without a message. -/
def silentProbe : ActionKind :=
  { type := "test:silent"
    schema := Browser.model "ActionSchema" []
    wrap := ActionKind.plainWrap "test:silent"
    behave := fun _ _ _ _ => return "" }

/-- The probe that does not know what to do. -/
def baseProbe : ActionKind :=
  { type := "test:base"
    schema := Browser.model "ActionSchema" []
    wrap := ActionKind.plainWrap "test:base"
    behave := fun _ _ _ _ => throw (.fault ⟨.notImplemented, ""⟩) }

/-- The probes. -/
def probes (epoch : Rat) : List ActionKind := [recordProbe epoch, silentProbe, baseProbe]

end Runbook.Rehearsal
