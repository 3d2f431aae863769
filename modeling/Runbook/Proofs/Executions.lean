import Runbook.Proofs.Kinds
import Runbook.Proofs.Paths
import Runbook.Rehearsal.Whole

/-!
# Executions of actions

An execution checks the configuration and refuses a wrong one at once. Otherwise it carries the
action out, and then tells how that went in one event, its last deed: a log entry when the action
succeeded, an error when it failed. Only an interruption leaves the event out.

Nested actions are executed in the course of the action that holds them, so all their events come
before its own. `Body` says of a trace that it is made up in this way, at every level.

* `ActionKind.ends_execute`: what an execution of any kind can do.
* `Body frame t`: the trace `t` is what an action at `frame` may do before its last event.
* `Catalogue.execute_tells_outcome`: an execution of a built-in kind tells its outcome, once and
  last.
-/

namespace Runbook

/-- A part that keeps its outcome to itself first, and then what depends on that. -/
theorem Act.ends_liftState_bind_iff {α β : Type} {m : StateT LoopState Program α} {f : α → Act β}
    {s s' : LoopState} {t : List Deed} {r : Except Failure β} :
    Act.Ends (ExceptT.lift m >>= f) s t r s' ↔
      ∃ t₁ a s₁ t₂, t = t₁ ++ t₂ ∧ (m.run s).Ends t₁ (a, s₁) ∧ (f a).Ends s₁ t₂ r s' := by
  change (((m.run s) >>= fun x => pure (.ok x.1, x.2)) >>= fun x =>
    (ExceptT.bindCont f x.1).run x.2).Ends t (r, s') ↔ _
  simp only [Program.ends_bind_iff, Program.ends_pure_iff]
  constructor
  · rintro ⟨_, _, t₂, rfl, ⟨t₁, ⟨a, s₁⟩, _, rfl, h, rfl, rfl⟩, h₂⟩
    rw [List.append_nil]
    exact ⟨t₁, a, s₁, t₂, rfl, h, h₂⟩
  · rintro ⟨t₁, a, s₁, t₂, rfl, h, h₂⟩
    exact ⟨t₁, (.ok a, s₁), t₂, rfl, ⟨t₁, (a, s₁), [], by simp, h, rfl, rfl⟩, h₂⟩

/-- Where an event belongs. -/
structure RunEvent.At (e : RunEvent) (frame : Frame) : Prop where
  stepId : e.stepId = frame.stepId
  stepName : e.stepName = frame.stepName
  actionId : e.actionId = frame.actionId
  actionName : e.actionName = frame.actionName
  parentActionId : e.parentActionId = frame.parentActionId
  actionType : e.actionType = frame.actionType

/-- The loop index that an event names, and the local one. -/
structure RunEvent.Counts (e : RunEvent) (i l : Int) : Prop where
  loopIndex : e.loopIndex = i
  localLoopIndex : e.localLoopIndex = l

/-- An event tells how an execution ended: a log entry that it succeeded, an error that it failed,
in the words of the failure. -/
def RunEvent.Tells (e : RunEvent) (r : Except Failure Unit) : Prop :=
  e.type = .log ∧ r = .ok () ∨
    e.type = .error ∧ ∃ error, r = .error (.error error) ∧ e.error = error.message

namespace ActionKind

/-- The refusal of a configuration is an error about it, and names the kind. -/
theorem validate_error {kind : ActionKind} {config : Json} {e : Failure}
    (h : kind.validate config = .error e) :
    ∃ error field, e = .error error ∧ error.kind = .actionConfig (some kind.type) field := by
  have hproblem (p : Problem) : ∃ error field,
      Failure.error (configError kind.type p) = .error error ∧
        error.kind = .actionConfig (some kind.type) field :=
    ⟨_, p.field?, rfl, rfl⟩
  unfold validate at h
  dsimp only at h
  split at h
  · cases h
    exact hproblem _
  · cases h
  · split at h
    · cases h
      exact hproblem _
    · cases h

/-- What an execution comes to, given what the action came to. -/
def outcome (kind : ActionKind) (params : Fields) : Except Failure String → Except Failure Unit
  | .ok _ => .ok ()
  | .error (.fault f) => .error (.error (kind.wrap f params).1)
  | .error e => .error e

variable {kind : ActionKind} {ctx : LoopContext} {nested : Dispatcher} {frame : Frame}
  {config : Json} {s s' : LoopState} {t : List Deed} {r : Except Failure Unit}

/-- The last event of an execution is at its place, and names the loop index. -/
theorem ends_conclude {started : Rat} {report : Fields} {type : EventType}
    {content : RunEvent → RunEvent} (h : (kind.conclude ctx frame started report type content).Ends
      s t r s') : ∃ ended now e taken, r = .ok () ∧ s' = s ∧
        t = [.call .now ended, .call .now now, .call (.emit (content e)) taken] ∧
        e.type = type ∧ e.At frame ∧ e.Counts ctx.loopIndex s.localLoopIndex := by
  obtain ⟨ended, t', rfl, h'⟩ := Act.ends_ask_bind_iff.mp h
  obtain ⟨now, taken, rfl, rfl, rfl⟩ := Act.ends_emit_iff.mp h'
  exact ⟨ended, now, _, taken, rfl, rfl, rfl, rfl, ⟨rfl, rfl, rfl, rfl, rfl, rfl⟩, ⟨rfl, rfl⟩⟩

/-- **Executions.** An execution refuses its configuration and does nothing, or it does what the
action does and then, unless that was interrupted, tells the outcome with the variables as the
action left them. -/
theorem ends_execute (h : (kind.execute ctx nested frame config).Ends s t r s') :
    (∃ e, kind.validate config = .error e ∧ r = .error e ∧ t = [] ∧ s' = s) ∨
    ∃ params started t₁ result report s₁ t₂, kind.validate config = .ok params ∧
      t = .call .now started :: (t₁ ++ t₂) ∧ r = kind.outcome params result ∧ s' = s₁ ∧
      (kind.behave ctx nested frame params).Ends kind.firstReport s t₁ result report s₁ ∧
      (t₂ = [] ∧ result = .error .interrupted ∨
        ∃ ended now e taken, t₂ = [.call .now ended, .call .now now, .call (.emit e) taken] ∧
          e.At frame ∧ e.Counts ctx.loopIndex s₁.localLoopIndex ∧
            e.Tells r) := by
  rcases hvalid : kind.validate config with e | params
  · rw [ActionKind.execute, hvalid] at h
    obtain ⟨rfl, rfl, rfl⟩ := Act.ends_fail_iff.mp h
    exact .inl ⟨e, rfl, rfl, rfl, rfl⟩
  rw [ActionKind.execute, hvalid] at h
  obtain ⟨started, t', rfl, h₁⟩ := Act.ends_ask_bind_iff.mp h
  obtain ⟨t₁, ⟨result, report⟩, s₁, t₂, rfl, hbehave, h₂⟩ := Act.ends_liftState_bind_iff.mp h₁
  refine .inr ⟨params, started, t₁, result, report, s₁, t₂, rfl, rfl, ?_⟩
  -- A failure is told, and then the execution fails with it.
  have hfail (report : Fields) (error : RunError)
      (h : (do
        kind.conclude ctx frame started report .error fun e => { e with error := error.message }
        Act.fail (.error error) : Act Unit).Ends s₁ t₂ r s') :
      r = .error (.error error) ∧ s' = s₁ ∧ ∃ ended now e taken,
        t₂ = [.call .now ended, .call .now now, .call (.emit e) taken] ∧ e.At frame ∧
          e.Counts ctx.loopIndex s₁.localLoopIndex ∧ e.Tells r := by
    rcases Act.ends_bind_iff.mp h with ⟨t₃, _, s₂, t₄, rfl, h₃, h₄⟩ | ⟨e, h₃, -⟩
    · obtain ⟨ended, now, e, taken, -, rfl, rfl, htype, hat, hcounts⟩ := ends_conclude h₃
      obtain ⟨rfl, rfl, rfl⟩ := Act.ends_fail_iff.mp h₄
      exact ⟨rfl, rfl, ended, now, _, taken, rfl, ⟨hat.1, hat.2, hat.3, hat.4, hat.5, hat.6⟩,
        ⟨hcounts.1, hcounts.2⟩, .inr ⟨htype, error, rfl, rfl⟩⟩
    · obtain ⟨-, -, -, -, hr, -⟩ := ends_conclude h₃
      cases hr
  rcases result with (error | fault | _) | message
  · obtain ⟨rfl, rfl, htold⟩ := hfail report error h₂
    exact ⟨rfl, rfl, hbehave, .inr htold⟩
  · obtain ⟨rfl, rfl, htold⟩ :=
      hfail ((kind.wrap fault params).2 report) (kind.wrap fault params).1 h₂
    exact ⟨rfl, rfl, hbehave, .inr htold⟩
  · obtain ⟨rfl, rfl, rfl⟩ := Act.ends_fail_iff.mp h₂
    exact ⟨rfl, rfl, hbehave, .inl ⟨rfl, rfl⟩⟩
  · obtain ⟨ended, now, e, taken, rfl, rfl, rfl, htype, hat, hcounts⟩ := ends_conclude h₂
    exact ⟨rfl, rfl, hbehave, .inr ⟨ended, now, _, taken, rfl,
      ⟨hat.1, hat.2, hat.3, hat.4, hat.5, hat.6⟩, ⟨hcounts.1, hcounts.2⟩, .inl ⟨htype, rfl⟩⟩⟩

end ActionKind

/-! ### Events of nested actions -/

/-- Whether a deed is the last event of an execution. -/
def Deed.closes : Deed → Bool
  | .call (.emit e) _ => e.type = .log || e.type = .error
  | _ => false

/-- A trace that an action may leave before its last event: deeds of its own, none of which is such
an event, and executions of nested actions, each of them with its last event behind everything else
of it. -/
inductive Body : Frame → List Deed → Prop
  | nil (frame : Frame) : Body frame []
  | own {frame : Frame} {t : List Deed} {d : Deed} :
      Body frame t → d.closes = false → Body frame (t ++ [d])
  | nested {frame : Frame} {t t' : List Deed} {id type name : String} {e : RunEvent}
      {taken : Bool} :
      Body frame t → Body (frame.child id type name) t' → e.At (frame.child id type name) →
      (e.type = .log ∨ e.type = .error) → Body frame (t ++ (t' ++ [.call (.emit e) taken]))

theorem Body.append {frame : Frame} {t t' : List Deed} (h : Body frame t) (h' : Body frame t') :
    Body frame (t ++ t') := by
  induction h' generalizing t with
  | nil => rwa [List.append_nil]
  | own _ hd ih =>
    rw [← List.append_assoc]
    exact .own (ih h) hd
  | nested _ hbody hat he ih =>
    rw [← List.append_assoc]
    exact .nested (ih h) hbody hat he

theorem Body.single {frame : Frame} {d : Deed} (hd : d.closes = false) : Body frame [d] :=
  .own (.nil frame) hd

/-- Unless it is interrupted, an action at a place leaves a trace that is well made up. -/
def Within (frame : Frame) : Law := fun t o => o = some .interrupted ∨ Body frame t

theorem within_sequential (frame : Frame) : (Within frame).Sequential := by
  refine ⟨.inr (.nil frame), ?_⟩
  rintro t t' o (h | h) (h' | h')
  · cases h
  · cases h
  · exact .inl h'
  · exact .inr (h.append h')

theorem within_liberal (frame : Frame) : (Within frame).Liberal := by
  refine ⟨within_sequential frame, ?_, fun _ => .inr (.nil frame)⟩
  intro c r hc
  refine .inr (.single ?_)
  cases c <;> first | rfl | exact hc.elim

theorem within_lenient (frame : Frame) : (Within frame).Lenient := by
  refine ⟨within_liberal frame, ?_, ?_, .inl rfl, .inr (.single rfl), ?_⟩
  · intro e taken he
    exact .inr (.single (by simp [Deed.closes, he]))
  · intro ms
    exact .inr ((Body.single rfl).append (t := [_]) (.single rfl))
  · rintro t t' e e' o (h | h) hne (h' | h') he
    · exact absurd (Option.some.inj h) hne
    · exact absurd (Option.some.inj h) hne
    · rcases he with ⟨-, ho⟩ | ho
      · exact absurd h' ho
      · exact .inl (ho.symm.trans h')
    · exact .inr (h.append h')

/-- What an execution of a proper kind comes to, when all nested actions are well behaved. -/
theorem ActionKind.Proper.execute {kind : ActionKind} (hkind : kind.Proper) {ctx : LoopContext}
    {nested : Dispatcher} {frame : Frame} {config : Json} {s s' : LoopState} {t : List Deed}
    {r : Except Failure Unit}
    (hnested : ∀ {id type name config},
      (nested (frame.child id type name) config).Obeys (Within frame))
    (h : (kind.execute ctx nested frame config).Ends s t r s') :
    r = .error .interrupted ∨
    (∃ error field, kind.validate config = .error (.error error) ∧
      error.kind = .actionConfig (some kind.type) field ∧ r = .error (.error error) ∧
      t = [] ∧ s' = s) ∨
    ∃ params body e taken, kind.validate config = .ok params ∧
      t = body ++ [.call (.emit e) taken] ∧ Body frame body ∧ e.At frame ∧ e.Tells r := by
  rcases ActionKind.ends_execute h with ⟨e, hvalid, rfl, rfl, rfl⟩ |
    ⟨params, started, t₁, result, report, s₁, t₂, hvalid, rfl, rfl, rfl, hbehave, htold⟩
  · obtain ⟨error, field, rfl, hfield⟩ := ActionKind.validate_error hvalid
    exact .inr (.inl ⟨error, field, hvalid, hfield, rfl, rfl, rfl⟩)
  · rcases htold with ⟨-, rfl⟩ | ⟨ended, now, e, taken, rfl, hat, -, htells⟩
    · exact .inl rfl
    · rcases hkind.behave ((within_lenient frame).governs hnested (.inr (.single rfl)) _ _) ctx
          _ _ _ _ _ _ hbehave with hcut | hbody
      · cases result with
        | ok message => cases hcut
        | error e =>
          cases hcut
          exact .inl rfl
      -- Its own deeds around what the action did are no last events.
      · refine .inr (.inr ⟨params,
          .call .now started :: (t₁ ++ [.call .now ended, .call .now now]), e, taken, hvalid,
          by simp, ?_, hat, htells⟩)
        have hstart : Body frame [.call .now started] := .single rfl
        have hend : Body frame [.call .now ended, .call .now now] :=
          (Body.single rfl).append (t := [_]) (.single rfl)
        exact hstart.append (hbody.append hend)

namespace Catalogue

/-- Dispatching a nested action, however deep, leaves a trace that is well made up. -/
theorem dispatchWithin_obeys (ctx : LoopContext) (levels : Nat) {frame : Frame}
    {id type name : String} {config : Fields} :
    (Action.dispatchWithin registry ctx levels (frame.child id type name) config).Obeys
      (Within frame) := by
  induction levels generalizing frame id type name config with
  | zero => exact Act.obeys_fail (.inr (.nil frame))
  | succ levels ih =>
    refine Action.obeys_dispatchWithin_succ (within_liberal frame) (.inr (.single rfl))
      fun kind resolved hget => ?_
    intro s t r s' h
    rcases (registry_proper hget).1.execute ih h with rfl | ⟨_, _, -, -, -, rfl, -⟩ |
      ⟨_, body, e, taken, -, rfl, hbody, hat, htells⟩
    · exact .inl rfl
    · exact .inr (.nil frame)
    · refine .inr ((Body.nil frame).nested hbody hat ?_)
      exact htells.imp And.left And.left

/-- **An execution tells its outcome.** Whatever the world replies, and however deep actions are
nested, an execution that is not interrupted refuses its configuration and does nothing, or it ends
with one event at its own place, behind all that nested actions did: a log entry if it succeeded, an
error in the words of its failure if it failed. -/
theorem execute_tells_outcome {kind : ActionKind} (hkind : kind ∈ kinds) (ctx : LoopContext)
    (levels : Nat) (frame : Frame) (config : Json) {s s' : LoopState} {t : List Deed}
    {r : Except Failure Unit}
    (h : (kind.execute ctx (Action.dispatchWithin registry ctx levels) frame config).Ends s t r s')
    (hr : r ≠ .error .interrupted) :
    (∃ error field, kind.validate config = .error (.error error) ∧
      error.kind = .actionConfig (some kind.type) field ∧ r = .error (.error error) ∧
      t = [] ∧ s' = s) ∨
    ∃ params body e taken, kind.validate config = .ok params ∧
      t = body ++ [.call (.emit e) taken] ∧ Body frame body ∧ e.At frame ∧
      (e.type = .log ∧ r = .ok () ∨
        e.type = .error ∧ ∃ error, r = .error (.error error) ∧ e.error = error.message) :=
  ((proper kind hkind).execute (dispatchWithin_obeys ctx levels) h).resolve_left hr

/-- The context of an action to try. -/
def sampleContext : LoopContext :=
  { runId := "run-1", hasPage := true, data := Rehearsal.sampleData }

/-- A branching action that comes to log something. -/
def sampleBranching : Json := .object [
  ("selector", .text "h1"), ("condition_type", .text "is_visible"),
  ("else_actions", .list [.object [
    ("action_type", .text "playwright:log"),
    ("action_config", .object [("message", .text "no")])]])]

/-- A branching action tells how it ended behind the event of the action in its branch. -/
theorem branching_tells_outcome : ∃ body e taken s',
    (IfElse.kind.execute sampleContext (Action.dispatchWithin registry sampleContext 1)
      { actionId := "a" } sampleBranching).Ends {} (body ++ [.call (.emit e) taken]) (.ok ()) s' ∧
    Body { actionId := "a" } body ∧ e.At { actionId := "a" } ∧ e.type = .log ∧
    body.countP Deed.closes = 1 := by
  let shared : Schedule.Shared Rehearsal.World :=
    { clock := 0, outside := { epoch := 0, pages := [(0, {})] } }
  let program := ((IfElse.kind.execute sampleContext
    (Action.dispatchWithin registry sampleContext 1) { actionId := "a" }
      sampleBranching).run.run {})
  obtain ⟨⟨r, s'⟩, hadv, hok⟩ : ∃ a, (Schedule.advance Rehearsal.World.collaborators program
      shared).1 = .ended a ∧ a.1.toOption.isSome = true :=
    Schedule.Task.exists_ended (by decide +kernel)
  have hcount : (Schedule.deeds Rehearsal.World.collaborators program shared).countP Deed.closes =
      2 := by
    decide +kernel
  have hends := Schedule.Task.ends_deeds hadv
  cases r with
  | error e => cases hok
  | ok u =>
    rcases execute_tells_outcome (by simp [kinds]) sampleContext 1 _ _ hends nofun with
      ⟨_, _, -, -, hr, -⟩ | ⟨_, body, e, taken, -, ht, hbody, hat, ⟨htype, -⟩ | ⟨-, _, hr, -⟩⟩
    · cases hr
    · rw [ht] at hcount hends
      refine ⟨body, e, taken, s', hends, hbody, hat, htype, ?_⟩
      simpa [Deed.closes, htype] using hcount
    · cases hr

end Catalogue

end Runbook
