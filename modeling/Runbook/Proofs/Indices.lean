import Runbook.Proofs.Executions
import Runbook.Proofs.Finalization

/-!
# The lawfulness of loop indices

A loop index announces steps and dispatches actions, each right after a look at the request to stop
that has found nothing. A lenient law that allows this steers loop indices: it is obeyed by every
step, by the loop index as a whole, and by loop indices that run one after another or side by side.

A law may also be indifferent to the place of an action and to what events say. Such a broad law
governs an action as soon as its nested actions obey it, and so, level by level, it governs all of
them. It is then obeyed by every action that is dispatched, and steers all loop indices.

* `Law.Broad L`: the law `L` allows all that a loop index may do, wherever it does it.
* `Law.Steers L r automation`: the law `L` allows what the loop indices of an automation announce
  and dispatch.
* `Law.Broad.steers`: a broad law steers all loop indices.
* `Loop.lawful_run`, `Whole.lawful_alongside`, `Whole.lawful_sequentially`: loop indices obey every
  law that steers them.
-/

namespace Runbook

open Whole

variable {L : Law}

/-! ### Actions -/

/-- An execution of a proper kind is lawful when the law governs it and any event may be told. -/
theorem ActionKind.Proper.obeys_execute {kind : ActionKind} (hkind : kind.Proper) (hL : L.Lenient)
    (hemit : ∀ e taken, L [.call (.emit e) taken] none) {ctx : LoopContext} {nested : Dispatcher}
    {frame : Frame} {config : Json}
    (hgoverns : ∀ params, kind.validate config = .ok params →
      L.Governs kind.type nested frame params) :
    (kind.execute ctx nested frame config).Obeys L := by
  intro s t r s' h
  rcases ActionKind.ends_execute h with ⟨e, hvalid, rfl, rfl, rfl⟩ |
    ⟨params, started, t₁, result, report, s₁, t₂, hvalid, rfl, rfl, rfl, hbehave, htold⟩
  · obtain ⟨error, field, rfl, hfield⟩ := ActionKind.validate_error hvalid
    refine hL.fail (Failure.own_error ?_)
    rw [RunError.cancellation?, hfield]
  · have hdone := hkind.behave (hgoverns params hvalid) ctx _ _ _ _ _ _ hbehave
    have hrest : L (t₁ ++ t₂) (failureOf (kind.outcome params result)) := by
      rcases htold with ⟨rfl, rfl⟩ | ⟨ended, now, e, taken, rfl, -, -, htells⟩
      · rw [List.append_nil]
        exact hdone
      have htold : L [.call .now ended, .call .now now, .call (.emit e) taken] none :=
        hL.append (t := [_]) (hL.call trivial)
          (hL.append (t := [_]) (hL.call trivial) (hemit e taken))
      rcases result with (error | fault | _) | message
      · exact hL.after hdone nofun htold (.inl ⟨rfl, nofun⟩)
      · -- The failure of a collaborator is told in other words.
        have hwrapped := hL.append htold (hL.fail (Failure.own_error (hkind.wrap fault params)))
        exact hL.after hdone nofun hwrapped (.inr rfl)
      · rcases htells with ⟨-, hr⟩ | ⟨-, _, hr, -⟩ <;> cases hr
      · exact hL.append hdone htold
    exact hL.append (t := [_]) (hL.call trivial) hrest

/-- A law that allows all that a loop index may do, wherever it does it. -/
structure Law.Broad (L : Law) : Prop extends L.Lenient where
  /-- A look at the request to stop finds one. -/
  stop {c : Cancellation} {message : String} :
    L [.call .cancellation (some c)] (some (.error (c.toError message)))
  dispatched {i : Int} {frame : Frame} {config : Fields} :
    L [.call (.dispatched i frame config) ()] none
  emit {e : RunEvent} {taken : Bool} : L [.call (.emit e) taken] none
  openSession {i : Nat} {r : Except Fault Unit} : L [.call (.openSession i) r] none
  /-- A session is closed, however what was done in it ended. -/
  close {t : List Deed} {o : Option Failure} {i : Nat} :
    L t o → L (t ++ [.call (.closeSession i) ()]) o

namespace Action

variable {registry : Registry ActionKind} {ctx : LoopContext}

theorem obeys_dispatchWithin (hregistry : registry.Proper) (hL : L.Broad) (levels : Nat)
    (frame : Frame) (config : Fields) :
    (dispatchWithin registry ctx levels frame config).Obeys L := by
  induction levels generalizing frame config with
  | zero => exact Act.obeys_own hL.toLiberal (Failure.own_error rfl)
  | succ levels ih =>
    exact obeys_dispatchWithin_succ hL.toLiberal hL.dispatched fun kind resolved hget =>
      (hregistry hget).1.obeys_execute hL.toLenient (fun _ _ => hL.emit) fun params _ =>
        hL.toLenient.governs (ih _ _) hL.stop _ _

theorem obeys_dispatch (hregistry : registry.Proper) (hL : L.Broad) (frame : Frame)
    (config : Fields) : (dispatch registry ctx frame config).Obeys L :=
  obeys_dispatchWithin hregistry hL _ frame config

end Action

theorem plain_of_prompt {d : Deed} (h : ∃ c r, d = .call c r ∧ c.Prompt) :
    ∃ c r, d = .call c r ∧ c.Plain := by
  obtain ⟨c, r, rfl, hc, -⟩ := h
  exact ⟨c, r, rfl, hc⟩

/-- A lenient law that allows what the loop indices of an automation announce and dispatch. -/
structure Law.Steers (L : Law) (r : Runner) (automation : Automation) : Prop
    extends L.Lenient where
  /-- A look before a step or an action finds a request to stop. -/
  stop {c : Cancellation} : L [.call .cancellation (some c)] (some (.error (c.toError "")))
  openSession {i : Nat} {r : Except Fault Unit} : L [.call (.openSession i) r] none
  /-- A session is closed, however what was done in it ended. -/
  close {t : List Deed} {o : Option Failure} {i : Nat} :
    L t o → L (t ++ [.call (.closeSession i) ()]) o
  /-- A step is announced after a look that has found nothing, with prompt calls between. -/
  announce {t : List Deed} {e : RunEvent} {taken : Bool} :
    (∀ d ∈ t, ∃ c r, d = .call c r ∧ c.Prompt) → e.type = .step →
    L (.call .cancellation none :: (t ++ [.call (.emit e) taken])) none
  /-- An action is dispatched right after a look that has found nothing. -/
  act {ctx : LoopContext} {step : Step} {action : ActionItem} {s s' : LoopState} {t : List Deed}
    {result : Except Failure Unit} :
    step ∈ automation.orderedSteps → action ∈ step.orderedActions →
    (Action.dispatch r.registry ctx (Loop.frameOf step action) action.config).Ends s t result s' →
    L (.call .cancellation none :: t) (failureOf result)

/-- A broad law steers all loop indices. -/
theorem Law.Broad.steers (hL : L.Broad) {r : Runner} (hregistry : r.registry.Proper)
    (automation : Automation) : L.Steers r automation where
  toLenient := hL.toLenient
  stop := hL.stop
  openSession := hL.openSession
  close := hL.close
  announce ht _ := hL.append (t := [_]) hL.go
    (hL.append (hL.toLiberal.calls fun d hd => plain_of_prompt (ht d hd)) hL.emit)
  act _ _ h := hL.append (t := [_]) hL.go (Action.obeys_dispatch hregistry hL _ _ _ _ _ _ h)

/-! ### Nothing but calls -/

/-- Only calls of some kind, and failures of a part's own. -/
def Calling (kind : Call → Prop) : Law := fun t o =>
  (∀ d ∈ t, ∃ c r, d = .call c r ∧ kind c) ∧ ∀ e, o = some e → e.Own

section Calling

variable {kind : Call → Prop}

theorem calling_sequential : (Calling kind).Sequential := by
  refine ⟨⟨List.forall_mem_nil _, by simp⟩, ?_⟩
  rintro t t' o ⟨h, -⟩ ⟨h', hown⟩
  refine ⟨fun d hd => ?_, hown⟩
  rcases List.mem_append.mp hd with hd | hd
  · exact h d hd
  · exact h' d hd

theorem calling_one {c : Call} {r : c.Reply} (hc : kind c) : Calling kind [.call c r] none :=
  ⟨List.forall_mem_singleton.mpr ⟨c, r, rfl, hc⟩, by simp⟩

theorem calling_fail {e : Failure} (he : e.Own) : Calling kind [] (some e) :=
  ⟨List.forall_mem_nil _, fun _ h => Option.some.inj h ▸ he⟩

theorem calling_plain_liberal : (Calling Call.Plain).Liberal where
  toSequential := calling_sequential
  call := calling_one
  fail := calling_fail

end Calling

/-! ### Pictures of the page -/

namespace Loop

/-- What has been tried comes to its outcome, and what depends on it follows. -/
theorem ends_outcome_bind_iff {α β : Type} {m : Act α} {f : Except Failure α → Act β}
    {s s' : LoopState} {t : List Deed} {r : Except Failure β} :
    (outcome m >>= f).Ends s t r s' ↔
      ∃ t₁ x s₁ t₂, t = t₁ ++ t₂ ∧ m.Ends s t₁ x s₁ ∧ (f x).Ends s₁ t₂ r s' :=
  Act.ends_liftState_bind_iff

/-- To take a picture of the page and to store it takes only plain calls. -/
theorem obeys_picture (ctx : LoopContext) : (do
    let data ← Act.attempt (Program.ask (.screenshot ctx.loopIndex []))
    let key ← Act.resolving ctx fun env => Template.resolveText env ctx.config.screenshots.path
    Act.attempt (Program.ask (.upload key data "image/png")) : Act String).Obeys
      (Calling Call.Plain) := by
  have hplain := calling_plain_liberal
  refine .bind hplain.toSequential ?_ fun data => ?_
  · exact Act.obeys_attempt_plain hplain (Program.only_ask trivial)
  · refine .bind hplain.toSequential (Act.obeys_resolving hplain ctx _) fun key => ?_
    exact Act.obeys_attempt_plain hplain (Program.only_ask trivial)

theorem obeys_takePicture (hL : L.Lenient) (ctx : LoopContext) (frame : Frame) :
    (takePicture ctx frame).Obeys L := by
  intro s t r s' h
  obtain ⟨t₁, x, s₁, t₂, rfl, h₁, h₂⟩ := ends_outcome_bind_iff.mp h
  have htaken := obeys_picture ctx _ _ _ _ h₁
  -- Taking the picture only calls, so that its failure can be given up for the calls alone.
  have hcalls := hL.toLiberal.calls htaken.1
  rcases x with (e | f | _) | url
  · exact hL.append hcalls (Act.obeys_log hL.toLiberal _ _ _ _ _ h₂)
  · exact hL.append hcalls (Act.obeys_log hL.toLiberal _ _ _ _ _ h₂)
  · exact absurd rfl (htaken.2 _ rfl).2
  · have hfile : (Act.emitOutputFile ctx frame url).Simple False ctx frame := .file url
    exact hL.append hcalls (hfile.obeys hL _ _ _ _ h₂)

theorem obeys_capture (hL : L.Lenient) (ctx : LoopContext) (frame : Frame) :
    (capture ctx frame).Obeys L :=
  Act.obeys_ite (obeys_takePicture hL ctx frame) (Act.obeys_pure hL.toSequential _)

/-! ### Steps -/

/-- Whether a step is skipped is decided without the help of anything outside. -/
theorem obeys_isSkipped (hs : L.Sequential)
    (hcall : ∀ {c : Call} {r : c.Reply}, c.Prompt → L [.call c r] none)
    (hfail : ∀ {e : Failure}, e.Own → L [] (some e)) (ctx : LoopContext) (step : Step) :
    (isSkipped ctx step).Obeys L := by
  have hprompt {c : Call} (hc : c.Prompt) : (Act.ask c).Obeys L := Act.obeys_ask fun _ => hcall hc
  exact .bind hs (hprompt ⟨trivial, id⟩) fun _ =>
    .bind hs (Act.obeys_ofExcept hs fun _ he => hfail (own_of_mapError he)) fun _ =>
    .bind hs (hprompt ⟨trivial, id⟩) fun _ =>
    .bind hs (Act.obeys_forM hs fun _ _ => hprompt ⟨trivial, id⟩) fun _ => Act.obeys_pure hs _

/-- To announce a step is to look at the clock and to offer its event. -/
theorem ends_announce {ctx : LoopContext} {step : Step} {s s' : LoopState} {t : List Deed}
    {result : Except Failure Unit} (h : (announce ctx step).Ends s t result s') :
    ∃ now e taken, t = [.call .now now, .call (.emit e) taken] ∧ e.type = .step ∧
      result = .ok () := by
  obtain ⟨now, t₁, rfl, h₁⟩ := Act.ends_ask_bind_iff.mp h
  obtain ⟨taken, t₂, rfl, h₂⟩ := Act.ends_ask_bind_iff.mp h₁
  obtain ⟨rfl, rfl, -⟩ := Act.ends_pure_iff.mp h₂
  exact ⟨now, _, taken, rfl, rfl, rfl⟩

/-- What follows an error is lawful by itself, and the error goes on unless that fails, too. -/
private theorem lawful_follow (hL : L.Lenient) {α : Type} {m : Act α} {f : α → Act Unit}
    (hm : m.Obeys L) {e : RunError} {s s' : LoopState} {t₁ t₂ : List Deed} {r : Except Failure Unit}
    (hdone : L t₁ (some (.error e))) (h : (m >>= f).Ends s t₂ r s')
    (hf : ∀ {t t' a s₁}, L t (some (.error e)) → (f a).Ends s₁ t' r s' →
      L (t ++ t') (failureOf r)) :
    L (t₁ ++ t₂) (failureOf r) := by
  rcases Act.ends_bind_iff.mp h with ⟨t₃, a, s₁, t₄, rfl, h₃, h₄⟩ | ⟨e', h₃, rfl⟩
  · rw [← List.append_assoc]
    exact hf (hL.after hdone nofun (hm _ _ _ _ h₃) (.inl ⟨rfl, nofun⟩)) h₄
  · exact hL.after hdone nofun (hm _ _ _ _ h₃) (.inr rfl)

private theorem lawful_fail {e : Failure} {s s' : LoopState} {t₁ t₂ : List Deed}
    {r : Except Failure Unit} (hdone : L t₁ (some e))
    (h : (Act.fail e : Act Unit).Ends s t₂ r s') : L (t₁ ++ t₂) (failureOf r) := by
  obtain ⟨rfl, rfl, -⟩ := Act.ends_fail_iff.mp h
  rw [List.append_nil]
  exact hdone

variable {r : Runner} {automation : Automation}

theorem obeys_runAction (hL : L.Steers r automation) (ctx : LoopContext) {step : Step}
    {action : ActionItem} (hstep : step ∈ automation.orderedSteps)
    (haction : action ∈ step.orderedActions) : (runAction r ctx step action).Obeys L := by
  refine Act.obeys_checkpoint_bind (fun _ => hL.stop) fun s t result s' h => ?_
  obtain ⟨t₁, x, s₁, t₂, rfl, h₁, h₂⟩ := ends_outcome_bind_iff.mp h
  have hdone := hL.act hstep haction h₁
  rw [← List.cons_append]
  rcases x with (e | f | _) | _
  · refine lawful_follow hL.toLenient (Act.obeys_log hL.toLiberal _) hdone h₂
      fun hdone' h₃ => ?_
    dsimp only at h₃
    split at h₃
    · refine lawful_follow hL.toLenient (obeys_capture hL.toLenient ctx _) hdone' h₃
        fun hdone'' h₄ => ?_
      exact lawful_fail hdone'' h₄
    · exact lawful_fail hdone' h₃
  · exact lawful_fail hdone h₂
  · exact lawful_fail hdone h₂
  · obtain ⟨rfl, rfl, -⟩ := Act.ends_pure_iff.mp h₂
    rw [List.append_nil]
    exact hdone

theorem obeys_runStep (hL : L.Steers r automation) (ctx : LoopContext) {step : Step}
    (hstep : step ∈ automation.orderedSteps) : (runStep r ctx step).Obeys L := by
  have hs := hL.toSequential
  refine Act.obeys_checkpoint_bind (fun _ => hL.stop) fun s t result s' h => ?_
  rcases Act.ends_bind_iff.mp h with ⟨t₁, skip, s₁, t₂, rfl, h₁, h₂⟩ | ⟨e, h₁, rfl⟩
  · have hprompt := obeys_isSkipped calling_sequential calling_one calling_fail ctx step _ _ _ _ h₁
    cases skip with
    | true =>
      obtain ⟨rfl, rfl, -⟩ := Act.ends_pure_iff.mp h₂
      exact hL.append (t := [_]) hL.go (hL.append
        (hL.toLiberal.calls fun d hd => plain_of_prompt (hprompt.1 d hd)) hL.nil)
    | false =>
      rcases Act.ends_bind_iff.mp h₂ with ⟨t₃, _, s₂, t₄, rfl, h₃, h₄⟩ | ⟨e, h₃, -⟩
      · obtain ⟨now, e, taken, rfl, he, -⟩ := ends_announce h₃
        have hcalls : ∀ d ∈ t₁ ++ [.call .now now], ∃ c r, d = .call c r ∧ c.Prompt := by
          intro d hd
          rcases List.mem_append.mp hd with hd | hd
          · exact hprompt.1 d hd
          · exact ⟨_, _, List.mem_singleton.mp hd, trivial, id⟩
        have hannounced : L (.call .cancellation none :: (t₁ ++ [.call .now now] ++
            [.call (.emit e) taken])) none :=
          hL.announce hcalls he
        have hactions := Act.obeys_forM hs (fun action haction =>
          obeys_runAction hL ctx hstep haction) _ _ _ _ h₄
        simpa using hL.append hannounced hactions
      · obtain ⟨-, -, -, -, -, hr⟩ := ends_announce h₃
        cases hr
  · exact hL.append (t := [_]) hL.go (obeys_isSkipped hs
      (fun hc => hL.call hc.1) hL.fail ctx step _ _ _ _ h₁)

theorem obeys_runSteps (hL : L.Steers r automation) (ctx : LoopContext) :
    (runSteps r ctx automation.orderedSteps).Obeys L := by
  have hs := hL.toSequential
  exact .bind hs (Act.obeys_forM hs fun step hstep => obeys_runStep hL ctx hstep) fun _ =>
    Act.obeys_ite (obeys_capture hL.toLenient ctx _) (Act.obeys_pure hs _)

/-- A session is opened before and closed after, however that ends. -/
theorem obeys_inSession (hL : L.Steers r automation) (loopIndex : Nat) {m : Act Unit}
    (hm : m.Obeys L) : (inSession r loopIndex m).Obeys L := by
  have hs := hL.toSequential
  refine Act.obeys_ite hm (.bind hs (Act.obeys_ask fun _ => hL.openSession) fun reply => ?_)
  cases reply with
  | error f => exact Act.obeys_own hL.toLiberal (Failure.own_error rfl)
  | ok =>
    intro s t result s' h
    obtain ⟨t₁, x, s₁, t₂, rfl, h₁, h₂⟩ := ends_outcome_bind_iff.mp h
    obtain ⟨_, t₃, rfl, h₃⟩ := Act.ends_ask_bind_iff.mp h₂
    obtain ⟨rfl, rfl, -⟩ := Act.ends_ofExcept_iff.mp h₃
    exact hL.close (hm _ _ _ _ h₁)

/-- A loop index obeys every law that steers it. -/
theorem lawful_run (hL : L.Steers r automation) {config : AutomationConfig} {runId : String}
    {loopIndex : Nat} {t : List Deed} {result : Except Failure Unit}
    (h : (run r automation config runId loopIndex).Ends t result) : L t (failureOf result) := by
  obtain ⟨now, t₁, rfl, h₁⟩ := Program.ends_ask_bind_iff.mp h
  obtain ⟨t₂, ⟨result', s⟩, t₃, rfl, h₂, h₃⟩ := Program.ends_bind_iff.mp h₁
  obtain ⟨rfl, rfl⟩ := Program.ends_pure_iff.mp h₃
  rw [List.append_nil]
  have hsteps := obeys_inSession hL loopIndex (obeys_runSteps hL _) _ _ _ _ h₂
  exact hL.append (t := [_]) (hL.call trivial) hsteps

end Loop

/-! ### Several loop indices -/

namespace Whole

variable {loop : Nat → Program (Except Failure Unit)} {runId : String}

theorem lawful_alongside (hL : L.Lenient) {i : Nat}
    (hloop : ∀ t result, (loop i).Ends t result → L t (failureOf result)) {t : List Deed}
    {o : Option Failure} (h : (alongside loop runId i).Ends t o) : L t o := by
  obtain ⟨t₁, result, t₂, rfl, h₁, h₂⟩ := Program.ends_bind_iff.mp h
  have hdone := hloop _ _ h₁
  rcases result with (e | f | _) | _
  · obtain ⟨_, t₃, rfl, h₃⟩ := Program.ends_ask_bind_iff.mp h₂
    obtain ⟨rfl, rfl⟩ := Program.ends_pure_iff.mp h₃
    exact hL.after hdone nofun (hL.call (c := .log _) trivial) (.inl ⟨rfl, nofun⟩)
  all_goals
    obtain ⟨rfl, rfl⟩ := Program.ends_pure_iff.mp h₂
    rw [List.append_nil]
    exact hdone

theorem lawful_delay (hL : L.Lenient) {ms : Nat} {t : List Deed} {result : Except Failure Unit}
    (h : (delay ms).Ends t result) : L t (failureOf result) := by
  unfold delay at h
  split at h
  · obtain ⟨rfl, rfl⟩ := Program.ends_pure_iff.mp h
    exact hL.nil
  · split at h
    · obtain ⟨rfl, rfl⟩ := Program.ends_pure_iff.mp h
      exact hL.fail (Failure.own_fault _)
    · obtain ⟨wake, t₁, rfl, h₁⟩ := Program.ends_await_bind_iff.mp h
      cases wake <;> obtain ⟨rfl, rfl⟩ := Program.ends_pure_iff.mp h₁
      · exact hL.sleep
      · exact hL.interrupted

/-- One after another, loop indices obey every lenient law that each of them obeys. -/
theorem lawful_sequentially (hL : L.Lenient)
    (hloop : ∀ i t result, (loop i).Ends t result → L t (failureOf result)) {delayMs : Nat}
    {remaining i : Nat} {t : List Deed} {result : Except Failure (Option RunError)}
    (h : (sequentially loop runId delayMs i remaining).Ends t result) : L t (raisedOf result) := by
  have hknown {i : Nat} {e : RunError} {t₁ t₂ : List Deed} (hdone : L t₁ (some (.error e)))
      (h : (do
        logLoopFailed runId i e
        return .ok (some e) : Program (Except Failure (Option RunError))).Ends t₂ result) :
      L (t₁ ++ t₂) (raisedOf result) := by
    obtain ⟨_, t₃, rfl, h₃⟩ := Program.ends_ask_bind_iff.mp h
    obtain ⟨rfl, rfl⟩ := Program.ends_pure_iff.mp h₃
    exact hL.after hdone nofun (hL.call (c := .log _) trivial) (.inl ⟨rfl, nofun⟩)
  have hother {e : Failure} {t₁ t₂ : List Deed} (hdone : L t₁ (some e))
      (h : (pure (.error e) : Program (Except Failure (Option RunError))).Ends t₂ result) :
      L (t₁ ++ t₂) (raisedOf result) := by
    obtain ⟨rfl, rfl⟩ := Program.ends_pure_iff.mp h
    rw [List.append_nil]
    exact hdone
  induction remaining generalizing i t with
  | zero =>
    rw [sequentially] at h
    obtain ⟨t₁, x, t₂, rfl, h₁, h₂⟩ := Program.ends_bind_iff.mp h
    have hdone := hloop i _ _ h₁
    rcases x with (e | f | _) | _
    · exact hknown hdone h₂
    · exact hother hdone h₂
    · exact hother hdone h₂
    · obtain ⟨rfl, rfl⟩ := Program.ends_pure_iff.mp h₂
      rw [List.append_nil]
      exact hdone
  | succ remaining ih =>
    rw [sequentially] at h
    obtain ⟨t₁, x, t₂, rfl, h₁, h₂⟩ := Program.ends_bind_iff.mp h
    have hdone := hloop i _ _ h₁
    rcases x with (e | f | _) | _
    · exact hknown hdone h₂
    · exact hother hdone h₂
    · exact hother hdone h₂
    · obtain ⟨t₃, y, t₄, rfl, h₃, h₄⟩ := Program.ends_bind_iff.mp h₂
      have hdelayed := lawful_delay hL h₃
      rw [← List.append_assoc]
      cases y with
      | error e =>
        exact hother (hL.append hdone hdelayed) h₄
      | ok =>
        exact hL.append (hL.append hdone hdelayed) (ih h₄)

end Whole

end Runbook
