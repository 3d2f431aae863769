import Runbook.Proofs.Pictures
import Runbook.Proofs.Resolution
import Runbook.Proofs.Simple

/-!
# Runs that go on alike

A run is robust when none of its actions takes pictures or concerns stored files, and when nothing
is drawn for the path under which pictures are stored. Its actions make ordinary calls only, and
all that it does for the run store, the notifier and automatic pictures are detours.

This is shown in the order in which a run is put together: for simple actions and for the two
control actions, given that what they hold is robust; level by level for what they hold; for steps
and loop indices; and for the run as a whole until it is concluded.

* `Modest automation`: the actions of an automation and the path of its pictures are of this kind.
* `Act.Simple.robust`, `IfElse.robust_behave`, `LoopUntil.robust_behave`: what actions do.
* `Action.robust_dispatch`: a dispatch of an action that is written in the definition.
* `Loop.robust_run`, `Whole.robust_loopProgram`: a loop index, in the main task and beside it.
* `Whole.robust_run`: a run until it is concluded.
-/

namespace Runbook

open Schedule

variable {α : Type} {ctx : LoopContext} {frame : Frame}

/-! ### Simple actions -/

theorem Call.Frugal.ordinary {c : Call} (h : c.Frugal) : c.Ordinary := by
  cases c <;> trivial

theorem Act.Simple.robust {m : Act α} (h : m.Simple False ctx frame) : m.Robust := by
  induction h with
  | pure a => exact robust_pure a
  | bind _ _ ihm ihf => exact ihm.bind ihf
  | calls hp => exact robust_lift (hp.mono (fun _ => Call.Frugal.ordinary) fun _ => id).robust
  | stored hstores => exact hstores.elim
  | fail => exact robust_fail _
  | read => exact robust_get
  | write => exact robust_modify _
  | sleep ms => exact robust_await trivial
  | file url => exact robust_emit _ _ _ _

theorem Work.Simple.robust {m : Work α} (h : m.Simple False ctx frame) : m.Robust := by
  induction h with
  | pure a => exact robust_pure a
  | bind _ _ ihm ihg => exact ihm.bind ihg
  | lift hm => exact robust_lift hm.robust
  | throw => exact robust_throw _
  | read => exact robust_read
  | report g => exact robust_report g

/-! ### Nested actions -/

section Nested

variable {nested : Dispatcher}

namespace Action

theorem robust_runEntries {idStem : String} {checkpoint : Option String} {n : Nat}
    {entries : List Json}
    (h : ∀ {j entry a}, entries[j]? = some entry →
      NestedAction.ofEntry? entry s!"{idStem}-{n + j}" = some a →
      (nested (frame.child a.id a.actionType a.name) a.config).Robust) :
    (runEntries nested frame idStem checkpoint n entries).Robust := by
  induction entries generalizing n with
  | nil => exact Act.robust_pure _
  | cons entry rest ih =>
    have hrest : (runEntries nested frame idStem checkpoint (n + 1) rest).Robust :=
      ih fun {j} _ _ hj ha => h (j := j + 1) hj (by rwa [show n + (j + 1) = n + 1 + j by omega])
    unfold runEntries
    cases ha : NestedAction.ofEntry? entry s!"{idStem}-{n}" with
    | none =>
      have hlogged (r : LogRecord) := (Act.robust_log r).bind fun _ => hrest
      cases checkpoint with
      | none => exact hlogged _
      | some message => exact (Act.robust_checkpoint message).bind fun _ => hlogged _
    | some a =>
      have hdone := (h (j := 0) rfl ha).bind fun _ => hrest
      cases checkpoint with
      | none => exact hdone
      | some message => exact (Act.robust_checkpoint message).bind fun _ => hdone

theorem robust_runNested {items : Json} {idStem : String} {checkpoint : Option String}
    (h : ∀ {a}, IsEntry items idStem a →
      (nested (frame.child a.id a.actionType a.name) a.config).Robust) :
    (runNested nested frame items idStem checkpoint).Robust :=
  Act.robust_ofExcept_bind fun entries hentries => robust_runEntries fun {j entry a} hj ha =>
    h ⟨entries, j, entry, eq_ok_of_mapError hentries, hj, by rwa [Nat.zero_add] at ha⟩

end Action

/-! ### Branching -/

namespace IfElse

theorem robust_runAlternatives {idStem : String} {index : Nat} {alternatives : List Json}
    (h : ∀ {j entry found a}, alternatives[j]? = some entry →
      Alternative.ofEntry entry = .ok (some found) →
      Action.IsEntry found.actions s!"{idStem}-else_if-{index + j}" a →
      (nested (frame.child a.id a.actionType a.name) a.config).Robust) :
    (runAlternatives ctx nested frame idStem index alternatives).Robust := by
  induction alternatives generalizing index with
  | nil => exact Work.robust_pure _
  | cons entry rest ih =>
    have hrest : (runAlternatives ctx nested frame idStem (index + 1) rest).Robust :=
      ih fun {j} _ _ _ hj hfound ha =>
        h (j := j + 1) hj hfound (by rwa [show index + (j + 1) = index + 1 + j by omega])
    have hwarned (event : String) (more : Fields) : (do
        Work.lift (warn event frame index more)
        runAlternatives ctx nested frame idStem (index + 1) rest).Robust :=
      (Work.robust_lift (Act.robust_log _)).bind fun _ => hrest
    unfold runAlternatives
    refine Work.robust_ofExcept_bind fun found? hfound? => ?_
    cases found? with
    | none => exact hwarned _ _
    | some found =>
      refine (Work.robust_lift (Act.robust_ask (c := .page _ _) trivial)).bind fun reply => ?_
      cases reply with
      | error f => exact hwarned _ _
      | ok reply =>
        refine Work.robust_ite ?_ hrest
        refine (Work.robust_report _).bind fun _ => (Work.robust_lift ?_).bind fun _ =>
          Work.robust_pure _
        exact Action.robust_runNested fun ha => h (j := 0) rfl (eq_ok_of_mapError hfound?) ha

/-- A branching action is robust when what it holds is. -/
theorem robust_behave {params : Fields}
    (h : ∀ {a}, Holds frame params a →
      (nested (frame.child a.id a.actionType a.name) a.config).Robust) :
    (behave ctx nested frame params).Robust := by
  have hbranch : (runBranch ctx nested frame params (idStem frame)).Robust := by
    refine Work.robust_ofExcept_bind fun state _ => ?_
    have hasked : (Browser.request "playwright:if_else" ctx
        (question (Browser.param params "selector") state)).Simple False ctx frame :=
      Browser.simple_request _ _
    refine hasked.robust.bind fun reply => Work.robust_ite ?_ ?_
    · exact (Work.robust_report _).bind fun _ =>
        Work.robust_lift (Action.robust_runNested fun ha => h (.if ha))
    · have hothers : (runAlternatives ctx nested frame (idStem frame) 0
          (Fields.listAt params "else_if_conditions")).Robust :=
        robust_runAlternatives fun {j} _ _ _ hj hfound ha =>
          h (.alternative hj hfound (by rwa [Nat.zero_add] at ha))
      refine hothers.bind fun found => Work.robust_ite ?_ (Work.robust_pure _)
      refine Work.robust_ite ?_ (Work.robust_pure _)
      exact (Work.robust_report _).bind fun _ =>
        Work.robust_lift (Action.robust_runNested fun ha => h (.else ha))
  refine (Work.robust_attempt hbranch).bind fun branchFailure => ?_
  refine (Work.robust_attempt (Work.robust_lift
    (Action.robust_runNested fun ha => h (.final ha)))).bind fun finalFailure => ?_
  cases branchFailure <;> cases finalFailure
  · exact Work.robust_pure _
  · exact Work.robust_throw _
  · exact Work.robust_throw _
  · exact (Work.robust_lift (Act.robust_log _)).bind fun _ => Work.robust_throw _

end IfElse

/-! ### Bounded loops -/

namespace LoopUntil

theorem robust_conditionMet (loop : Loop) : (conditionMet ctx frame loop).Robust := by
  have hfailed (r : LogRecord) : (do
      Work.lift (Act.log r)
      return false : Work Bool).Robust :=
    (Work.robust_lift (Act.robust_log r)).bind fun _ => Work.robust_pure _
  unfold conditionMet
  split
  · exact Work.robust_pure _
  · refine Work.robust_ite (Work.robust_pure _) (Work.robust_ite (hfailed _) ?_)
    refine (Work.robust_lift (Act.robust_ask (c := .page _ _) trivial)).bind fun reply => ?_
    cases reply with
    | ok reply => exact Work.robust_pure _
    | error f => exact hfailed _

theorem robust_exit (iterations : Nat) (reason : String) : (exit iterations reason).Robust :=
  (Work.robust_report _).bind fun _ => Work.robust_pure _

theorem robust_forceStop (loop : Loop) (iterations : Nat) (reasons : List String) :
    (forceStop frame loop iterations reasons).Robust :=
  Work.robust_ite (Work.robust_throw _) (robust_exit _ _)

theorem robust_begin (loop : Loop) (started : Rat) (iterations : Nat)
    {goOn : List String → Work String} (h : ∀ reasons, (goOn reasons).Robust) :
    (begin ctx frame loop started iterations goOn).Robust := by
  refine (Work.robust_lift (Act.robust_checkpoint _)).bind fun _ => ?_
  refine (Work.robust_lift (Act.robust_modify _)).bind fun _ => ?_
  refine (robust_conditionMet loop).bind fun met => Work.robust_ite (robust_exit _ _) ?_
  exact (Work.robust_lift (Act.robust_ask (c := .now) trivial)).bind fun now => h _

theorem robust_iterate {loop : Loop}
    (h : ∀ {n a}, Action.IsEntry loop.actions s!"{frame.actionId}-loop-{n + 1}" a →
      (nested (frame.child a.id a.actionType a.name) a.config).Robust)
    (started : Rat) (remaining iterations : Nat) :
    (iterate ctx nested frame loop started remaining iterations).Robust := by
  induction remaining generalizing iterations with
  | zero => exact robust_begin _ _ _ fun _ => robust_forceStop _ _ _
  | succ remaining ih =>
    refine robust_begin _ _ _ fun reasons => Work.robust_ite (robust_forceStop _ _ _) ?_
    refine (Work.robust_lift (Action.robust_runNested h)).bind fun _ => ?_
    exact (Work.robust_report _).bind fun _ =>
      (Work.robust_lift (Act.robust_await (w := .sleep _) trivial)).bind fun _ =>
        ih (iterations + 1)

/-- A loop is robust when what it holds is. -/
theorem robust_behave {params : Fields}
    (h : ∀ {a}, Holds frame params a →
      (nested (frame.child a.id a.actionType a.name) a.config).Robust) :
    (behave ctx nested frame params).Robust :=
  (Work.robust_lift (Act.robust_ask (c := .now) trivial)).bind fun started =>
    Work.robust_restoringLocalIndex (robust_iterate (fun {n _} ha => h ⟨n, ha⟩) started _ _)

end LoopUntil

end Nested

/-! ### Dispatches -/

/-- An execution is robust when what the action does is. -/
theorem ActionKind.robust_execute {kind : ActionKind} {nested : Dispatcher} {config : Json}
    (h : ∀ params, kind.validate config = .ok params →
      (kind.behave ctx nested frame params).Robust) :
    (kind.execute ctx nested frame config).Robust := by
  have hconclude (started : Rat) (report : Fields) (type : EventType)
      (content : RunEvent → RunEvent) :
      (kind.conclude ctx frame started report type content).Robust :=
    (Act.robust_ask (c := .now) trivial).bind fun _ => Act.robust_emit _ _ _ _
  have hfailed (started : Rat) (report : Fields) (error : RunError) : (do
      kind.conclude ctx frame started report .error fun e => { e with error := error.message }
      Act.fail (.error error) : Act Unit).Robust :=
    (hconclude _ _ _ _).bind fun _ => Act.robust_fail _
  refine Act.robust_ofExcept_bind fun params hvalid => ?_
  refine (Act.robust_ask (c := .now) trivial).bind fun started => ?_
  have hbehave : Act.Robust
      (ExceptT.lift ((kind.behave ctx nested frame params).run.run kind.firstReport)) :=
    fun s => (h params hvalid kind.firstReport s).bind fun _ => Program.robust_pure _
  refine hbehave.bind fun x => ?_
  obtain ⟨(error | fault | _) | message, report⟩ := x
  · exact hfailed _ _ _
  · exact hfailed _ _ _
  · exact Act.robust_fail _
  · exact hconclude _ _ _ _

/-- The actions of an automation neither take pictures nor concern stored files, and nothing is
drawn for the path under which its pictures are stored. -/
structure Modest (automation : Automation) : Prop where
  frugal {run : Running} : Written automation run →
    run.frame.actionType ∉ Catalogue.storingTypes
  undrawn {config : AutomationConfig} : AutomationConfig.parse automation.config = .ok config →
    Template.Undrawn config config.screenshots.path

variable {automation : Automation}

/-- What an action of such an automation does is robust when what it holds is. -/
theorem Catalogue.robust_behave {kind : ActionKind} (hkind : kind ∈ kinds)
    (hfrugal : kind.type ∉ storingTypes) {nested : Dispatcher} {params : Fields}
    (hbranch : ∀ {a}, kind.type = "playwright:if_else" → IfElse.Holds frame params a →
      (nested (frame.child a.id a.actionType a.name) a.config).Robust)
    (hloop : ∀ {a}, kind.type = "playwright:loop_until" → LoopUntil.Holds frame params a →
      (nested (frame.child a.id a.actionType a.name) a.config).Robust) :
    (kind.behave ctx nested frame params).Robust := by
  simp only [kinds, List.mem_append, List.mem_cons, List.not_mem_nil, or_false] at hkind
  rcases hkind with ((hkind | rfl | rfl) | hkind) | hkind
  · have hsimple := Browser.simple_of_mem kind hkind fun h => hfrugal (List.mem_cons.mpr (.inl h))
    exact (hsimple.behave ..).robust
  · exact IfElse.robust_behave fun ha => hbranch rfl ha
  · exact LoopUntil.robust_behave fun ha => hloop rfl ha
  · exact ((Api.simple_of_mem kind hkind).behave ..).robust
  · exact absurd (List.mem_cons_of_mem _ (List.mem_map_of_mem hkind)) hfrugal

namespace Action

theorem robust_dispatchWithin (hmodest : Modest automation) (levels : Nat) {run : Running}
    (hrun : Written automation run) :
    (dispatchWithin Catalogue.registry ctx levels run.frame run.config).Robust := by
  induction levels generalizing run with
  | zero => exact Act.robust_fail _
  | succ levels ih =>
    refine (Act.robust_ask (c := .dispatched _ _ _) trivial).bind fun _ => ?_
    refine Act.robust_ofExcept_bind fun kind hget => ?_
    obtain ⟨hkind, htype⟩ := Catalogue.mem_of_get hget
    refine (Act.robust_resolving ctx _).bind_of_ends fun h => ?_
    obtain ⟨-, globals, now, -, ⟨resolved, heq, hgives⟩ | ⟨e, heq⟩⟩ := Act.ends_resolving h
    case inr => cases heq
    obtain rfl := Except.ok.inj heq
    obtain ⟨fields, rfl, hrewritten⟩ := Template.rewritten_of_gives hgives
    refine ActionKind.robust_execute fun params hvalid => ?_
    refine Catalogue.robust_behave hkind (htype ▸ hmodest.frugal hrun) (fun hbranch ha => ?_)
      fun hloop ha => ?_
    · have heq := htype.symm.trans hbranch
      rw [heq, Catalogue.get_ifElse] at hget
      cases hget
      exact ih (.branch hrun heq (IfElse.lists_of_holds hrewritten hvalid ha))
    · have heq := htype.symm.trans hloop
      rw [heq, Catalogue.get_loopUntil] at hget
      cases hget
      exact ih (.iteration hrun heq (LoopUntil.holds_of_holds hrewritten hvalid ha))

/-- An action that is written in the definition is robust. -/
theorem robust_dispatch (hmodest : Modest automation) {run : Running}
    (hrun : Written automation run) :
    (dispatch Catalogue.registry ctx run.frame run.config).Robust :=
  robust_dispatchWithin hmodest _ hrun

end Action

/-! ### Loop indices -/

/-- A detour that does not fail. -/
theorem Act.Spare.robust {m : Act Unit} (hm : m.Spare fun _ => False) : m.Robust := by
  intro s
  refine Program.Spare.robust (a := (.ok (), s)) ((hm s).mono fun x hx => ?_)
  obtain ⟨e | _, s₁⟩ := x
  · exact (hx.1 e rfl).elim
  · exact Prod.ext rfl hx.2

namespace Loop

theorem robust_isSkipped (step : Step) : (isSkipped ctx step).Robust :=
  (Act.robust_ask (c := .chance) trivial).bind fun _ => (Act.robust_ofExcept _).bind fun _ =>
    (Act.robust_ask (c := .setChance _) trivial).bind fun _ =>
      (Act.robust_forM fun r _ => Act.robust_log r).bind fun _ => Act.robust_pure _

theorem robust_announce (step : Step) : (announce ctx step).Robust :=
  (Act.robust_ask (c := .now) trivial).bind fun _ _ => .emit (Program.robust_pure _)

section Steps

variable {r : Runner} (hregistry : r.registry = Catalogue.registry) (hmodest : Modest automation)
  (hparse : AutomationConfig.parse automation.config = .ok ctx.config)
  (hstatic : ctx.staticVars = staticVars ctx.config.declared)

include hmodest hparse hstatic

theorem robust_capture (frame : Frame) : (capture ctx frame).Robust :=
  (spare_capture hstatic (hmodest.undrawn hparse) frame).robust

include hregistry

theorem robust_runAction {step : Step} {action : ActionItem}
    (hstep : step ∈ automation.orderedSteps) (haction : action ∈ step.orderedActions) :
    (runAction r ctx step action).Robust := by
  refine (Act.robust_checkpoint _).bind fun _ => ?_
  rw [hregistry]
  have hdispatch : (Action.dispatch Catalogue.registry ctx (frameOf step action)
      action.config).Robust :=
    Action.robust_dispatch hmodest (.action hstep haction)
  refine (Act.robust_outcome hdispatch).bind fun result => ?_
  rcases result with (e | f | _) | _
  · refine (Act.robust_log _).bind fun _ => ?_
    exact Act.robust_ite ((robust_capture hmodest hparse hstatic _).bind fun _ =>
      Act.robust_fail _) (Act.robust_fail _)
  · exact Act.robust_fail _
  · exact Act.robust_fail _
  · exact Act.robust_pure _

theorem robust_runStep {step : Step} (hstep : step ∈ automation.orderedSteps) :
    (runStep r ctx step).Robust := by
  refine (Act.robust_checkpoint _).bind fun _ => (robust_isSkipped step).bind fun skipped => ?_
  refine Act.robust_ite (Act.robust_pure _) ?_
  refine (robust_announce step).bind fun _ => Act.robust_forM fun action haction => ?_
  exact robust_runAction hregistry hmodest hparse hstatic hstep haction

theorem robust_runSteps : (runSteps r ctx automation.orderedSteps).Robust := by
  refine (Act.robust_forM fun step hstep =>
    robust_runStep hregistry hmodest hparse hstatic hstep).bind fun _ => ?_
  exact Act.robust_ite (robust_capture hmodest hparse hstatic _) (Act.robust_pure _)

end Steps

theorem robust_inSession (r : Runner) (n : Nat) {m : Act Unit} (hm : m.Robust) :
    (inSession r n m).Robust := by
  refine Act.robust_ite hm ?_
  refine (Act.robust_ask (c := .openSession n) trivial).bind fun reply => ?_
  cases reply with
  | error f => exact Act.robust_fail _
  | ok =>
    refine (Act.robust_outcome hm).bind fun result => ?_
    exact (Act.robust_ask (c := .closeSession n) trivial).bind fun _ => Act.robust_ofExcept _

/-- A loop index is robust. -/
theorem robust_run {r : Runner} (hregistry : r.registry = Catalogue.registry)
    (hmodest : Modest automation) {config : AutomationConfig}
    (hparse : AutomationConfig.parse automation.config = .ok config) (runId : String) (n : Nat) :
    (run r automation config runId n).Robust Program.IsDone := by
  refine .call (c := .now) trivial fun now => ?_
  have hsteps : (runSteps r (contextOf r automation config runId n now)
      automation.orderedSteps).Robust :=
    robust_runSteps hregistry hmodest hparse rfl
  exact (robust_inSession r n hsteps {}).bind fun _ => Program.robust_pure _

end Loop

/-! ### Whole runs -/

namespace Whole

variable {loop : Nat → Program (Except Failure Unit)}
  (hloop : ∀ i, (loop i).Robust Program.IsDone)

theorem robust_logLoopFailed (runId : String) (i : Nat) (e : RunError) :
    (logLoopFailed runId i e).Robust Program.IsDone :=
  Program.robust_ask (c := .log _) trivial

theorem robust_delay (ms : Nat) : (delay ms).Robust Program.IsDone := by
  unfold delay
  split
  · exact Program.robust_pure _
  · split
    · exact Program.robust_pure _
    · refine (Program.robust_await (w := .sleep _) trivial).bind fun wake => ?_
      cases wake <;> exact Program.robust_pure _

include hloop

theorem robust_sequentially (runId : String) (delayMs i remaining : Nat) :
    (sequentially loop runId delayMs i remaining).Robust Program.IsDone := by
  induction remaining generalizing i with
  | zero =>
    rw [sequentially]
    refine (hloop i).bind fun result => ?_
    rcases result with (e | f | _) | _
    · exact (robust_logLoopFailed ..).bind fun _ => Program.robust_pure _
    all_goals exact Program.robust_pure _
  | succ remaining ih =>
    rw [sequentially]
    refine (hloop i).bind fun result => ?_
    rcases result with (e | f | _) | _
    · exact (robust_logLoopFailed ..).bind fun _ => Program.robust_pure _
    · exact Program.robust_pure _
    · exact Program.robust_pure _
    · refine (robust_delay delayMs).bind fun x => ?_
      cases x with
      | error e => exact Program.robust_pure _
      | ok => exact ih (i + 1)

theorem robust_alongside (runId : String) (i : Nat) :
    (alongside loop runId i).Robust Program.IsDone := by
  refine (hloop i).bind fun result => ?_
  rcases result with (e | f | _) | _
  · exact (robust_logLoopFailed ..).bind fun _ => Program.robust_pure _
  all_goals exact Program.robust_pure _

theorem robust_loops (config : AutomationConfig) (runId : String) :
    (loops loop config runId).Robust Program.IsDone := by
  refine (Program.robust_ask (c := .armTimeout _ _) trivial).bind fun _ => ?_
  have hafter (result : Except Failure (Option RunError)) : (do
      Program.ask .disarmTimeout
      return result : Program (Except Failure (Option RunError))).Robust Program.IsDone :=
    (Program.robust_ask (c := .disarmTimeout) trivial).bind fun _ => Program.robust_pure _
  cases config.runMode with
  | sequential => exact (robust_sequentially hloop _ _ _ _).bind hafter
  | parallel =>
    have hresult : (allAtOnce config.runCount).Robust Program.IsDone := by
      refine (Program.robust_await (w := .loops _) trivial).bind fun wake => ?_
      cases wake with
      | interrupted => exact Program.robust_pure _
      | resumed =>
        exact (Program.robust_ask (c := .outcomes) trivial).bind fun _ => Program.robust_pure _
    exact hresult.bind hafter

omit hloop in
/-- Saving a record is a detour, whether it can be saved or not. -/
theorem spare_save (r : RunRecord) : (save r).Spare (· = .resumed) := by
  refine .call (c := .save r) trivial fun reply => .store ?_
  cases reply with
  | ok => exact .done rfl
  | error f => exact .call (c := .log _) trivial fun _ => .done rfl

section Runs

variable {r : Runner} (hregistry : r.registry = Catalogue.registry) (hmodest : Modest automation)

include hregistry hmodest

omit hloop in
/-- The program of a loop index that runs beside others is robust. -/
theorem robust_loopProgram (runId : String) (i : Nat) :
    (loopProgram r automation runId i).Robust Program.IsDone := by
  unfold loopProgram
  cases hparse : AutomationConfig.parse automation.config with
  | ok config =>
    exact robust_alongside (Loop.robust_run hregistry hmodest hparse runId) runId i
  | error => exact Program.robust_pure _

/-- A run comes to its conclusion. -/
def Concludes (automation : Automation) (record : RunRecord) (p : Program Ended) : Prop :=
  ∃ now channels result, p = conclude automation (begun record now) channels result

omit hloop in
/-- **Robustness.** A run goes on alike until it is concluded. -/
theorem robust_run (record : RunRecord) :
    (run r automation record).Robust (Concludes automation record) := by
  refine .call (c := .now) trivial fun now => ?_
  have hconcludes (channels : List Channel) (result : Except Failure (Option RunError)) :
      (conclude automation (begun record now) channels result).Robust
        (Concludes automation record) :=
    .final ⟨now, channels, result, rfl⟩
  have hexecute : (execute r automation (begun record now)).Robust
      (Concludes automation record) := by
    refine (Program.robust_ask (c := .startAggregator _) trivial).bind fun _ => ?_
    cases hparse : AutomationConfig.parse automation.config with
    | ok config =>
      have hloops := robust_loops (Loop.robust_run hregistry hmodest hparse record.id) config
        record.id
      exact hloops.bind (hconcludes config.notifications)
    | error fault =>
      cases fault with
      | unwritable type => exact hconcludes [] _
      | _ => exact (Program.robust_ask (c := .log _) trivial).bind fun _ => hconcludes [] _
  change (save (begun record now) >>= _).Robust _
  exact .detour (spare_save _) hexecute

end Runs

end Whole

end Runbook
