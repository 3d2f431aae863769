import Runbook.Proofs.Likeness
import Runbook.Proofs.Resolution
import Runbook.Proofs.Steadiness
import Runbook.Proofs.Steps
import Runbook.Proofs.Succession

/-!
# Loop indices in lockstep

An action is settled when all that it does is a matter of its page and of its variables: it neither
stores anything nor sends requests, its texts are steady, and it goes round without a bound on the
time. A loop index whose actions are settled goes on alike in all surroundings. That is shown for
the actions on the page first, which do the same whenever they are told the same, then for the two
control actions, given that what they hold is alike, and level by level for what they hold. It is
all the same whether both runs have the same timestamp and the same source of sample data.

* `LoopContext.varied`: a context with another timestamp and other sample data.
* `Settled automation config`: the actions and steps of an automation are settled.
* `Browser.alike`, `IfElse.alike_behave`, `LoopUntil.alike_behave`: what kinds of action do.
* `Action.alike_dispatch`: a dispatch of an action that is written in the definition.
* `Loop.alike_run`: a loop index as a whole.
-/

namespace Runbook

open Schedule

variable {σ β : Type} {env : Collaborators σ} {W : Watch env β}

/-- A context with another timestamp and other sample data. -/
def LoopContext.varied (ctx : LoopContext) (timestamp : String) (data : SampleData) :
    LoopContext :=
  { ctx with timestamp, data }

/-! ### Resolutions -/

theorem Act.Consults.silent {globals : Fields} {now : Rat} {t : List Deed}
    (h : Consults globals now t) : ∀ d ∈ t, d.Silent := by
  obtain ⟨chance, chance', logs, rfl⟩ := h
  refine List.forall_mem_append.mpr ⟨by simp [Deed.Silent, Call.Silent], fun d hd => ?_⟩
  obtain ⟨r, -, rfl⟩ := List.mem_map.mp hd
  trivial

section Context

variable {ctx : LoopContext} {timestamp : String} {data : SampleData}

/-- Resolutions are alike when they agree at every moment. -/
theorem Act.alike_resolving {α : Type} {i : Int} (hW : W.Minds i)
    {m : Template.Environment → Template.ResolveM α}
    (hm : ∀ s globals now now', Template.Agree (m (environment ctx s globals now))
      (m (environment (ctx.varied timestamp data) s globals now'))) :
    (resolving ctx m).Alike W i (resolving (ctx.varied timestamp data) m) := by
  refine alike_of_silent hW (fun h => ?_) (fun h => ?_) fun h h' hfits hfits' => ?_
  · obtain ⟨-, globals, now, d, ht, -⟩ := ends_resolving_run h
    exact ht.silent
  · obtain ⟨-, globals, now, d, ht, -⟩ := ends_resolving_run h
    exact ht.silent
  · obtain ⟨rfl, globals, now, d, ht, rfl⟩ := ends_resolving_run h
    obtain ⟨rfl, globals', now', d', ht', rfl⟩ := ends_resolving_run h'
    -- Both look at the shared variables first, and find the same.
    have hglobals : globals = globals' := by
      obtain ⟨_, _, _, rfl⟩ := ht
      obtain ⟨_, _, _, rfl⟩ := ht'
      obtain ⟨s, hs, rfl⟩ := hfits.reply
      obtain ⟨s', hs', rfl⟩ := hfits'.reply
      exact hW.settles (c := .globals) trivial (hs.trans hs'.symm)
    subst hglobals
    refine ⟨?_, rfl⟩
    rw [hm _ globals now now' d d']

/-! ### Actions on the page -/

namespace Browser

section Fixed

variable {i : Int} (hi : ctx.loopIndex = i)

theorem fixed_requirePage (type : String) : (requirePage type ctx).Obeys (Fixed i) :=
  Work.obeys_ite (Work.obeys_pure (fixed_sequential i) _)
    (Work.obeys_lift (Act.obeys_fail (List.forall_mem_nil _)))

include hi in
theorem fixed_request (type : String) (c : PageCall) : (request type ctx c).Obeys (Fixed i) := by
  have hs := fixed_sequential i
  refine .bind hs (fixed_requirePage type) fun _ => Work.obeys_lift (Act.obeys_attempt hs ?_ ?_)
  · intro t x h
    obtain rfl := Program.ends_ask_iff.mp h
    exact List.forall_mem_singleton.mpr hi
  · exact fun _ => List.forall_mem_nil _

theorem fixed_save {params : Fields} (hscope : Fields.textAt params "scope" ≠ "global")
    (value : Json) : (save params value).Obeys (Fixed i) := by
  have hs := fixed_sequential i
  refine Work.obeys_ite (Work.obeys_lift ?_) (Work.obeys_pure hs _)
  rw [Scope.ofWord, if_neg hscope]
  exact Act.obeys_modify hs _

include hi in
theorem fixed_single (type : String) (c : PageCall) (message : String) :
    (do
      let _ ← request type ctx c
      return message : Work String).Obeys (Fixed i) :=
  .bind (fixed_sequential i) (fixed_request hi type c) fun _ =>
    Work.obeys_pure (fixed_sequential i) _

include hi in
theorem fixed_scroll (nested : Dispatcher) (frame : Frame) (params : Fields) :
    (scroll.behave ctx nested frame params).Obeys (Fixed i) :=
  Work.obeys_ite (fixed_single hi _ _ _) (fixed_single hi _ _ _)

include hi in
theorem fixed_waitForTimeout (nested : Dispatcher) (frame : Frame) (params : Fields) :
    (waitForTimeout.behave ctx nested frame params).Obeys (Fixed i) := by
  have hs := fixed_sequential i
  have hsleep (ms : Rat) (wake : Wake) : ∀ d ∈ [Deed.wait (.sleep ms), .wake wake], d.Fixed i :=
    List.forall_mem_cons.mpr ⟨⟨ms, rfl⟩, List.forall_mem_singleton.mpr trivial⟩
  exact .bind hs (fixed_request hi _ _) fun _ =>
    .bind hs (Work.obeys_lift (Act.obeys_await (hsleep _ _) (hsleep _ _))) fun _ =>
      Work.obeys_pure hs _

include hi in
/-- An action that asks its page for something and may keep it. -/
theorem fixed_kept (type : String) (c : PageCall) {params : Fields}
    (hscope : Fields.textAt params "scope" ≠ "global") (value : Json → Json)
    (message : Json → String) :
    (do
      let reply ← request type ctx c
      save params (value reply)
      return message reply : Work String).Obeys (Fixed i) := by
  have hs := fixed_sequential i
  exact .bind hs (fixed_request hi _ _) fun reply => .bind hs (fixed_save hscope _) fun _ =>
    Work.obeys_pure hs _

theorem fixed_log (nested : Dispatcher) (frame : Frame) (params : Fields) :
    (log.behave ctx nested frame params).Obeys (Fixed i) := by
  have hs := fixed_sequential i
  exact .bind hs (Work.obeys_lift (Act.obeys_ask fun _ => List.forall_mem_singleton.mpr trivial))
    fun _ => Work.obeys_pure hs _

end Fixed

/-- What an action on the page does is a matter of its page and of the variables, unless it takes a
picture or keeps something in a shared variable. -/
theorem fixed {i : Int} (hi : ctx.loopIndex = i) : ∀ kind ∈ kinds,
    kind.type ≠ "playwright:screenshot" → ∀ nested frame params,
      Fields.textAt params "scope" ≠ "global" →
      (kind.behave ctx nested frame params).Obeys (Fixed i) := by
  simp only [kinds, List.forall_mem_cons]
  exact ⟨fun _ _ _ _ _ => fixed_single hi _ _ _, fun _ _ _ _ _ => fixed_single hi _ _ _,
    fun _ _ _ _ _ => fixed_single hi _ _ _, fun _ _ _ _ _ => fixed_single hi _ _ _,
    fun _ _ _ _ _ => fixed_single hi _ _ _, fun _ _ _ _ _ => fixed_single hi _ _ _,
    fun _ _ _ _ _ => fixed_single hi _ _ _, fun _ _ _ _ _ => fixed_single hi _ _ _,
    fun _ _ _ _ _ => fixed_single hi _ _ _, fun _ _ _ _ _ => fixed_waitForTimeout hi _ _ _,
    fun h => absurd rfl h, fun _ _ _ _ h => fixed_kept hi _ _ h id _,
    fun _ _ _ _ _ => fixed_single hi _ _ _, fun _ _ _ _ _ => fixed_scroll hi _ _ _,
    fun _ _ _ _ h => fixed_kept hi _ _ h _ _, fun _ _ _ _ h => fixed_kept hi _ _ h id _,
    fun _ _ _ _ _ => fixed_single hi _ _ _, fun _ _ _ _ _ => fixed_single hi _ _ _,
    fun _ _ _ _ _ => fixed_single hi _ _ _, fun _ _ _ _ _ => fixed_single hi _ _ _,
    fun _ _ _ _ _ => fixed_single hi _ _ _, fun _ _ _ _ _ => fixed_log _ _ _, List.forall_mem_nil _⟩

/-- An action on the page looks neither at the timestamp nor at sample data, unless it takes a
picture. -/
theorem behave_varied : ∀ kind ∈ kinds, kind.type ≠ "playwright:screenshot" →
    ∀ nested nested' frame params, kind.behave (ctx.varied timestamp data) nested' frame params =
      kind.behave ctx nested frame params := by
  simp only [kinds, List.forall_mem_cons]
  and_intros <;> intros <;> first | exact absurd rfl ‹_› | rfl | contradiction

theorem alike (hW : W.Minds ctx.loopIndex) {kind : ActionKind} (hkind : kind ∈ kinds)
    (htype : kind.type ≠ "playwright:screenshot") (nested nested' : Dispatcher) (frame : Frame)
    {params : Fields} (hscope : Fields.textAt params "scope" ≠ "global") :
    (kind.behave ctx nested frame params).Alike W ctx.loopIndex
      (kind.behave (ctx.varied timestamp data) nested' frame params) := by
  rw [behave_varied kind hkind htype nested nested' frame params]
  exact Work.alike_of_obeys hW (fixed rfl kind hkind htype nested frame params hscope)

end Browser

/-! ### Nested actions -/

section Nested

variable {nested nested' : Dispatcher} {frame : Frame} {i : Int}

namespace Action

theorem alike_runEntries (hW : W.Minds i) {idStem : String} {checkpoint : Option String} {n : Nat}
    {entries : List Json}
    (h : ∀ {j entry a}, entries[j]? = some entry →
      NestedAction.ofEntry? entry s!"{idStem}-{n + j}" = some a →
      (nested (frame.child a.id a.actionType a.name) a.config).Alike W i
        (nested' (frame.child a.id a.actionType a.name) a.config)) :
    (runEntries nested frame idStem checkpoint n entries).Alike W i
      (runEntries nested' frame idStem checkpoint n entries) := by
  induction entries generalizing n with
  | nil => exact Act.alike_pure _
  | cons entry rest ih =>
    have hrest : (runEntries nested frame idStem checkpoint (n + 1) rest).Alike W i
        (runEntries nested' frame idStem checkpoint (n + 1) rest) :=
      ih fun {j} _ _ hj ha => h (j := j + 1) hj (by rwa [show n + (j + 1) = n + 1 + j by omega])
    unfold runEntries
    cases ha : NestedAction.ofEntry? entry s!"{idStem}-{n}" with
    | none =>
      have hlogged (r : LogRecord) := (Act.alike_log hW r).bind fun _ => hrest
      cases checkpoint with
      | none => exact hlogged _
      | some message => exact (Act.alike_checkpoint hW message).bind fun _ => hlogged _
    | some a =>
      have hdone := (h (j := 0) rfl ha).bind fun _ => hrest
      cases checkpoint with
      | none => exact hdone
      | some message => exact (Act.alike_checkpoint hW message).bind fun _ => hdone

theorem alike_runNested (hW : W.Minds i) {items : Json} {idStem : String}
    {checkpoint : Option String}
    (h : ∀ {a}, IsEntry items idStem a →
      (nested (frame.child a.id a.actionType a.name) a.config).Alike W i
        (nested' (frame.child a.id a.actionType a.name) a.config)) :
    (runNested nested frame items idStem checkpoint).Alike W i
      (runNested nested' frame items idStem checkpoint) :=
  Act.alike_ofExcept_bind fun entries hentries => alike_runEntries hW fun {j entry a} hj ha =>
    h ⟨entries, j, entry, eq_ok_of_mapError hentries, hj, by rwa [Nat.zero_add] at ha⟩

end Action

/-! ### Branching -/

namespace IfElse

variable (hW : W.Minds ctx.loopIndex)

include hW

theorem alike_runAlternatives {idStem : String} {index : Nat} {alternatives : List Json}
    (h : ∀ {j entry found a}, alternatives[j]? = some entry →
      Alternative.ofEntry entry = .ok (some found) →
      Action.IsEntry found.actions s!"{idStem}-else_if-{index + j}" a →
      (nested (frame.child a.id a.actionType a.name) a.config).Alike W ctx.loopIndex
        (nested' (frame.child a.id a.actionType a.name) a.config)) :
    (runAlternatives ctx nested frame idStem index alternatives).Alike W ctx.loopIndex
      (runAlternatives (ctx.varied timestamp data) nested' frame idStem index alternatives) := by
  induction alternatives generalizing index with
  | nil => exact Work.alike_pure _
  | cons entry rest ih =>
    have hrest : (runAlternatives ctx nested frame idStem (index + 1) rest).Alike W ctx.loopIndex
        (runAlternatives (ctx.varied timestamp data) nested' frame idStem (index + 1) rest) :=
      ih fun {j} _ _ _ hj hfound ha =>
        h (j := j + 1) hj hfound (by rwa [show index + (j + 1) = index + 1 + j by omega])
    have hwarned (event : String) (more : Fields) : (do
        Work.lift (warn event frame index more)
        runAlternatives ctx nested frame idStem (index + 1) rest).Alike W ctx.loopIndex (do
        Work.lift (warn event frame index more)
        runAlternatives (ctx.varied timestamp data) nested' frame idStem (index + 1) rest) :=
      (Work.alike_lift (Act.alike_log hW _)).bind fun _ => hrest
    unfold runAlternatives
    refine Work.alike_ofExcept_bind fun found? hfound? => ?_
    cases found? with
    | none => exact hwarned _ _
    | some found =>
      refine (Work.alike_lift (Act.alike_ask hW (c := .page _ _) rfl)).bind fun reply => ?_
      cases reply with
      | error f => exact hwarned _ _
      | ok reply =>
        refine Work.alike_ite ?_ hrest
        refine (Work.alike_report _).bind fun _ => (Work.alike_lift ?_).bind fun _ =>
          Work.alike_pure _
        exact Action.alike_runNested hW fun ha => h (j := 0) rfl (eq_ok_of_mapError hfound?) ha

/-- A branching action goes on alike when what it holds does. -/
theorem alike_behave {params : Fields}
    (h : ∀ {a}, Holds frame params a →
      (nested (frame.child a.id a.actionType a.name) a.config).Alike W ctx.loopIndex
        (nested' (frame.child a.id a.actionType a.name) a.config)) :
    (behave ctx nested frame params).Alike W ctx.loopIndex
      (behave (ctx.varied timestamp data) nested' frame params) := by
  have hbranch : (runBranch ctx nested frame params (idStem frame)).Alike W ctx.loopIndex
      (runBranch (ctx.varied timestamp data) nested' frame params (idStem frame)) := by
    refine Work.alike_ofExcept_bind fun state _ => ?_
    refine (Work.alike_of_obeys hW (Browser.fixed_request rfl _ _)).bind fun reply => ?_
    refine Work.alike_ite ?_ ?_
    · exact (Work.alike_report _).bind fun _ =>
        Work.alike_lift (Action.alike_runNested hW fun ha => h (.if ha))
    · have hothers : (runAlternatives ctx nested frame (idStem frame) 0
          (Fields.listAt params "else_if_conditions")).Alike W ctx.loopIndex
          (runAlternatives (ctx.varied timestamp data) nested' frame (idStem frame) 0
            (Fields.listAt params "else_if_conditions")) :=
        alike_runAlternatives hW fun {j} _ _ _ hj hfound ha =>
          h (.alternative hj hfound (by rwa [Nat.zero_add] at ha))
      refine hothers.bind fun found => Work.alike_ite ?_ (Work.alike_pure _)
      refine Work.alike_ite ?_ (Work.alike_pure _)
      exact (Work.alike_report _).bind fun _ =>
        Work.alike_lift (Action.alike_runNested hW fun ha => h (.else ha))
  refine (Work.alike_attempt hbranch).bind fun branchFailure => ?_
  refine (Work.alike_attempt (Work.alike_lift
    (Action.alike_runNested hW fun ha => h (.final ha)))).bind fun finalFailure => ?_
  cases branchFailure <;> cases finalFailure
  · exact Work.alike_pure _
  · exact Work.alike_throw _
  · exact Work.alike_throw _
  · exact (Work.alike_lift (Act.alike_log hW _)).bind fun _ => Work.alike_throw _

end IfElse

/-! ### Bounded loops -/

namespace LoopUntil

/-- Without a bound on the time it does not matter how much time has passed. -/
theorem Bounds.reached_of_untimed {b : Bounds} (hb : b.timeoutMs = none) (iterations : Nat)
    (elapsed elapsed' : Rat) : b.reached iterations elapsed = b.reached iterations elapsed' := by
  rw [reached, reached, hb]

variable (hW : W.Minds ctx.loopIndex)

include hW

theorem alike_conditionMet (loop : Loop) :
    (conditionMet ctx frame loop).Alike W ctx.loopIndex
      (conditionMet (ctx.varied timestamp data) frame loop) := by
  have hfailed (r : LogRecord) : (do
      Work.lift (Act.log r)
      return false : Work Bool).Alike W ctx.loopIndex (do
      Work.lift (Act.log r)
      return false) :=
    (Work.alike_lift (Act.alike_log hW r)).bind fun _ => Work.alike_pure _
  unfold conditionMet
  split
  · exact Work.alike_pure _
  · refine Work.alike_ite (Work.alike_pure _) (Work.alike_ite (hfailed _) ?_)
    refine (Work.alike_lift (Act.alike_ask hW (c := .page _ _) rfl)).bind fun reply => ?_
    cases reply with
    | ok reply => exact Work.alike_pure _
    | error f => exact hfailed _

omit hW in
theorem alike_exit (iterations : Nat) (reason : String) :
    (exit iterations reason).Alike W i (exit iterations reason) :=
  (Work.alike_report _).bind fun _ => Work.alike_pure _

omit hW in
theorem alike_forceStop (loop : Loop) (iterations : Nat) (reasons : List String) :
    (forceStop frame loop iterations reasons).Alike W i
      (forceStop frame loop iterations reasons) :=
  Work.alike_ite (Work.alike_throw _) (alike_exit _ _)

/-- An iteration begins alike when it goes on alike; the time does not count. -/
theorem alike_begin {loop : Loop} (hloop : loop.bounds.timeoutMs = none) (started started' : Rat)
    (iterations : Nat) {goOn goOn' : List String → Work String}
    (h : ∀ reasons, (goOn reasons).Alike W ctx.loopIndex (goOn' reasons)) :
    (begin ctx frame loop started iterations goOn).Alike W ctx.loopIndex
      (begin (ctx.varied timestamp data) frame loop started' iterations goOn') := by
  refine (Work.alike_lift (Act.alike_checkpoint hW _)).bind fun _ => ?_
  refine (Work.alike_lift fun _ => Program.alike_pure _).bind fun _ => ?_
  refine (alike_conditionMet hW loop).bind fun met => Work.alike_ite (alike_exit _ _) ?_
  refine Work.alike_now_bind hW fun now now' => ?_
  dsimp only
  rw [Bounds.reached_of_untimed hloop]
  exact h _

theorem alike_iterate {loop : Loop} (hloop : loop.bounds.timeoutMs = none)
    (h : ∀ {n a}, Action.IsEntry loop.actions s!"{frame.actionId}-loop-{n + 1}" a →
      (nested (frame.child a.id a.actionType a.name) a.config).Alike W ctx.loopIndex
        (nested' (frame.child a.id a.actionType a.name) a.config))
    (started started' : Rat) (remaining iterations : Nat) :
    (iterate ctx nested frame loop started remaining iterations).Alike W ctx.loopIndex
      (iterate (ctx.varied timestamp data) nested' frame loop started' remaining iterations) := by
  induction remaining generalizing iterations with
  | zero => exact alike_begin hW hloop _ _ _ fun _ => alike_forceStop _ _ _
  | succ remaining ih =>
    refine alike_begin hW hloop _ _ _ fun reasons => Work.alike_ite (alike_forceStop _ _ _) ?_
    refine (Work.alike_lift (Action.alike_runNested hW h)).bind fun _ => ?_
    exact (Work.alike_report _).bind fun _ =>
      (Work.alike_lift (Act.alike_await hW _)).bind fun _ => ih (iterations + 1)

/-- A loop without a bound on the time goes on alike when what it holds does. -/
theorem alike_behave {params : Fields} (hparams : Fields.int? params "timeout_ms" = none)
    (h : ∀ {a}, Holds frame params a →
      (nested (frame.child a.id a.actionType a.name) a.config).Alike W ctx.loopIndex
        (nested' (frame.child a.id a.actionType a.name) a.config)) :
    (behave ctx nested frame params).Alike W ctx.loopIndex
      (behave (ctx.varied timestamp data) nested' frame params) := by
  have huntimed : (Loop.ofParams params).bounds.timeoutMs = none := by
    change (Fields.int? params "timeout_ms").map Int.toNat = none
    rw [hparams, Option.map_none]
  exact Work.alike_now_bind hW fun started started' => Work.alike_restoringLocalIndex
    (alike_iterate hW huntimed (fun {n a} ha => h ⟨n, ha⟩) started started' _ _)

end LoopUntil

end Nested

/-! ### Executions -/

namespace ActionKind

variable {kind : ActionKind} {frame : Frame} {nested nested' : Dispatcher}
  (hW : W.Minds ctx.loopIndex)

include hW

/-- What an action tells in the end is the same, times aside. -/
theorem alike_conclude (started started' : Rat) (report : Fields) (type : EventType)
    (content : RunEvent → RunEvent) (hindex : ∀ e, (content e).loopIndex = e.loopIndex)
    (hcontent : ∀ e e', e.timeless = e'.timeless → (content e).timeless = (content e').timeless) :
    (kind.conclude ctx frame started report type content).Alike W ctx.loopIndex
      (kind.conclude (ctx.varied timestamp data) frame started' report type content) := by
  refine Act.alike_now_bind hW fun ended ended' => Act.alike_emit hW rfl rfl (fun e => ?_)
    fun e e' h => hcontent _ _ ?_
  · exact hindex _
  · simp only [RunEvent.timeless, RunEvent.mk.injEq] at h ⊢
    simp [h]

theorem alike_concludeFailed (started started' : Rat) (report : Fields) (error : RunError) :
    (do
      kind.conclude ctx frame started report .error fun e => { e with error := error.message }
      Act.fail (.error error) : Act Unit).Alike W ctx.loopIndex
    (do
      kind.conclude (ctx.varied timestamp data) frame started' report .error fun e =>
        { e with error := error.message }
      Act.fail (.error error)) := by
  refine Act.Alike.bind (alike_conclude hW started started' report .error
    (fun e => { e with error := error.message }) (fun _ => rfl) fun e e' h => ?_) fun _ =>
      Act.alike_fail _
  simp only [RunEvent.timeless, RunEvent.mk.injEq] at h ⊢
  simp [h]

/-- An execution goes on alike when what the action does is alike. -/
theorem alike_execute {config : Json}
    (h : ∀ params, kind.validate config = .ok params →
      (kind.behave ctx nested frame params).Alike W ctx.loopIndex
        (kind.behave (ctx.varied timestamp data) nested' frame params)) :
    (kind.execute ctx nested frame config).Alike W ctx.loopIndex
      (kind.execute (ctx.varied timestamp data) nested' frame config) := by
  refine Act.alike_ofExcept_bind fun params hvalid => ?_
  refine Act.alike_now_bind hW fun started started' => ?_
  have hbehave : Act.Alike W ctx.loopIndex
      (ExceptT.lift ((kind.behave ctx nested frame params).run.run kind.firstReport))
      (ExceptT.lift ((kind.behave (ctx.varied timestamp data) nested' frame params).run.run
        kind.firstReport)) :=
    fun s => (h params hvalid kind.firstReport s).bind fun _ => Program.alike_pure _
  refine hbehave.bind fun x => ?_
  obtain ⟨(error | fault | _) | message, report⟩ := x
  · exact alike_concludeFailed hW _ _ _ _
  · exact alike_concludeFailed hW _ _ _ _
  · exact Act.alike_fail _
  · refine alike_conclude hW _ _ _ _ _ (fun _ => rfl) fun e e' h => ?_
    simp only [RunEvent.timeless, RunEvent.mk.injEq] at h ⊢
    simp [h]

end ActionKind

/-! ### Settled actions -/

/-- The types of actions that store something or send requests. -/
def Catalogue.outwardTypes : List String :=
  Browser.screenshot.type :: (Api.kinds ++ StoredFiles.kinds).map ActionKind.type

/-- All that the actions and steps of an automation do is a matter of pages and of variables that
are not shared. -/
structure Settled (automation : Automation) (config : AutomationConfig) : Prop where
  /-- No action stores anything or sends requests. -/
  inward {run : Running} : Written automation run →
    run.frame.actionType ∉ Catalogue.outwardTypes
  /-- The texts of an action are steady. -/
  steady {run : Running} {kind : ActionKind} : Written automation run →
    Catalogue.registry.get run.frame.actionType = .ok kind →
    Template.Mentions (Template.Steady config) (kind.deferred.map Template.Deferral.ofText) []
      (.object run.config)
  /-- Nothing is kept in a shared variable, however the configuration of an action is resolved. -/
  unshared {run : Running} {kind : ActionKind} {env : Template.Environment} {resolved : Json}
    {params : Fields} : Written automation run →
    Catalogue.registry.get run.frame.actionType = .ok kind →
    Template.Gives (Template.resolve env (kind.deferred.map Template.Deferral.ofText)
      (.object run.config)) resolved →
    kind.validate resolved = .ok params → Fields.textAt params "scope" ≠ "global"
  /-- A loop has no bound on the time, however its configuration is resolved. -/
  untimed {run : Running} {env : Template.Environment} {resolved : Json} {params : Fields} :
    Written automation run → run.frame.actionType = "playwright:loop_until" →
    Template.Gives (Template.resolve env (LoopUntil.kind.deferred.map Template.Deferral.ofText)
      (.object run.config)) resolved →
    LoopUntil.kind.validate resolved = .ok params → Fields.int? params "timeout_ms" = none
  /-- No condition of a step is left to chance. -/
  certain {step : Step} {key : String} : step ∈ automation.orderedSteps →
    key ∈ ["skip_condition", "run_only_condition"] →
    Condition.stated? step.config key ≠ some (.text "random")
  /-- No pictures are taken automatically. -/
  unpictured : config.screenshots.enabled = false

variable {automation : Automation} {config : AutomationConfig} {i : Int}

/-- An action that stores nothing, sends no requests and keeps nothing in a shared variable goes on
alike when what it holds does, and it has no bound on the time. -/
theorem Catalogue.alike_behave (hW : W.Minds ctx.loopIndex) {kind : ActionKind}
    (hkind : kind ∈ kinds) (hinward : kind.type ∉ outwardTypes) {nested nested' : Dispatcher}
    {frame : Frame} {params : Fields} (hscope : Fields.textAt params "scope" ≠ "global")
    (huntimed : kind.type = "playwright:loop_until" → Fields.int? params "timeout_ms" = none)
    (hbranch : ∀ {a}, kind.type = "playwright:if_else" → IfElse.Holds frame params a →
      (nested (frame.child a.id a.actionType a.name) a.config).Alike W ctx.loopIndex
        (nested' (frame.child a.id a.actionType a.name) a.config))
    (hloop : ∀ {a}, kind.type = "playwright:loop_until" → LoopUntil.Holds frame params a →
      (nested (frame.child a.id a.actionType a.name) a.config).Alike W ctx.loopIndex
        (nested' (frame.child a.id a.actionType a.name) a.config)) :
    (kind.behave ctx nested frame params).Alike W ctx.loopIndex
      (kind.behave (ctx.varied timestamp data) nested' frame params) := by
  simp only [outwardTypes, List.mem_cons, List.mem_map, List.mem_append, not_or, not_exists,
    not_and] at hinward
  simp only [kinds, List.mem_append, List.mem_cons, List.not_mem_nil, or_false] at hkind
  rcases hkind with ((hkind | rfl | rfl) | hkind) | hkind
  · exact Browser.alike hW hkind hinward.1 _ _ _ hscope
  · exact IfElse.alike_behave hW fun ha => hbranch rfl ha
  · exact LoopUntil.alike_behave hW (huntimed rfl) fun ha => hloop rfl ha
  · exact absurd rfl (hinward.2 kind (.inl hkind))
  · exact absurd rfl (hinward.2 kind (.inr hkind))

namespace Action

variable (hW : W.Minds ctx.loopIndex) (hsettled : Settled automation ctx.config)
  (hstatic : ctx.staticVars = Loop.staticVars ctx.config.declared)

include hW hsettled hstatic

theorem alike_dispatchWithin (levels : Nat) {run : Running} (hrun : Written automation run) :
    (dispatchWithin Catalogue.registry ctx levels run.frame run.config).Alike W ctx.loopIndex
      (dispatchWithin Catalogue.registry (ctx.varied timestamp data) levels run.frame
        run.config) := by
  induction levels generalizing run with
  | zero => exact Act.alike_fail _
  | succ levels ih =>
    refine (Act.alike_ask hW (c := .dispatched _ _ _) trivial).bind fun _ => ?_
    refine Act.alike_ofExcept_bind fun kind hget => ?_
    have htype := (Catalogue.mem_of_get hget).2
    refine (Act.alike_resolving hW fun v globals now now' => ?_).bind_of_ends fun h => ?_
    · exact Template.agree_resolveTree rfl hstatic (hsettled.steady hrun hget)
    obtain ⟨-, globals, now, -, ⟨resolved, heq, hgives⟩ | ⟨e, heq⟩⟩ := Act.ends_resolving h
    case inr => cases heq
    obtain rfl := Except.ok.inj heq
    obtain ⟨fields, rfl, hrewritten⟩ := Template.rewritten_of_gives hgives
    refine ActionKind.alike_execute hW fun params hvalid => ?_
    refine Catalogue.alike_behave hW (Catalogue.mem_of_get hget).1 ?_ ?_ (fun hloop => ?_)
      (fun hbranch ha => ?_) fun hloop ha => ?_
    · exact htype ▸ hsettled.inward hrun
    · exact hsettled.unshared hrun hget hgives hvalid
    · rw [← htype, hloop, Catalogue.get_loopUntil] at hget
      cases hget
      exact hsettled.untimed hrun (htype.symm.trans hloop) hgives hvalid
    · have heq := htype.symm.trans hbranch
      rw [heq, Catalogue.get_ifElse] at hget
      cases hget
      exact ih (.branch hrun heq (IfElse.lists_of_holds hrewritten hvalid ha))
    · have heq := htype.symm.trans hloop
      rw [heq, Catalogue.get_loopUntil] at hget
      cases hget
      exact ih (.iteration hrun heq (LoopUntil.holds_of_holds hrewritten hvalid ha))

/-- An action that is written in the definition goes on alike. -/
theorem alike_dispatch {run : Running} (hrun : Written automation run) :
    (dispatch Catalogue.registry ctx run.frame run.config).Alike W ctx.loopIndex
      (dispatch Catalogue.registry (ctx.varied timestamp data) run.frame run.config) :=
  alike_dispatchWithin hW hsettled hstatic _ hrun

end Action

/-! ### Steps -/

namespace Condition

/-- A condition that is not left to chance draws nothing. -/
theorem holds_of_certain {condition : Json} (h : condition ≠ .text "random") (loopIndex : Int)
    (p : Binary64) (draws : List Binary64) :
    holds condition loopIndex p draws = ((holds condition loopIndex p []).1, draws) := by
  unfold holds
  split <;> first | exact absurd rfl h | rfl

/-- Whether a step is skipped does not depend on what is drawn, unless it is left to chance. -/
theorem skip_of_certain {config : Fields}
    (hskip : stated? config "skip_condition" ≠ some (.text "random"))
    (honly : stated? config "run_only_condition" ≠ some (.text "random")) (loopIndex : Int)
    (draws draws' : List Binary64) : (decideSkip config loopIndex draws).map Decision.skip =
      (decideSkip config loopIndex draws').map Decision.skip := by
  unfold decideSkip
  split
  · rfl
  cases probability ((Fields.get? config "probability").getD .null) with
  | error f => rfl
  | ok p =>
    have hcertain {c : Json} {key : String} (hkey : stated? config key ≠ some (.text "random"))
        (hc : stated? config key = some c) (draws : List Binary64) :
        holds c loopIndex p.1 draws = ((holds c loopIndex p.1 []).1, draws) :=
      holds_of_certain (fun h => hkey (h ▸ hc)) loopIndex p.1 draws
    simp only [bind, Except.bind]
    cases hs : stated? config "skip_condition" with
    | none =>
      cases ho : stated? config "run_only_condition" with
      | none => rfl
      | some c =>
        simp only [hcertain honly ho draws, hcertain honly ho draws']
        rfl
    | some c =>
      simp only [hcertain hskip hs draws, hcertain hskip hs draws']
      cases ho : stated? config "run_only_condition" with
      | none => split <;> rfl
      | some c =>
        simp only [hcertain honly ho draws, hcertain honly ho draws']
        split <;> rfl

end Condition

namespace Loop

/-- Whether a step is skipped is decided by its conditions, the loop index and what is drawn. -/
theorem ends_isSkipped {step : Step} {s s' : LoopState} {t : List Deed} {r : Except Failure Bool}
    (h : (isSkipped ctx step).Ends s t r s') : s' = s ∧ (∀ d ∈ t, d.Silent) ∧ ∃ draws,
      r = ((Condition.decideSkip step.config ctx.loopIndex draws).map
        Condition.Decision.skip).mapError .fault := by
  obtain ⟨hdecides, rfl⟩ := decides_of_ends h
  cases hdecides with
  | @refused chance f hdecision =>
    refine ⟨rfl, List.forall_mem_singleton.mpr trivial, chance.draws, ?_⟩
    rw [hdecision]
    rfl
  | @decided chance decision hdecision =>
    refine ⟨rfl, ?_, chance.draws, ?_⟩
    · simp [Deed.Silent, Call.Silent]
    · rw [hdecision]
      rfl

variable (hW : W.Minds ctx.loopIndex) (hsettled : Settled automation ctx.config)

include hW hsettled

theorem alike_isSkipped {step : Step} (hstep : step ∈ automation.orderedSteps) :
    (isSkipped ctx step).Alike W ctx.loopIndex (isSkipped (ctx.varied timestamp data) step) := by
  refine Act.alike_of_silent hW (fun h => (ends_isSkipped h).2.1) (fun h => (ends_isSkipped h).2.1)
    fun h h' _ _ => ?_
  obtain ⟨rfl, -, draws, rfl⟩ := ends_isSkipped h
  obtain ⟨rfl, -, draws', rfl⟩ := ends_isSkipped h'
  refine ⟨congrArg _ ?_, rfl⟩
  exact Condition.skip_of_certain (hsettled.certain hstep List.mem_cons_self)
    (hsettled.certain hstep (List.mem_cons_of_mem _ List.mem_cons_self)) _ draws draws'

omit hW in
/-- Nothing is done for automatic pictures. -/
theorem alike_capture (frame : Frame) :
    (capture ctx frame).Alike W i (capture (ctx.varied timestamp data) frame) := by
  have hnone {ctx : LoopContext} (h : ctx.config.screenshots.enabled = false) :
      capture ctx frame = pure () := by
    rw [capture, h]
    rfl
  have hvaried : (ctx.varied timestamp data).config.screenshots.enabled = false :=
    hsettled.unpictured
  rw [hnone hsettled.unpictured, hnone hvaried]
  exact Act.alike_pure _

omit hsettled in
/-- A step is announced alike. -/
theorem alike_announce (step : Step) :
    (announce ctx step).Alike W ctx.loopIndex (announce (ctx.varied timestamp data) step) := by
  have htold {ctx : LoopContext} {s s' : LoopState} {t : List Deed} {r : Except Failure Unit}
      (h : (announce ctx step).Ends s t r s') : s' = s ∧ r = .ok () ∧ ∃ now taken,
        t = [.call .now now, .call (.emit {
          type := .step, timestamp := .ofMillis now, stepId := step.id, stepName := step.name
          message := s!"Starting step {step.name}", loopIndex := ctx.loopIndex }) taken] := by
    obtain ⟨now, t₁, rfl, h₁⟩ := Act.ends_ask_bind_iff.mp h
    obtain ⟨taken, t₂, rfl, h₂⟩ := Act.ends_ask_bind_iff.mp h₁
    obtain ⟨rfl, rfl, rfl⟩ := Act.ends_pure_iff.mp h₂
    exact ⟨rfl, rfl, now, taken, rfl⟩
  refine Act.alike_of_idle hW (fun h => ?_) (fun h => ?_) fun h h' _ _ => ?_
  · obtain ⟨-, -, now, taken, rfl⟩ := htold h
    exact List.forall_mem_cons.mpr ⟨⟨trivial, trivial⟩,
      List.forall_mem_singleton.mpr ⟨trivial, rfl⟩⟩
  · obtain ⟨-, -, now, taken, rfl⟩ := htold h
    exact List.forall_mem_cons.mpr ⟨trivial, List.forall_mem_singleton.mpr trivial⟩
  · obtain ⟨rfl, rfl, now, taken, rfl⟩ := htold h
    obtain ⟨rfl, rfl, now', taken', rfl⟩ := htold h'
    refine ⟨rfl, rfl, ?_⟩
    simp only [told_emit, RunEvent.timeless, LoopContext.varied]

variable {runner : Runner} (hregistry : runner.registry = Catalogue.registry)
  (hstatic : ctx.staticVars = staticVars ctx.config.declared)

include hregistry hstatic

theorem alike_runAction {step : Step} {action : ActionItem} (hstep : step ∈ automation.orderedSteps)
    (haction : action ∈ step.orderedActions) :
    (runAction runner ctx step action).Alike W ctx.loopIndex
      (runAction { runner with data } (ctx.varied timestamp data) step action) := by
  refine (Act.alike_checkpoint hW _).bind fun _ => ?_
  rw [hregistry]
  refine Act.alike_outcome_bind
    (Action.alike_dispatch hW hsettled hstatic (.action hstep haction)) fun result => ?_
  rcases result with (e | f | _) | _
  · refine (Act.alike_log hW _).bind fun _ => ?_
    exact Act.alike_ite ((alike_capture hsettled _).bind fun _ => Act.alike_fail _)
      (Act.alike_fail _)
  · exact Act.alike_fail _
  · exact Act.alike_fail _
  · exact Act.alike_pure _

/-- A step goes on alike. -/
theorem alike_runStep {step : Step} (hstep : step ∈ automation.orderedSteps) :
    (runStep runner ctx step).Alike W ctx.loopIndex
      (runStep { runner with data } (ctx.varied timestamp data) step) := by
  refine (Act.alike_checkpoint hW _).bind fun _ => ?_
  refine (alike_isSkipped hW hsettled hstep).bind fun skipped => ?_
  refine Act.alike_ite (Act.alike_pure _) ?_
  refine (alike_announce hW step).bind fun _ => Act.alike_forM fun action haction => ?_
  exact alike_runAction hW hsettled hregistry hstatic hstep haction

theorem alike_runSteps : (runSteps runner ctx automation.orderedSteps).Alike W ctx.loopIndex
    (runSteps { runner with data } (ctx.varied timestamp data) automation.orderedSteps) := by
  refine (Act.alike_forM fun step hstep =>
    alike_runStep hW hsettled hregistry hstatic hstep).bind fun _ => ?_
  exact Act.alike_ite (alike_capture hsettled _) (Act.alike_pure _)

end Loop

end Context

namespace Loop

variable {automation : Automation} {config : AutomationConfig} {runner : Runner}
  {data : SampleData} {n : Nat}

theorem alike_inSession (hW : W.Minds n) {m m' : Act Unit} (hm : m.Alike W n m') :
    (inSession runner n m).Alike W n (inSession { runner with data } n m') := by
  refine Act.alike_ite hm ?_
  refine (Act.alike_ask hW (c := .openSession n) rfl).bind fun reply => ?_
  cases reply with
  | error f => exact Act.alike_fail _
  | ok =>
    refine Act.alike_outcome_bind hm fun result => ?_
    exact (Act.alike_ask hW (c := .closeSession n) rfl).bind fun _ => Act.alike_ofExcept _

/-- A loop index of an automation that is settled goes on alike in all surroundings. -/
theorem alike_run (hW : W.Minds n) (hregistry : runner.registry = Catalogue.registry)
    (hsettled : Settled automation config) (runId : String) :
    (run runner automation config runId n).Alike W n
      (run { runner with data } automation config runId n) := by
  refine Program.alike_now hW fun now now' => ?_
  let ctx := contextOf runner automation config runId n now
  have hsteps : (runSteps runner ctx automation.orderedSteps).Alike W ctx.loopIndex
      (runSteps { runner with data } (ctx.varied (Timestamp.ofMillis now').toStamp data)
        automation.orderedSteps) :=
    alike_runSteps hW hsettled hregistry rfl
  exact (alike_inSession hW hsteps {}).bind fun _ => Program.alike_pure _

end Loop

end Runbook
