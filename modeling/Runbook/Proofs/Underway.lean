import Runbook.Proofs.Course
import Runbook.Proofs.Deferral

/-!
# Actions under way

At any moment a task has some actions under way, each of them held by the next. An action is under
way from its announcement to its last event, unless it is refused at once; an interruption puts an
end to all of them. A look at the request to stop that has found nothing leaves a task free to
announce a step, to dispatch an action of a step or to go on with a loop, until it waits or makes a
call that takes time. Only what a branching action lists is dispatched without such a look.

* `Running`: an action under way, and the configuration that it was dispatched with.
* `Admits automation free S run`: with the actions `S` under way, `run` may begin.
* `Proceeds automation free S t S'`: the deeds `t` take the actions under way from `S` to `S'`.
* `Whole.Scheduled.proceeds`: in every schedule, all tasks proceed in this way.
-/

namespace Runbook

open Program Schedule

/-- An action under way: its place, and the configuration that it was dispatched with. -/
structure Running where
  frame : Frame
  config : Fields

/-- A nested action as it is dispatched by one under way. -/
def Running.nested (run : Running) (a : NestedAction) : Running :=
  ⟨run.frame.child a.id a.actionType a.name, a.config⟩

/-- Which action may begin when others are under way, the innermost first. Where the task is not
free to go on, that can only be one which a branching action lists. -/
inductive Admits (automation : Automation) (free : Bool) : List Running → Running → Prop
  /-- An action of a step. -/
  | action {step : Step} {action : ActionItem} (hfree : free = true)
      (hstep : step ∈ automation.orderedSteps) (haction : action ∈ step.orderedActions) :
      Admits automation free [] ⟨Loop.frameOf step action, action.config⟩
  /-- An action of a loop. -/
  | iteration {S : List Running} {run : Running} {a : NestedAction} (hfree : free = true)
      (htype : run.frame.actionType = "playwright:loop_until")
      (ha : LoopUntil.Holds run.frame run.config a) :
      Admits automation free (run :: S) (run.nested a)
  /-- An action of a branching action. -/
  | branch {S : List Running} {run : Running} {a : NestedAction}
      (htype : run.frame.actionType = "playwright:if_else")
      (ha : IfElse.Lists run.frame run.config a) : Admits automation free (run :: S) (run.nested a)

/-- A call that takes time. -/
def Deed.TakesTime : Deed → Prop
  | .call c _ => c.TakesTime
  | _ => False

/-- A deed that neither begins nor ends a step or an action. -/
def Deed.Quiet : Deed → Prop
  | .call (.emit e) _ => e.type = .outputFile
  | .call (.dispatched _ _ _) _ => False
  | .wake w => w = .resumed
  | _ => True

/-- What a deed does to the actions under way. -/
inductive Passes (automation : Automation) (free : Bool) :
    List Running → Deed → List Running → Prop
  | quiet {S : List Running} {d : Deed} (hd : d.Quiet) : Passes automation free S d S
  /-- A step is announced when no action is under way. -/
  | step {e : RunEvent} {taken : Bool} (hfree : free = true) (he : e.type = .step) :
      Passes automation free [] (.call (.emit e) taken) []
  | begin {S : List Running} {run : Running} {i : Int} (h : Admits automation free S run) :
      Passes automation free S (.call (.dispatched i run.frame run.config) ()) (run :: S)
  /-- An action is refused before it does anything. -/
  | refuse {S : List Running} {run : Running} {i : Int} (h : Admits automation free S run) :
      Passes automation free S (.call (.dispatched i run.frame run.config) ()) S
  /-- The innermost action tells how it ended. -/
  | finish {S : List Running} {run : Running} {e : RunEvent} {taken : Bool}
      (hat : e.At run.frame) (he : e.type = .log ∨ e.type = .error) :
      Passes automation free (run :: S) (.call (.emit e) taken) S
  | interrupt {S : List Running} : Passes automation free S (.wake .interrupted) []

/-- What deeds one after another do to the actions under way, when `look` says whether the task is
free to go on after each of them. -/
inductive Passage (automation : Automation) (look : Bool → Deed → Bool) :
    Bool → List Running → List Deed → List Running → Prop
  | nil {free : Bool} {S : List Running} : Passage automation look free S [] S
  | cons {free : Bool} {S S₁ S' : List Running} {d : Deed} {t : List Deed}
      (hd : Passes automation free S d S₁) (h : Passage automation look (look free d) S₁ t S') :
      Passage automation look free S (d :: t) S'

/-- Whether a task is free to go on after a deed: a look that finds no request sets it free, and a
wait or a call that takes time puts an end to that. -/
def Deed.frees (free : Bool) : Deed → Bool
  | .call .cancellation reply => reply.isNone
  | .call (.cancel _ _) _ | .wait _ | .wake _ => false
  | .call c _ => free && ¬ c.TakesTime

/-- What the deeds of a task do to the actions under way. -/
abbrev Proceeds (automation : Automation) : Bool → List Running → List Deed → List Running → Prop :=
  Passage automation Deed.frees

variable {automation : Automation} {look : Bool → Deed → Bool} {free : Bool}
  {S S₁ S₂ : List Running} {t t' : List Deed}

namespace Passage

theorem append (h : Passage automation look free S t S₁)
    (h' : Passage automation look (t.foldl look free) S₁ t' S₂) :
    Passage automation look free S (t ++ t') S₂ := by
  induction h with
  | nil => exact h'
  | cons hd _ ih => exact .cons hd (ih h')

theorem split (h : Passage automation look free S (t ++ t') S₂) :
    ∃ S₁, Passage automation look free S t S₁ ∧
      Passage automation look (t.foldl look free) S₁ t' S₂ := by
  induction t generalizing free S with
  | nil => exact ⟨S, .nil, h⟩
  | cons d t ih =>
    cases h with
    | cons hd h =>
      obtain ⟨S₁, h₁, h₂⟩ := ih h
      exact ⟨S₁, .cons hd h₁, h₂⟩

theorem quiet (h : ∀ d ∈ t, d.Quiet) : Passage automation look free S t S := by
  induction t generalizing free with
  | nil => exact .nil
  | cons d t ih =>
    rw [List.forall_mem_cons] at h
    exact .cons (.quiet h.1) (ih h.2)

end Passage

theorem Call.Plain.quiet {c : Call} (h : c.Plain) (r : c.Reply) : (Deed.call c r).Quiet := by
  cases c <;> trivial

theorem quiet_of_plain (h : ∀ d ∈ t, ∃ c r, d = .call c r ∧ c.Plain) : ∀ d ∈ t, d.Quiet := by
  intro d hd
  obtain ⟨c, r, rfl, hc⟩ := h d hd
  exact hc.quiet r

theorem Deed.frees_of_takesTime {c : Call} (hc : c.TakesTime) (r : c.Reply) (free : Bool) :
    frees free (.call c r) = false := by
  cases c <;> first | exact hc.elim | simp [frees, hc]

/-- A task that only makes prompt calls remains free to go on. -/
theorem foldl_frees_of_prompt (h : ∀ d ∈ t, ∃ c r, d = .call c r ∧ c.Prompt) (free : Bool) :
    t.foldl Deed.frees free = free := by
  induction t with
  | nil => rfl
  | cons d t ih =>
    rw [List.forall_mem_cons] at h
    obtain ⟨⟨c, r, rfl, hplain, hc⟩, ht⟩ := h
    have hsame : Deed.frees free (.call c r) = free := by
      cases c <;> first | exact hplain.elim | simp [Deed.frees, hc]
    rw [List.foldl_cons, hsame]
    exact ih ht

/-! ### What an action leaves under way -/

/-- What is still under way of some actions after an outcome. -/
def left : Option Failure → List Running → List Running
  | some .interrupted, _ => []
  | _, S => S

theorem left_of_ne {o : Option Failure} (h : o ≠ some .interrupted) (S : List Running) :
    left o S = S := by
  rcases o with _ | _ | _ | _ <;> first | rfl | exact absurd rfl h

theorem left_nil (o : Option Failure) : left o [] = [] := by
  rcases o with _ | _ | _ | _ <;> rfl

/-- Some actions are under way before and after, if there is no interruption. -/
def Keeps (automation : Automation) (S : List Running) : Law :=
  fun t o => ∀ free, Proceeds automation free S t (left o S)

theorem keeps_quiet (h : ∀ d ∈ t, d.Quiet) {o : Option Failure} (ho : o ≠ some .interrupted) :
    Keeps automation S t o := by
  intro free
  rw [left_of_ne ho]
  exact .quiet h

theorem keeps_one (d : Deed) (hd : d.Quiet) {o : Option Failure} (ho : o ≠ some .interrupted) :
    Keeps automation S [d] o :=
  keeps_quiet (List.forall_mem_singleton.mpr hd) ho

theorem keeps_lenient (automation : Automation) (S : List Running) :
    (Keeps automation S).Lenient where
  nil := keeps_quiet (List.forall_mem_nil _) nofun
  append h h' free := (h free).append (h' _)
  call hc := keeps_one _ (hc.quiet _) nofun
  fail he := keeps_quiet (List.forall_mem_nil _) fun h => he.2 (Option.some.inj h)
  file he := keeps_one (.call (.emit _) _) he nofun
  sleep := keeps_quiet (by simp [Deed.Quiet]) nofun
  interrupted _ := .cons (.quiet trivial) (.cons .interrupt .nil)
  go := keeps_one (.call .cancellation _) trivial nofun
  after {t t' e e' o} h hne h' he free := by
    have hfirst := h free
    rw [left_of_ne fun h => hne (Option.some.inj h)] at hfirst
    have hsame : left (some e') S = left o S := by
      rcases he with ⟨rfl, ho⟩ | rfl
      · rw [left_of_ne ho, left_of_ne fun h => hne (Option.some.inj h)]
      · rfl
    rw [hsame]
    exact hfirst.append (h' _)

/-! ### What is under way in an action -/

section Held

variable {run : Running} {kind : ActionKind} {R : String → String → Prop}
  {resolved params : Fields} {a : NestedAction}

/-- What a branching action holds once its configuration is resolved may begin at any time. -/
theorem admits_branch (hget : Catalogue.registry.get run.frame.actionType = .ok kind)
    (hresolved : Template.Rewritten R (kind.deferred.map Template.Deferral.ofText) []
      (.object run.config) (.object resolved))
    (hvalid : kind.validate (.object resolved) = .ok params)
    (htype : kind.type = "playwright:if_else") (ha : IfElse.Holds run.frame params a) :
    Admits automation free (run :: S) (run.nested a) := by
  have heq : run.frame.actionType = "playwright:if_else" :=
    (Catalogue.registry_proper hget).2.symm.trans htype
  rw [heq, Catalogue.get_ifElse] at hget
  cases hget
  obtain ⟨_, hfields, hrewritten⟩ := hresolved
  cases hfields
  exact .branch heq (IfElse.lists_of_holds hrewritten hvalid ha)

/-- What a loop holds once its configuration is resolved may begin when the task is free. -/
theorem admits_iteration (hget : Catalogue.registry.get run.frame.actionType = .ok kind)
    (hresolved : Template.Rewritten R (kind.deferred.map Template.Deferral.ofText) []
      (.object run.config) (.object resolved))
    (hvalid : kind.validate (.object resolved) = .ok params)
    (htype : kind.type = "playwright:loop_until") (ha : LoopUntil.Holds run.frame params a) :
    Admits automation true (run :: S) (run.nested a) := by
  have heq : run.frame.actionType = "playwright:loop_until" :=
    (Catalogue.registry_proper hget).2.symm.trans htype
  rw [heq, Catalogue.get_loopUntil] at hget
  cases hget
  obtain ⟨_, hfields, hrewritten⟩ := hresolved
  cases hfields
  exact .iteration rfl heq (LoopUntil.holds_of_holds hrewritten hvalid ha)

/-- While it does what it does, an action has under way what it was dispatched with. -/
theorem keeps_governs {nested : Dispatcher}
    (hget : Catalogue.registry.get run.frame.actionType = .ok kind)
    (hresolved : Template.Rewritten R (kind.deferred.map Template.Deferral.ofText) []
      (.object run.config) (.object resolved))
    (hvalid : kind.validate (.object resolved) = .ok params)
    (hnested : ∀ {a free s t r s'}, Admits automation free (run :: S) (run.nested a) →
      (nested (run.nested a).frame (run.nested a).config).Ends s t r s' →
      Proceeds automation free (run :: S) t (left (failureOf r) (run :: S))) :
    (Keeps automation (run :: S)).Governs kind.type nested run.frame params where
  toLenient := keeps_lenient automation (run :: S)
  branch htype ha := fun _ _ _ _ h _ => hnested (admits_branch hget hresolved hvalid htype ha) h
  iteration htype ha h := fun _ =>
    .cons (.quiet trivial) (hnested (admits_iteration hget hresolved hvalid htype ha) h)
  stop _ _ := keeps_one (.call .cancellation _) trivial nofun

end Held

namespace Action

variable {ctx : LoopContext}

theorem proceeds_dispatchWithin {levels : Nat} {run : Running} {s s' : LoopState}
    {r : Except Failure Unit} (hadmits : Admits automation free S run)
    (h : (dispatchWithin Catalogue.registry ctx levels run.frame run.config).Ends s t r s') :
    Proceeds automation free S t (left (failureOf r) S) := by
  induction levels generalizing S run free s t r s' with
  | zero =>
    obtain ⟨rfl, rfl, -⟩ := Act.ends_fail_iff.mp h
    exact .nil
  | succ levels ih =>
    obtain ⟨t', rfl, hfollows⟩ := ends_dispatchWith h
    have hrefused {e : Failure} (he : e.Own) (ht : ∀ d ∈ t', d.Quiet) :
        Proceeds automation free S (.call (.dispatched ctx.loopIndex run.frame run.config) () :: t')
          (left (some e) S) := by
      rw [left_of_ne fun h => he.2 (Option.some.inj h)]
      exact .cons (.refuse hadmits) (.quiet ht)
    cases hfollows with
    | unknown hget => exact hrefused (Failure.own_error rfl) (List.forall_mem_nil _)
    | unresolved e ht =>
      exact hrefused (Template.ResolveFault.own_toFailure e) (quiet_of_plain ht.plain)
    | @executed kind globals now resolved t₁ t₂ r s' hget ht hresolved h =>
      have hquiet := quiet_of_plain ht.plain
      rcases ActionKind.ends_execute h with ⟨e, hvalid, rfl, rfl, rfl⟩ |
        ⟨params, started, t₃, result, report, s₁, t₄, hvalid, rfl, rfl, rfl, hbehave, htold⟩
      · obtain ⟨error, field, rfl, hfield⟩ := ActionKind.validate_error hvalid
        refine hrefused (Failure.own_error ?_) (by simpa using hquiet)
        rw [RunError.cancellation?, hfield]
      refine .cons (.begin hadmits) ((Passage.quiet hquiet).append (.cons (.quiet trivial) ?_))
      have hdone : Keeps automation (run :: S) t₃ (failureOf result) :=
        (Catalogue.registry_proper hget).1.behave (keeps_governs hget hresolved hvalid ih) ctx
          _ _ _ _ _ _ hbehave
      rcases htold with ⟨rfl, rfl⟩ | ⟨ended, told, e, taken, rfl, hat, -, htells⟩
      · rw [List.append_nil]
        exact hdone _
      -- An action that has not been interrupted tells how it ended.
      · have hended : left (failureOf (kind.outcome params result)) S = S := by
          refine left_of_ne (fun heq => ?_) S
          rcases htells with ⟨-, hr⟩ | ⟨-, _, hr, -⟩ <;> rw [hr] at heq <;> cases heq
        have hacted : left (failureOf result) (run :: S) = run :: S := by
          refine left_of_ne (fun heq => ?_) _
          rcases result with (_ | _ | _) | _ <;> cases heq
          rcases htells with ⟨-, hr⟩ | ⟨-, _, hr, -⟩ <;> cases hr
        rw [hended]
        refine (hacted ▸ hdone _).append (.cons (.quiet trivial) (.cons (.quiet trivial)
          (.cons (.finish hat (htells.imp And.left And.left)) .nil)))

end Action

/-! ### What is under way in a loop index -/

/-- A loop index begins with no action under way, and so it ends. -/
theorem keeps_steers {r : Runner} (hr : r.registry = Catalogue.registry) (automation : Automation) :
    (Keeps automation []).Steers r automation where
  toLenient := keeps_lenient automation []
  stop := keeps_one (.call .cancellation _) trivial nofun
  openSession := keeps_one (.call (.openSession _) _) trivial nofun
  close h := by
    intro free
    rw [left_nil]
    exact ((left_nil _) ▸ h free).append (.cons (.quiet trivial) .nil)
  announce ht he := by
    intro free
    have hquiet := quiet_of_plain fun d hd => plain_of_prompt (ht d hd)
    refine .cons (.quiet trivial) ((Passage.quiet hquiet).append (.cons (.step ?_ he) .nil))
    exact foldl_frees_of_prompt ht true
  act {ctx step action s s' t result} hstep haction h := by
    intro free
    have hadmits : Admits automation true [] ⟨Loop.frameOf step action, action.config⟩ :=
      .action rfl hstep haction
    rw [hr] at h
    exact .cons (.quiet trivial) (Action.proceeds_dispatchWithin hadmits h)

/-- Besides its loop indices, a run has no action under way. -/
theorem Aside.proceeds (h : Aside t) : Proceeds automation free [] t [] := by
  induction t generalizing free with
  | nil => exact .nil
  | cons d t ih =>
    refine .cons ?_ (ih fun d' hd => h d' (List.mem_cons_of_mem _ hd))
    have hd := h d List.mem_cons_self
    rcases d with ⟨c, r⟩ | w | _ | _
    · refine .quiet ?_
      cases c <;> trivial
    · exact .quiet trivial
    · exact .quiet rfl
    · exact .interrupt

namespace Whole

variable {r : Runner} {record : RunRecord}

theorem Went.proceeds (hr : r.registry = Catalogue.registry) {config : AutomationConfig}
    {runId : String} {result : Except Failure (Option RunError)}
    (h : Went r automation config runId t result) : Proceeds automation free [] t [] := by
  cases h with
  | sequential _ hends =>
    have hkept := lawful_sequential (keeps_steers hr automation) hends free
    rwa [left_nil] at hkept
  | interrupted => exact .cons (.quiet trivial) (.cons .interrupt .nil)
  | parallel => exact .quiet (by simp [Deed.Quiet])

/-- A run begins with no action under way, and so it ends. -/
theorem proceeds_run (hr : r.registry = Catalogue.registry) {e : Ended}
    (h : (run r automation record).Ends t e) : Proceeds automation free [] t [] := by
  rcases ends_run h with ⟨now, reply, rfl, -⟩ |
    ⟨now, before, t₁, after, channels, result, rfl, hbegins, hcame, hconclude⟩
  · exact .cons (.quiet trivial) (.cons (.quiet trivial) (.cons (.quiet trivial)
      (.cons .interrupt .nil)))
  · have hbefore : Proceeds automation free [] before [] := hbegins.aside.proceeds
    refine hbefore.append (Passage.append ?_ (aside_of_conclude hconclude).proceeds)
    cases hcame with
    | faulty _ _ ht => exact (Aside.of_logs ht).proceeds
    | gone _ hloops =>
      obtain ⟨ms, reason, t', rfl, hwent⟩ := ends_loops hloops
      exact .cons (.quiet trivial) ((hwent.proceeds hr).append (.cons (.quiet trivial) .nil))

theorem proceeds_loopProgram (hr : r.registry = Catalogue.registry) {runId : String} {i : Nat}
    {o : Option Failure} (h : (loopProgram r automation runId i).Ends t o) :
    Proceeds automation free [] t [] := by
  have hkept := lawful_loopProgram (keeps_steers hr automation) h free
  rwa [left_nil] at hkept

/-- In every schedule, a task that has done something has some actions under way. -/
theorem Scheduled.proceeds {σ : Type} {env : Collaborators σ} {shared : Shared σ}
    {h : List Happening} {s : State σ Ended} (hr : r.registry = Catalogue.registry)
    (hs : Scheduled env r automation record shared h s) (who : Option Nat) :
    ∃ S, Proceeds automation false [] (deedsOf who h) S := by
  have hpart {t t' : List Deed} (hall : Proceeds automation false [] (t ++ t') []) :
      ∃ S, Proceeds automation false [] t S := by
    obtain ⟨S, hS, -⟩ := hall.split
    exact ⟨S, hS⟩
  cases who with
  | none =>
    obtain ⟨t, e, hends⟩ := hs.exists_ends_main
    exact hpart (proceeds_run hr hends)
  | some i =>
    obtain ⟨t, o, hends⟩ := hs.exists_ends_loop (hr ▸ Catalogue.registry_proper) i
    exact hpart (proceeds_loopProgram hr hends)

end Whole

end Runbook
