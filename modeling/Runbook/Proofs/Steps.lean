import Runbook.Proofs.Deferral
import Runbook.Proofs.Indices

/-!
# The steps of a loop index

A loop index goes through its steps in their order. Each one that is not skipped is announced once,
and then its actions are dispatched in their order. So what a loop index announces and dispatches
itself, the actions that other actions hold apart, is a beginning of what is planned: the steps that
are not skipped, each followed by its actions. It is all that is planned when the loop index gets
past all its steps. Otherwise it breaks off somewhere: at an action that fails, at a look that finds
a request to stop, at a condition that cannot be evaluated, or at a session that is not opened. From
there on nothing is announced or dispatched.

Whether a step is skipped is decided when it is its turn, and by what has been drawn by then. The
plan is made up of these decisions.

* `StablySorted order items sorted`: the items in the order of their numbers, and equal numbers in
  the given order.
* `Loop.marks t`: the steps that are announced in a trace and the actions that are dispatched, but
  for those that other actions hold.
* `Loop.planned i decided`: the marks of the steps that are not skipped.
* `Loop.Outline i steps decided t`: the marks of a trace are a beginning of what is planned.
* `Loop.BreaksOff r ctx steps t e`: a trace ends with what a loop index fails of.
* `Loop.run_outline`: the marks of a loop index, and where they break off.
-/

namespace Runbook

/-! ### The order -/

/-- The items in the order of their numbers, and equal numbers in the given order. -/
structure StablySorted {α : Type} (order : α → Json) (items sorted : List α) : Prop where
  perm : sorted.Perm items
  ascending : sorted.Pairwise fun a b => rank (order a) ≤ rank (order b)
  stable (q : Rat) :
    (sorted.filter fun a => rank (order a) = q) = items.filter fun a => rank (order a) = q

theorem stablySorted_byRank {α : Type} (order : α → Json) (items : List α) :
    StablySorted order items (byRank order items) := by
  have htrans (a b c : α) (hab : decide (rank (order a) ≤ rank (order b)) = true)
      (hbc : decide (rank (order b) ≤ rank (order c)) = true) :
      decide (rank (order a) ≤ rank (order c)) = true :=
    decide_eq_true (Rat.le_trans (of_decide_eq_true hab) (of_decide_eq_true hbc))
  have htotal (a b : α) : (decide (rank (order a) ≤ rank (order b)) ||
      decide (rank (order b) ≤ rank (order a))) = true := by
    simpa using Rat.le_total
  have hperm : (byRank order items).Perm items := List.mergeSort_perm ..
  have hsorted := List.pairwise_mergeSort htrans htotal items
  refine ⟨hperm, hsorted.imp of_decide_eq_true, fun q => ?_⟩
  -- Items with the same number are in order already, and so they stay as they are.
  have hequal : (items.filter fun a => rank (order a) = q).Pairwise fun a b =>
      decide (rank (order a) ≤ rank (order b)) = true := by
    rw [List.pairwise_iff_forall_sublist]
    intro a b hab
    have hmem {c : α} (hc : c ∈ [a, b]) : rank (order c) = q :=
      of_decide_eq_true (List.mem_filter.mp (hab.subset hc)).2
    rw [hmem List.mem_cons_self, hmem (List.mem_cons_of_mem _ List.mem_cons_self)]
    exact decide_eq_true Rat.le_refl
  have hkept := (List.sublist_mergeSort htrans htotal hequal List.filter_sublist).filter
    fun a => rank (order a) = q
  rw [List.filter_filter] at hkept
  simp only [Bool.and_self] at hkept
  exact (hkept.eq_of_length (hperm.filter _).length_eq.symm).symm

/-! ### Marks -/

namespace Loop

/-- What shows of a loop index: that a step is announced, or that an action of it is dispatched. -/
inductive Mark where
  | step (loopIndex : Int) (id name : String)
  | action (loopIndex : Int) (frame : Frame) (config : Fields)

/-- Whether a mark announces a step. -/
def Mark.isStep : Mark → Bool
  | .step .. => true
  | .action .. => false

end Loop

open Loop

/-- The mark that a deed leaves. Actions that other actions hold leave none. -/
def Deed.mark? : Deed → Option Mark
  | .call (.emit e) _ =>
    if e.type = .step then some (.step e.loopIndex e.stepId e.stepName) else none
  | .call (.dispatched i frame config) _ =>
    if frame.depth = 0 then some (.action i frame config) else none
  | _ => none

/-- A deed that neither announces a step nor dispatches anything. -/
structure Deed.Inert (d : Deed) : Prop where
  unmarked : d.mark? = none
  undispatched {i : Int} {frame : Frame} {config : Fields} :
    d ≠ .call (.dispatched i frame config) ()

theorem Call.Plain.inert {c : Call} (h : c.Plain) (r : c.Reply) : (Deed.call c r).Inert := by
  cases c <;> first | exact h.elim | exact ⟨rfl, nofun⟩

namespace Loop

/-- The marks of a trace. -/
def marks (t : List Deed) : List Mark := t.filterMap Deed.mark?

theorem marks_append (t t' : List Deed) : marks (t ++ t') = marks t ++ marks t' :=
  List.filterMap_append

theorem marks_eq_nil_iff {t : List Deed} : marks t = [] ↔ ∀ d ∈ t, d.mark? = none :=
  List.filterMap_eq_nil_iff

theorem marks_of_inert {t : List Deed} (h : ∀ d ∈ t, d.Inert) : marks t = [] :=
  marks_eq_nil_iff.mpr fun d hd => (h d hd).unmarked

theorem marks_surround {t t₀ t₁ : List Deed} (hbefore : ∀ d ∈ t₀, d.Inert)
    (hafter : ∀ d ∈ t₁, d.Inert) : marks (t₀ ++ (t ++ t₁)) = marks t := by
  rw [marks_append, marks_append, marks_of_inert hbefore, marks_of_inert hafter, List.nil_append,
    List.append_nil]

end Loop

/-- All deeds have a property. -/
def Each (P : Deed → Prop) : Law := fun t _ => ∀ d ∈ t, P d

/-- A property of all that an action may do on its own is kept. -/
theorem each_lenient {P : Deed → Prop} (hinert : ∀ d, d.Inert → P d) : (Each P).Lenient := by
  have happend {t t' : List Deed} (h : ∀ d ∈ t, P d) (h' : ∀ d ∈ t', P d) : ∀ d ∈ t ++ t', P d := by
    intro d hd
    exact (List.mem_append.mp hd).elim (h d) (h' d)
  have hone {d : Deed} (hd : d.Inert) : ∀ d' ∈ [d], P d' :=
    List.forall_mem_singleton.mpr (hinert d hd)
  refine ⟨⟨⟨List.forall_mem_nil _, happend⟩, fun hc => hone (hc.inert _), fun _ =>
    List.forall_mem_nil _⟩, fun he => hone ⟨?_, nofun⟩, ?_, ?_, hone ⟨rfl, nofun⟩,
    fun h _ h' _ => happend h h'⟩
  · simp [Deed.mark?, he]
  · exact happend (t := [_]) (hone ⟨rfl, nofun⟩) (hone ⟨rfl, nofun⟩)
  · exact happend (t := [_]) (hone ⟨rfl, nofun⟩) (hone ⟨rfl, nofun⟩)

/-- What leaves no marks. -/
abbrev Markless : Law := Each fun d => d.mark? = none

/-- What announces no steps and dispatches nothing. -/
abbrev Inertly : Law := Each Deed.Inert

theorem markless_lenient : Markless.Lenient := each_lenient fun _ h => h.unmarked

theorem inertly_lenient : Inertly.Lenient := each_lenient fun _ h => h

/-! ### Actions -/

namespace Action

variable {registry : Registry ActionKind} (hregistry : registry.Proper) {ctx : LoopContext}
  {nested : Dispatcher} {frame : Frame} {config : Fields} {s s' : LoopState} {t : List Deed}
  {r : Except Failure Unit}

include hregistry

/-- After its announcement an action leaves no marks, when those inside other actions leave none. -/
theorem Follows.markless
    (hnested : ∀ frame config, frame.depth ≠ 0 → (nested frame config).Obeys Markless)
    (h : Follows registry ctx nested frame config s t r s') : ∀ d ∈ t, d.mark? = none := by
  have hL := markless_lenient
  have hconsults {globals : Fields} {now : Rat} {t : List Deed}
      (ht : Act.Consults globals now t) : Markless t none := hL.toLiberal.calls ht.plain
  cases h with
  | unknown => exact List.forall_mem_nil _
  | unresolved _ ht => exact hconsults ht
  | executed hget ht _ h =>
    refine hL.append (hconsults ht) (o := none) ?_
    rcases ActionKind.ends_execute h with ⟨-, -, -, rfl, -⟩ |
      ⟨params, started, t₁, result, report, s₁, t₂, -, rfl, -, -, hbehave, htold⟩
    · exact hL.nil
    have hgoverns (type : String) : Markless.Governs type nested frame params :=
      hL.governs (hnested _ _ (Nat.succ_ne_zero _)) (List.forall_mem_singleton.mpr rfl) type params
    have hdone := (hregistry hget).1.behave (hgoverns _) ctx _ _ _ _ _ _ hbehave
    refine hL.append (t := [_]) (hL.call (c := .now) trivial) (hL.append (o := none) hdone ?_)
    rcases htold with ⟨rfl, -⟩ | ⟨ended, now, e, taken, rfl, -, -, htells⟩
    · exact hL.nil
    · have he : e.type ≠ .step := by
        rcases htells with ⟨htype, -⟩ | ⟨htype, -⟩ <;> rw [htype] <;> nofun
      simp [Each, Deed.mark?, he]

/-- An action that another action holds leaves no marks. -/
theorem markless_dispatchWithin (levels : Nat) (hdepth : frame.depth ≠ 0) :
    (dispatchWithin registry ctx levels frame config).Obeys Markless := by
  induction levels generalizing frame config with
  | zero => exact Act.obeys_fail (List.forall_mem_nil _)
  | succ levels ih =>
    intro s t r s' h
    obtain ⟨t', rfl, hfollows⟩ := ends_dispatchWith h
    refine List.forall_mem_cons.mpr ⟨if_neg hdepth, ?_⟩
    exact hfollows.markless hregistry fun frame config hdepth => ih hdepth

/-- A dispatch leaves a mark at its beginning, and then none. -/
theorem ends_dispatch (h : (dispatch registry ctx frame config).Ends s t r s') :
    ∃ t', t = .call (.dispatched ctx.loopIndex frame config) () :: t' ∧
      ∀ d ∈ t', d.mark? = none := by
  obtain ⟨t', rfl, hfollows⟩ := ends_dispatchWith h
  exact ⟨t', rfl, hfollows.markless hregistry fun frame config hdepth =>
    markless_dispatchWithin hregistry _ hdepth⟩

end Action

namespace Loop

/-! ### Pictures of the page -/

/-- A picture of the page that cannot be taken is given up. -/
theorem ends_capture {ctx : LoopContext} {frame : Frame} {s s' : LoopState} {t : List Deed}
    {result : Except Failure Unit} (h : (capture ctx frame).Ends s t result s') :
    result = .ok () ∧ ∀ d ∈ t, d.Inert := by
  refine ⟨?_, obeys_capture inertly_lenient ctx frame _ _ _ _ h⟩
  unfold capture at h
  split at h
  · obtain ⟨t₁, x, s₁, t₂, rfl, h₁, h₂⟩ := ends_outcome_bind_iff.mp h
    have htaken := obeys_picture ctx _ _ _ _ h₁
    rcases x with (e | f | _) | url
    · obtain ⟨_, -, hr, -⟩ := Act.ends_ask_iff.mp h₂
      exact hr
    · obtain ⟨_, -, hr, -⟩ := Act.ends_ask_iff.mp h₂
      exact hr
    · exact absurd rfl (htaken.2 _ rfl).2
    · obtain ⟨_, _, hr, -, -⟩ := Act.ends_emit_iff.mp h₂
      exact hr
  · exact (Act.ends_pure_iff.mp h).2.1

/-! ### The actions of a step -/

section Course

variable (r : Runner) (ctx : LoopContext)

/-- What the actions of a step come to, one after another. -/
inductive Acts (step : Step) : List ActionItem → List Deed → Except Failure Unit → Prop
  /-- All of them have been dispatched. -/
  | done : Acts step [] [] (.ok ())
  /-- A look finds a request to stop. -/
  | stopped {action : ActionItem} {rest : List ActionItem} {c : Cancellation} :
      Acts step (action :: rest) [.call .cancellation (some c)] (.error (.error (c.toError "")))
  /-- An action fails, and with it the step. -/
  | failed {action : ActionItem} {rest : List ActionItem} {s s' : LoopState} {t t' : List Deed}
      {e : Failure}
      (h : (Action.dispatch r.registry ctx (frameOf step action) action.config).Ends s t
        (.error e) s') (hinert : ∀ d ∈ t', d.Inert) :
      Acts step (action :: rest) (.call .cancellation none :: (t ++ t')) (.error e)
  | next {action : ActionItem} {rest : List ActionItem} {s s' : LoopState} {t t' : List Deed}
      {result : Except Failure Unit}
      (h : (Action.dispatch r.registry ctx (frameOf step action) action.config).Ends s t
        (.ok ()) s') (hrest : Acts step rest t' result) :
      Acts step (action :: rest) (.call .cancellation none :: (t ++ t')) result

/-- How it is decided whether a step is skipped. -/
inductive Decides (step : Step) : List Deed → Except Failure Bool → Prop
  | refused {chance : Chance} {f : Fault}
      (h : Condition.decideSkip step.config ctx.loopIndex chance.draws = .error f) :
      Decides step [.call .chance chance] (.error (.fault f))
  | decided {chance : Chance} {decision : Condition.Decision}
      (h : Condition.decideSkip step.config ctx.loopIndex chance.draws = .ok decision) :
      Decides step (.call .chance chance ::
        .call (.setChance { chance with draws := decision.draws }) () ::
          decision.log.map fun r => .call (.log r) ()) (.ok decision.skip)

/-- What the steps come to, one after another. -/
inductive Course : List Step → List Deed → Except Failure Unit → Prop
  /-- It has got past all of them. -/
  | done : Course [] [] (.ok ())
  /-- A look finds a request to stop. -/
  | stopped {step : Step} {rest : List Step} {c : Cancellation} :
      Course (step :: rest) [.call .cancellation (some c)] (.error (.error (c.toError "")))
  /-- It cannot be decided whether the step is skipped. -/
  | undecided {step : Step} {rest : List Step} {t : List Deed} {e : Failure}
      (h : Decides ctx step t (.error e)) :
      Course (step :: rest) (.call .cancellation none :: t) (.error e)
  | skipped {step : Step} {rest : List Step} {t t' : List Deed} {result : Except Failure Unit}
      (h : Decides ctx step t (.ok true)) (hrest : Course rest t' result) :
      Course (step :: rest) (.call .cancellation none :: (t ++ t')) result
  /-- The actions of the step break off. -/
  | broken {step : Step} {rest : List Step} {t t₁ t₂ : List Deed} {s s' : LoopState} {e : Failure}
      (h : Decides ctx step t (.ok false)) (hannounce : (announce ctx step).Ends s t₁ (.ok ()) s')
      (hacts : Acts r ctx step step.orderedActions t₂ (.error e)) :
      Course (step :: rest) (.call .cancellation none :: (t ++ (t₁ ++ t₂))) (.error e)
  | next {step : Step} {rest : List Step} {t t₁ t₂ t' : List Deed} {s s' : LoopState}
      {result : Except Failure Unit} (h : Decides ctx step t (.ok false))
      (hannounce : (announce ctx step).Ends s t₁ (.ok ()) s')
      (hacts : Acts r ctx step step.orderedActions t₂ (.ok ())) (hrest : Course rest t' result) :
      Course (step :: rest) (.call .cancellation none :: (t ++ (t₁ ++ t₂)) ++ t') result

variable {r ctx} {s s' : LoopState} {t : List Deed} {result : Except Failure Unit}

/-- What an action of a step does when its look has found nothing. -/
theorem ends_runAction {step : Step} {action : ActionItem}
    (h : (runAction r ctx step action).Ends s t result s') :
    (∃ c, t = [.call .cancellation (some c)] ∧ result = .error (.error (c.toError ""))) ∨
    ∃ t₁ t₂ s₁, t = .call .cancellation none :: (t₁ ++ t₂) ∧ (∀ d ∈ t₂, d.Inert) ∧
      (result = .ok () → t₂ = []) ∧
      (Action.dispatch r.registry ctx (frameOf step action) action.config).Ends s t₁ result s₁ := by
  have hlogged (record : LogRecord) : (Deed.call (.log record) ()).Inert := ⟨rfl, nofun⟩
  rcases Act.ends_bind_iff.mp h with ⟨t₁, _, s₁, t₂, rfl, h₁, h₂⟩ | ⟨e, h₁, rfl⟩
  · obtain ⟨rfl, ⟨rfl, -⟩ | ⟨_, -, hr⟩⟩ := Act.ends_checkpoint_iff.mp h₁
    · refine .inr ?_
      obtain ⟨t₃, x, s₂, t₄, rfl, h₃, h₄⟩ := ends_outcome_bind_iff.mp h₂
      rcases x with (e | f | _) | _
      · -- The error is logged, and a picture of the page may be taken.
        obtain ⟨_, t₅, rfl, h₅⟩ := Act.ends_ask_bind_iff.mp h₄
        dsimp only at h₅
        split at h₅
        · rcases Act.ends_bind_iff.mp h₅ with ⟨t₆, _, s₃, t₇, rfl, h₆, h₇⟩ | ⟨e', h₆, -⟩
          · obtain ⟨rfl, rfl, -⟩ := Act.ends_fail_iff.mp h₇
            refine ⟨t₃, _, s₂, rfl, ?_, nofun, h₃⟩
            rw [List.append_nil]
            exact List.forall_mem_cons.mpr ⟨hlogged _, (ends_capture h₆).2⟩
          · cases (ends_capture h₆).1
        · obtain ⟨rfl, rfl, -⟩ := Act.ends_fail_iff.mp h₅
          exact ⟨t₃, _, s₂, rfl, List.forall_mem_singleton.mpr (hlogged _), nofun, h₃⟩
      · obtain ⟨rfl, rfl, -⟩ := Act.ends_fail_iff.mp h₄
        exact ⟨t₃, [], s₂, rfl, List.forall_mem_nil _, fun _ => rfl, h₃⟩
      · obtain ⟨rfl, rfl, -⟩ := Act.ends_fail_iff.mp h₄
        exact ⟨t₃, [], s₂, rfl, List.forall_mem_nil _, fun _ => rfl, h₃⟩
      · obtain ⟨rfl, rfl, -⟩ := Act.ends_pure_iff.mp h₄
        exact ⟨t₃, [], s₂, rfl, List.forall_mem_nil _, fun _ => rfl, h₃⟩
    · cases hr
  · obtain ⟨-, ⟨-, hr⟩ | ⟨c, rfl, hr⟩⟩ := Act.ends_checkpoint_iff.mp h₁
    · cases hr
    · cases hr
      exact .inl ⟨c, rfl, rfl⟩

theorem acts_of_ends {step : Step} {actions : List ActionItem}
    (h : (actions.forM (runAction r ctx step)).Ends s t result s') :
    Acts r ctx step actions t result := by
  induction actions generalizing s t with
  | nil =>
    obtain ⟨rfl, rfl, -⟩ := Act.ends_pure_iff.mp h
    exact .done
  | cons action rest ih =>
    rcases Act.ends_bind_iff.mp h with ⟨t₁, _, s₁, t₂, rfl, h₁, h₂⟩ | ⟨e, h₁, rfl⟩
    · rcases ends_runAction h₁ with ⟨c, -, hr⟩ | ⟨t₃, t₄, s₂, rfl, -, hnil, hends⟩
      · cases hr
      · rw [hnil rfl, List.append_nil]
        exact .next hends (ih h₂)
    · rcases ends_runAction h₁ with ⟨c, rfl, hr⟩ | ⟨t₃, t₄, s₂, rfl, hinert, -, hends⟩
      · cases hr
        exact .stopped
      · exact .failed hends hinert

/-- The decision changes no variables. -/
theorem decides_of_ends {step : Step} {skip : Except Failure Bool}
    (h : (isSkipped ctx step).Ends s t skip s') : Decides ctx step t skip ∧ s' = s := by
  obtain ⟨chance, t₁, rfl, h₁⟩ := Act.ends_ask_bind_iff.mp h
  rcases Act.ends_bind_iff.mp h₁ with ⟨t₂, decision, s₁, t₃, rfl, h₂, h₃⟩ | ⟨e, h₂, rfl⟩
  · obtain ⟨rfl, hdecision, rfl⟩ := Act.ends_ofExcept_iff.mp h₂
    obtain ⟨_, t₄, rfl, h₄⟩ := Act.ends_ask_bind_iff.mp h₃
    rcases Act.ends_bind_iff.mp h₄ with ⟨t₅, _, s₂, t₆, rfl, h₅, h₆⟩ | ⟨e, h₅, -⟩
    · obtain ⟨rfl, -, rfl⟩ := Act.ends_logs h₅
      obtain ⟨rfl, rfl, rfl⟩ := Act.ends_pure_iff.mp h₆
      rw [List.append_nil]
      exact ⟨.decided (eq_ok_of_mapError hdecision.symm), rfl⟩
    · obtain ⟨-, hr, -⟩ := Act.ends_logs h₅
      cases hr
  · obtain ⟨rfl, he, rfl⟩ := Act.ends_ofExcept_iff.mp h₂
    cases hdecision : Condition.decideSkip step.config ctx.loopIndex chance.draws with
    | error f =>
      rw [hdecision] at he
      cases he
      exact ⟨.refused hdecision, rfl⟩
    | ok decision =>
      rw [hdecision] at he
      cases he

/-- What a step comes to. -/
theorem ends_runStep {step : Step} (h : (runStep r ctx step).Ends s t result s') :
    (∃ c, t = [.call .cancellation (some c)] ∧ result = .error (.error (c.toError ""))) ∨
    ∃ t', t = .call .cancellation none :: t' ∧
      ((∃ e, Decides ctx step t' (.error e) ∧ result = .error e) ∨
        (Decides ctx step t' (.ok true) ∧ result = .ok ()) ∨
        ∃ t₁ t₂ t₃ s₁ s₂, t' = t₁ ++ (t₂ ++ t₃) ∧ Decides ctx step t₁ (.ok false) ∧
          (announce ctx step).Ends s₁ t₂ (.ok ()) s₂ ∧
          Acts r ctx step step.orderedActions t₃ result) := by
  rcases Act.ends_bind_iff.mp h with ⟨t₁, _, s₁, t₂, rfl, h₁, h₂⟩ | ⟨e, h₁, rfl⟩
  · obtain ⟨rfl, ⟨rfl, -⟩ | ⟨_, -, hr⟩⟩ := Act.ends_checkpoint_iff.mp h₁
    · refine .inr ⟨t₂, rfl, ?_⟩
      rcases Act.ends_bind_iff.mp h₂ with ⟨t₃, skip, s₂, t₄, rfl, h₃, h₄⟩ | ⟨e, h₃, rfl⟩
      · have hdecides := (decides_of_ends h₃).1
        cases skip with
        | true =>
          obtain ⟨rfl, rfl, -⟩ := Act.ends_pure_iff.mp h₄
          rw [List.append_nil]
          exact .inr (.inl ⟨hdecides, rfl⟩)
        | false =>
          rcases Act.ends_bind_iff.mp h₄ with ⟨t₅, _, s₃, t₆, rfl, h₅, h₆⟩ | ⟨e, h₅, -⟩
          · exact .inr (.inr ⟨t₃, t₅, t₆, s₂, s₃, rfl, hdecides, h₅, acts_of_ends h₆⟩)
          · obtain ⟨-, -, -, -, -, hr⟩ := ends_announce h₅
            cases hr
      · exact .inl ⟨e, (decides_of_ends h₃).1, rfl⟩
    · cases hr
  · obtain ⟨-, ⟨-, hr⟩ | ⟨c, rfl, hr⟩⟩ := Act.ends_checkpoint_iff.mp h₁
    · cases hr
    · cases hr
      exact .inl ⟨c, rfl, rfl⟩

theorem course_of_ends {steps : List Step}
    (h : (steps.forM (runStep r ctx)).Ends s t result s') : Course r ctx steps t result := by
  induction steps generalizing s t with
  | nil =>
    obtain ⟨rfl, rfl, -⟩ := Act.ends_pure_iff.mp h
    exact .done
  | cons step rest ih =>
    rcases Act.ends_bind_iff.mp h with ⟨t₁, _, s₁, t₂, rfl, h₁, h₂⟩ | ⟨e, h₁, rfl⟩
    · rcases ends_runStep h₁ with ⟨c, -, hr⟩ | ⟨t₃, rfl, ⟨e, -, hr⟩ | ⟨hskip, -⟩ |
        ⟨t₄, t₅, t₆, s₂, s₃, rfl, hdecides, hannounce, hacts⟩⟩
      · cases hr
      · cases hr
      · exact .skipped hskip (ih h₂)
      · exact .next hdecides hannounce hacts (ih h₂)
    · rcases ends_runStep h₁ with ⟨c, rfl, hr⟩ | ⟨t₃, rfl, ⟨e', hdecides, hr⟩ | ⟨-, hr⟩ |
        ⟨t₄, t₅, t₆, s₂, s₃, rfl, hdecides, hannounce, hacts⟩⟩
      · cases hr
        exact .stopped
      · cases hr
        exact .undecided hdecides
      · cases hr
      · exact .broken hdecides hannounce hacts

end Course

/-! ### Plans -/

/-- The mark of an action of a step. -/
def actionMark (i : Int) (step : Step) (action : ActionItem) : Mark :=
  .action i (frameOf step action) action.config

/-- The mark that announces a step. -/
def stepMark (i : Int) (step : Step) : Mark := .step i step.id step.name

/-- The marks of the steps that are not skipped, each followed by those of its actions. -/
def planned (i : Int) (decided : List (Step × Bool)) : List Mark :=
  (decided.filter fun d => !d.2).flatMap fun d =>
    stepMark i d.1 :: d.1.orderedActions.map (actionMark i d.1)

/-- It has been decided from what is drawn whether a step is skipped. -/
def Told (i : Int) (t : List Deed) (step : Step) (skip : Bool) : Prop :=
  ∃ before after chance decision, t = before ++ .call .chance chance ::
      .call (.setChance { chance with draws := decision.draws }) () :: after ∧
    Condition.decideSkip step.config i chance.draws = .ok decision ∧ decision.skip = skip

/-- The trace shows a beginning of what is planned: for some of the first steps it has been decided
whether they are skipped. Each of these that is not skipped is announced once, and no other step;
and what is announced and dispatched is a beginning of what is planned for them. -/
structure Outline (i : Int) (steps : List Step) (decided : List (Step × Bool)) (t : List Deed) :
    Prop where
  reached : decided.map Prod.fst <+: steps
  told : ∀ d ∈ decided, Told i t d.1 d.2
  marks : marks t <+: planned i decided
  announced : (Loop.marks t).filter Mark.isStep =
    (decided.filter fun d => !d.2).map fun d => stepMark i d.1

/-- What a loop index breaks off at. -/
inductive Cause where
  | session
  | look
  | decision
  | action
  deriving DecidableEq

/-- A trace ends with that of which a loop index fails: a session that is not opened, a look that
finds a request to stop, a decision that cannot be made, or an action that fails. -/
inductive BreaksOff (r : Runner) (ctx : LoopContext) (steps : List Step) :
    Cause → List Deed → Failure → Prop
  | session {t : List Deed} {i : Nat} {f : Fault} :
      BreaksOff r ctx steps .session (t ++ [.call (.openSession i) (.error f)])
        (.error (.browser s!"failed to open browser session: {f.text}" none none))
  | look {t : List Deed} {c : Cancellation} :
      BreaksOff r ctx steps .look (t ++ [.call .cancellation (some c)]) (.error (c.toError ""))
  | decision {t : List Deed} {step : Step} {chance : Chance} {f : Fault} (hstep : step ∈ steps)
      (h : Condition.decideSkip step.config ctx.loopIndex chance.draws = .error f) :
      BreaksOff r ctx steps .decision (t ++ [.call .chance chance]) (.fault f)
  | action {t t' : List Deed} {step : Step} {action : ActionItem} {s s' : LoopState} {e : Failure}
      (hstep : step ∈ steps) (haction : action ∈ step.orderedActions)
      (h : (Action.dispatch r.registry ctx (frameOf step action) action.config).Ends s t'
        (.error e) s') : BreaksOff r ctx steps .action (t ++ t') e

/-- A loop index breaks off, and then it neither announces nor dispatches anything. -/
def Broken (r : Runner) (ctx : LoopContext) (steps : List Step) (cause : Cause) (t : List Deed)
    (e : Failure) : Prop :=
  ∃ before after, t = before ++ after ∧ BreaksOff r ctx steps cause before e ∧ ∀ d ∈ after, d.Inert

namespace Told

variable {i : Int} {t : List Deed} {step : Step} {skip : Bool}

theorem append_left (h : Told i t step skip) (t₀ : List Deed) : Told i (t₀ ++ t) step skip := by
  obtain ⟨before, after, chance, decision, rfl, h⟩ := h
  exact ⟨t₀ ++ before, after, chance, decision, by simp, h⟩

theorem append_right (h : Told i t step skip) (t₁ : List Deed) : Told i (t ++ t₁) step skip := by
  obtain ⟨before, after, chance, decision, rfl, h⟩ := h
  exact ⟨before, after ++ t₁, chance, decision, by simp, h⟩

end Told

section Outlines

variable {i : Int} {step : Step} {steps rest : List Step} {decided : List (Step × Bool)}
  {t t' : List Deed}

theorem planned_cons_skipped :
    planned i ((step, true) :: decided) = planned i decided := rfl

theorem planned_cons :
    planned i ((step, false) :: decided) =
      stepMark i step :: step.orderedActions.map (actionMark i step) ++ planned i decided := rfl

theorem outline_nil (h : marks t = []) : Outline i steps [] t where
  reached := List.nil_prefix
  told := by simp
  marks := by simp [h]
  announced := by simp [h]

namespace Outline

/-- Inert deeds do not change the outline. -/
theorem surround (h : Outline i steps decided t) {t₀ t₁ : List Deed} (hbefore : ∀ d ∈ t₀, d.Inert)
    (hafter : ∀ d ∈ t₁, d.Inert) : Outline i steps decided (t₀ ++ (t ++ t₁)) := by
  have hmarks := marks_surround (t := t) hbefore hafter
  exact ⟨h.reached, fun d hd => ((h.told d hd).append_right t₁).append_left t₀, hmarks ▸ h.marks,
    hmarks ▸ h.announced⟩

theorem told_append {skip : Bool} (h : Outline i rest decided t') (htold : Told i t step skip) :
    ∀ d ∈ (step, skip) :: decided, Told i (t ++ t') d.1 d.2 :=
  List.forall_mem_cons.mpr
    ⟨htold.append_right t', fun d hd => (h.told d hd).append_left t⟩

/-- A step is skipped. -/
theorem skip (h : Outline i rest decided t') (htold : Told i t step true)
    (hmarks : Loop.marks t = []) :
    Outline i (step :: rest) ((step, true) :: decided) (t ++ t') where
  reached := List.prefix_cons_inj step |>.mpr h.reached
  told := h.told_append htold
  marks := by
    rw [marks_append, hmarks]
    exact h.marks
  announced := by
    rw [marks_append, hmarks]
    exact h.announced

theorem filter_isStep_of_prefix {ms : List Mark} {actions : List ActionItem}
    (h : ms <+: actions.map (actionMark i step)) : ms.filter Mark.isStep = [] := by
  rw [List.filter_eq_nil_iff]
  intro m hm
  obtain ⟨action, -, rfl⟩ := List.mem_map.mp (h.subset hm)
  exact Bool.false_ne_true

/-- A step is announced and all its actions are dispatched. -/
theorem next (h : Outline i rest decided t') (htold : Told i t step false)
    (hmarks : Loop.marks t =
      stepMark i step :: step.orderedActions.map (actionMark i step)) :
    Outline i (step :: rest) ((step, false) :: decided) (t ++ t') where
  reached := List.prefix_cons_inj step |>.mpr h.reached
  told := h.told_append htold
  marks := by
    rw [marks_append, hmarks, planned_cons]
    exact (List.prefix_append_right_inj _).mpr h.marks
  announced := by
    rw [marks_append, hmarks, List.filter_append, h.announced, List.filter_cons_of_pos rfl,
      filter_isStep_of_prefix (List.prefix_refl _)]
    rfl

end Outline

/-- A step is announced, and then some of its actions are dispatched. -/
theorem outline_last (htold : Told i t step false) {ms : List Mark}
    (hmarks : marks t = stepMark i step :: ms)
    (hms : ms <+: step.orderedActions.map (actionMark i step)) :
    Outline i (step :: rest) [(step, false)] t where
  reached := List.prefix_cons_inj step |>.mpr List.nil_prefix
  told := List.forall_mem_singleton.mpr htold
  marks := by
    rw [hmarks, planned_cons]
    exact ((List.prefix_cons_inj _).mpr hms).trans (List.prefix_append ..)
  announced := by
    rw [hmarks]
    exact congrArg (stepMark i step :: ·) (Outline.filter_isStep_of_prefix hms)

end Outlines

namespace Broken

variable {r : Runner} {ctx : LoopContext} {steps steps' : List Step} {cause : Cause}
  {t : List Deed} {e : Failure}

theorem prepend (h : Broken r ctx steps cause t e) (hsteps : ∀ step ∈ steps, step ∈ steps')
    (t₀ : List Deed) : Broken r ctx steps' cause (t₀ ++ t) e := by
  obtain ⟨before, after, rfl, h, hinert⟩ := h
  refine ⟨t₀ ++ before, after, (List.append_assoc ..).symm, ?_, hinert⟩
  cases h with
  | session => rw [← List.append_assoc]; exact .session
  | look => rw [← List.append_assoc]; exact .look
  | decision hstep h => rw [← List.append_assoc]; exact .decision (hsteps _ hstep) h
  | action hstep haction h => rw [← List.append_assoc]; exact .action (hsteps _ hstep) haction h

theorem append (h : Broken r ctx steps cause t e) {t₁ : List Deed} (hinert : ∀ d ∈ t₁, d.Inert) :
    Broken r ctx steps cause (t ++ t₁) e := by
  obtain ⟨before, after, rfl, h, hafter⟩ := h
  refine ⟨before, after ++ t₁, List.append_assoc .., h, fun d hd => ?_⟩
  exact (List.mem_append.mp hd).elim (hafter d) (hinert d)

end Broken

/-! ### Loop indices -/

section Runs

variable {r : Runner} (hregistry : r.registry.Proper) {ctx : LoopContext} {s s' : LoopState}
  {t : List Deed} {result : Except Failure Unit} {step : Step}

/-- The announcement of a step leaves its mark. -/
theorem marks_announce (h : (announce ctx step).Ends s t result s') :
    marks t = [stepMark ctx.loopIndex step] := by
  obtain ⟨now, t₁, rfl, h₁⟩ := Act.ends_ask_bind_iff.mp h
  obtain ⟨taken, t₂, rfl, h₂⟩ := Act.ends_ask_bind_iff.mp h₁
  obtain ⟨rfl, -, -⟩ := Act.ends_pure_iff.mp h₂
  rfl

theorem Decides.marks {skip : Except Failure Bool} (h : Decides ctx step t skip) :
    marks t = [] := by
  refine marks_eq_nil_iff.mpr fun d hd => ?_
  cases h with
  | refused =>
    rw [List.mem_singleton.mp hd]
    rfl
  | decided =>
    simp only [List.mem_cons, List.mem_map] at hd
    obtain rfl | rfl | ⟨_, -, rfl⟩ := hd <;> rfl

theorem Decides.told {skip : Bool} (h : Decides ctx step t (.ok skip)) :
    Told ctx.loopIndex t step skip := by
  cases h with
  | decided h => exact ⟨[], _, _, _, rfl, h, rfl⟩

/-- A step that is not skipped leaves its mark, and then its actions leave theirs. -/
theorem Decides.marks_announced {t₁ : List Deed} (h : Decides ctx step t (.ok false))
    (hannounce : (announce ctx step).Ends s t₁ (.ok ()) s') (t₂ : List Deed) :
    Loop.marks (.call .cancellation none :: (t ++ (t₁ ++ t₂))) =
      stepMark ctx.loopIndex step :: Loop.marks t₂ := by
  change Loop.marks (t ++ (t₁ ++ t₂)) = _
  rw [marks_append, marks_append, h.marks, marks_announce hannounce]
  rfl

include hregistry

/-- The dispatch of an action of a step leaves its mark, and no other. -/
theorem marks_dispatch {action : ActionItem}
    (h : (Action.dispatch r.registry ctx (frameOf step action) action.config).Ends s t result s') :
    marks t = [actionMark ctx.loopIndex step action] := by
  obtain ⟨t', rfl, hrest⟩ := Action.ends_dispatch hregistry h
  exact congrArg (actionMark ctx.loopIndex step action :: ·) (marks_eq_nil_iff.mpr hrest)

/-- The actions of a step are dispatched in their order, all of them unless one fails or a look
finds a request to stop. -/
theorem Acts.outcome {steps : List Step} {actions : List ActionItem}
    (h : Acts r ctx step actions t result) (hstep : step ∈ steps)
    (hactions : ∀ action ∈ actions, action ∈ step.orderedActions) :
    marks t <+: actions.map (actionMark ctx.loopIndex step) ∧
    (result = .ok () → marks t = actions.map (actionMark ctx.loopIndex step)) ∧
    ∀ e, result = .error e → Broken r ctx steps .action t e ∨
      Broken r ctx steps .look t e ∧ marks t ≠ actions.map (actionMark ctx.loopIndex step) := by
  induction h with
  | done =>
    refine ⟨List.prefix_refl _, fun _ => rfl, fun e he => ?_⟩
    cases he
  | stopped =>
    refine ⟨List.nil_prefix, nofun, fun e he => .inr ⟨?_, nofun⟩⟩
    cases he
    exact ⟨_, [], (List.append_nil _).symm, .look (t := []), List.forall_mem_nil _⟩
  | @failed action rest s s' t t' e h hinert =>
    have hmarks : marks (.call .cancellation none :: (t ++ t')) =
        [actionMark ctx.loopIndex step action] := by
      change marks (t ++ t') = _
      rw [marks_append, marks_dispatch hregistry h, marks_of_inert hinert, List.append_nil]
    refine ⟨hmarks ▸ ?_, nofun, fun e' he => .inl ?_⟩
    · exact (List.prefix_cons_inj _).mpr List.nil_prefix
    · cases he
      have haction := hactions action List.mem_cons_self
      exact ⟨.call .cancellation none :: t, t', rfl, .action (t := [_]) hstep haction h, hinert⟩
  | @next action rest s s' t t' result h _ ih =>
    have hmarks : marks (.call .cancellation none :: (t ++ t')) =
        actionMark ctx.loopIndex step action :: marks t' := by
      change marks (t ++ t') = _
      rw [marks_append, marks_dispatch hregistry h, List.singleton_append]
    obtain ⟨hbeginning, hall, hbroken⟩ := ih fun a ha => hactions a (List.mem_cons_of_mem _ ha)
    refine ⟨hmarks ▸ (List.prefix_cons_inj _).mpr hbeginning, fun hok => ?_, fun e he => ?_⟩
    · rw [hmarks, hall hok, List.map_cons]
    · have hprepend {cause : Cause} (h : Broken r ctx steps cause t' e) :
          Broken r ctx steps cause (.call .cancellation none :: (t ++ t')) e :=
        h.prepend (fun _ => id) (.call .cancellation none :: t)
      refine (hbroken e he).imp hprepend fun ⟨hlook, hne⟩ => ⟨hprepend hlook, fun heq => hne ?_⟩
      rw [hmarks, List.map_cons] at heq
      exact (List.cons.inj heq).2

/-- The steps leave the marks that are planned, all of them unless they break off. -/
theorem Course.outline {steps : List Step} (h : Course r ctx steps t result) :
    ∃ decided, Outline ctx.loopIndex steps decided t ∧
      (result = .ok () →
        decided.map Prod.fst = steps ∧ marks t = planned ctx.loopIndex decided) ∧
      ∀ e, result = .error e → ∃ cause, Broken r ctx steps cause t e ∧
        (decided.map Prod.fst = steps → marks t = planned ctx.loopIndex decided →
          cause = .action) := by
  induction h with
  | done =>
    refine ⟨[], outline_nil rfl, fun _ => ⟨rfl, rfl⟩, fun e he => ?_⟩
    cases he
  | stopped =>
    refine ⟨[], outline_nil rfl, nofun, fun e he => ⟨.look, ?_, nofun⟩⟩
    cases he
    exact ⟨_, [], (List.append_nil _).symm, .look (t := []), List.forall_mem_nil _⟩
  | undecided h =>
    refine ⟨[], outline_nil h.marks, nofun, fun e he => ⟨.decision, ?_, nofun⟩⟩
    cases he
    cases h with
    | refused h =>
      exact ⟨_, [], (List.append_nil _).symm, .decision (t := [_]) List.mem_cons_self h,
        List.forall_mem_nil _⟩
  | @skipped step rest t t' result h _ ih =>
    obtain ⟨decided, houtline, hall, hbroken⟩ := ih
    have hmarks : marks (.call .cancellation none :: t) = [] := h.marks
    refine ⟨(step, true) :: decided, houtline.skip (h.told.append_left [_]) hmarks,
      fun hok => ?_, fun e he => ?_⟩
    · obtain ⟨hsteps, heq⟩ := hall hok
      rw [List.map_cons, hsteps, ← List.cons_append, marks_append, hmarks, planned_cons_skipped]
      exact ⟨rfl, heq⟩
    · obtain ⟨cause, h, hcause⟩ := hbroken e he
      refine ⟨cause, h.prepend (fun _ => List.mem_cons_of_mem _) (.call .cancellation none :: t),
        fun hsteps heq => hcause (List.cons.inj hsteps).2 ?_⟩
      rwa [← List.cons_append, marks_append, hmarks] at heq
  | @broken step rest t t₁ t₂ s s' e h hannounce hacts =>
    obtain ⟨hbeginning, -, hbroken⟩ :=
      hacts.outcome hregistry (List.mem_cons_self (l := rest)) fun _ => id
    have hmarks := h.marks_announced hannounce t₂
    refine ⟨[(step, false)], ?_, nofun, fun e' he => ?_⟩
    · exact outline_last ((h.told.append_right _).append_left [_]) hmarks hbeginning
    · cases he
      have hprepend {cause : Cause} (h : Broken r ctx (step :: rest) cause t₂ e) :
          Broken r ctx (step :: rest) cause (.call .cancellation none :: (t ++ (t₁ ++ t₂))) e := by
        simpa using h.prepend (fun _ => id) (.call .cancellation none :: (t ++ t₁))
      rcases hbroken e rfl with hfailed | ⟨hlook, hne⟩
      · exact ⟨.action, hprepend hfailed, fun _ _ => rfl⟩
      · refine ⟨.look, hprepend hlook, fun _ heq => absurd ?_ hne⟩
        rw [hmarks] at heq
        simpa [planned] using heq
  | @next step rest t t₁ t₂ t' s s' result h hannounce hacts _ ih =>
    obtain ⟨-, hdone, -⟩ :=
      hacts.outcome hregistry (List.mem_cons_self (l := rest)) fun _ => id
    have hmarks : marks (.call .cancellation none :: (t ++ (t₁ ++ t₂))) =
        stepMark ctx.loopIndex step ::
          step.orderedActions.map (actionMark ctx.loopIndex step) :=
      hdone rfl ▸ h.marks_announced hannounce t₂
    obtain ⟨decided, houtline, hall, hbroken⟩ := ih
    refine ⟨(step, false) :: decided,
      houtline.next ((h.told.append_right _).append_left [_]) hmarks, fun hok => ?_,
      fun e he => ?_⟩
    · obtain ⟨hsteps, heq⟩ := hall hok
      rw [List.map_cons, hsteps, marks_append, hmarks, heq]
      exact ⟨rfl, rfl⟩
    · obtain ⟨cause, h, hcause⟩ := hbroken e he
      refine ⟨cause, h.prepend (fun _ => List.mem_cons_of_mem _) _,
        fun hsteps heq => hcause (List.cons.inj hsteps).2 ?_⟩
      rw [marks_append, hmarks, planned_cons] at heq
      exact List.append_cancel_left heq

omit hregistry in
/-- The steps take their course, and then a picture of the page may be taken. -/
theorem ends_runSteps {steps : List Step} (h : (runSteps r ctx steps).Ends s t result s') :
    ∃ t₁ t₂, t = t₁ ++ t₂ ∧ Course r ctx steps t₁ result ∧ ∀ d ∈ t₂, d.Inert := by
  rcases Act.ends_bind_iff.mp h with ⟨t₁, _, s₁, t₂, rfl, h₁, h₂⟩ | ⟨e, h₁, rfl⟩
  · have hcourse := course_of_ends h₁
    split at h₂
    · obtain ⟨rfl, hinert⟩ := ends_capture h₂
      exact ⟨t₁, t₂, rfl, hcourse, hinert⟩
    · obtain ⟨rfl, rfl, -⟩ := Act.ends_pure_iff.mp h₂
      exact ⟨t₁, [], rfl, hcourse, List.forall_mem_nil _⟩
  · exact ⟨t, [], (List.append_nil t).symm, course_of_ends h₁, List.forall_mem_nil _⟩

omit hregistry in
/-- A session is not opened, or something is done between two inert deeds at most. -/
theorem ends_inSession {i : Nat} {m : Act Unit} (h : (inSession r i m).Ends s t result s') :
    (∃ f : Fault, t = [.call (.openSession i) (.error f)] ∧ result =
      .error (.error (.browser s!"failed to open browser session: {f.text}" none none))) ∨
    ∃ t₀ t' t₁ s₁, t = t₀ ++ (t' ++ t₁) ∧ (∀ d ∈ t₀, d.Inert) ∧ (∀ d ∈ t₁, d.Inert) ∧
      m.Ends s t' result s₁ := by
  unfold inSession at h
  split at h
  · exact .inr ⟨[], t, [], s', by simp, List.forall_mem_nil _, List.forall_mem_nil _, h⟩
  · obtain ⟨reply, t₁, rfl, h₁⟩ := Act.ends_ask_bind_iff.mp h
    cases reply with
    | error f =>
      obtain ⟨rfl, rfl, -⟩ := Act.ends_fail_iff.mp h₁
      exact .inl ⟨f, rfl, rfl⟩
    | ok =>
      obtain ⟨t₂, x, s₁, t₃, rfl, h₂, h₃⟩ := ends_outcome_bind_iff.mp h₁
      obtain ⟨_, t₄, rfl, h₄⟩ := Act.ends_ask_bind_iff.mp h₃
      obtain ⟨rfl, rfl, -⟩ := Act.ends_ofExcept_iff.mp h₄
      exact .inr ⟨[_], t₂, [_], s₁, rfl, List.forall_mem_singleton.mpr ⟨rfl, nofun⟩,
        List.forall_mem_singleton.mpr ⟨rfl, nofun⟩, h₂⟩

omit hregistry in
/-- A loop index fails to open its session, or its steps take their course in it. -/
theorem ends_run {automation : Automation} {config : AutomationConfig} {runId : String} {i : Nat}
    (h : (run r automation config runId i).Ends t result) : ∃ now,
    (∃ f : Fault, t = [.call .now now, .call (.openSession i) (.error f)] ∧ result =
      .error (.error (.browser s!"failed to open browser session: {f.text}" none none))) ∨
    ∃ t₀ t' t₁, t = t₀ ++ (t' ++ t₁) ∧ (∀ d ∈ t₀, d.Inert) ∧ (∀ d ∈ t₁, d.Inert) ∧
      Course r (contextOf r automation config runId i now) automation.orderedSteps t' result := by
  obtain ⟨now, t₁, rfl, h₁⟩ := Program.ends_ask_bind_iff.mp h
  obtain ⟨t₂, ⟨result', s⟩, t₃, rfl, h₂, h₃⟩ := Program.ends_bind_iff.mp h₁
  obtain ⟨rfl, rfl⟩ := Program.ends_pure_iff.mp h₃
  rw [List.append_nil]
  refine ⟨now, ?_⟩
  rcases ends_inSession h₂ with ⟨f, rfl, rfl⟩ | ⟨t₄, t₅, t₆, s₁, rfl, hbefore, hafter, hends⟩
  · exact .inl ⟨f, rfl, rfl⟩
  · obtain ⟨t₇, t₈, rfl, hcourse, hinert⟩ := ends_runSteps hends
    refine .inr ⟨.call .now now :: t₄, t₇, t₈ ++ t₆, by simp, ?_, fun d hd => ?_, hcourse⟩
    · exact List.forall_mem_cons.mpr ⟨⟨rfl, nofun⟩, hbefore⟩
    · exact (List.mem_append.mp hd).elim (hinert d) (hafter d)

/-- **The steps of a loop index.** A loop index takes the steps, and in each step the actions, in
the stable order of their numbers. What it announces and dispatches is a beginning of what is
planned: each step that it reaches and does not skip, announced once, and then the actions of that
step. When it gets past all steps it is all that is planned. Otherwise the loop index breaks off at
a session, a look, a decision or an action, and announces and dispatches nothing from there on; and
if everything had been planned and dispatched by then, it was the last action that failed, or there
was nothing to do in the session. -/
theorem run_outline {automation : Automation} {config : AutomationConfig} {runId : String}
    {i : Nat} (h : (run r automation config runId i).Ends t result) :
    StablySorted Step.order automation.steps automation.orderedSteps ∧
    (∀ step : Step, StablySorted ActionItem.order step.actions step.orderedActions) ∧
    ∃ now decided, Outline i automation.orderedSteps decided t ∧
      (result = .ok () →
        decided.map Prod.fst = automation.orderedSteps ∧ marks t = planned i decided) ∧
      ∀ e, result = .error e → ∃ cause,
        Broken r (contextOf r automation config runId i now) automation.orderedSteps cause t e ∧
        (decided.map Prod.fst = automation.orderedSteps → marks t = planned i decided →
          cause = .action ∨ cause = .session ∧ automation.orderedSteps = []) := by
  refine ⟨stablySorted_byRank .., fun _ => stablySorted_byRank .., ?_⟩
  obtain ⟨now, ⟨f, rfl, rfl⟩ | ⟨t₀, t', t₁, rfl, hbefore, hafter, hcourse⟩⟩ := ends_run h
  · refine ⟨now, [], outline_nil rfl, nofun, fun e he => ⟨.session, ?_, fun hsteps _ => ?_⟩⟩
    · cases he
      exact ⟨_, [], (List.append_nil _).symm, .session (t := [_]), List.forall_mem_nil _⟩
    · exact .inr ⟨rfl, hsteps.symm⟩
  · obtain ⟨decided, houtline, hall, hbroken⟩ := hcourse.outline hregistry
    rw [marks_surround hbefore hafter]
    refine ⟨now, decided, houtline.surround hbefore hafter, hall, fun e he => ?_⟩
    obtain ⟨cause, hbroken, hcause⟩ := hbroken e he
    exact ⟨cause, (hbroken.append hafter).prepend (fun _ => id) t₀,
      fun hsteps heq => .inl (hcause hsteps heq)⟩

end Runs

/-! ### A loop index with one action -/

open Rehearsal

/-- An automation that clicks on an element. -/
def clicking : Automation :=
  { id := "auto-1", name := "Auto"
    steps := [{ id := "s0", name := "Step 0", actions := [
      { id := "a0", actionType := "playwright:click", config := [("selector", .text "#a")] }] }] }

/-- Its loop index. -/
def clickingRun : Program (Except Failure Unit) := run sampleRunner clicking {} "run-1" 0

/-- What is shared when some elements are missing. -/
def without (missing : List String) : Schedule.Shared World :=
  { sampleShared 0 with outside := { epoch := 0, script := { missing } } }

/-- With the element there, the loop index gets past its step, and has done what is planned. -/
theorem clicked_as_planned : ∃ t decided, clickingRun.Ends t (.ok ()) ∧
    Outline 0 clicking.orderedSteps decided t ∧ decided.map Prod.fst = clicking.orderedSteps ∧
    marks t = planned 0 decided ∧ (marks t).length = 2 := by
  obtain ⟨result, hadvance, hok⟩ : ∃ result, (Schedule.advance World.collaborators clickingRun
      (without [])).1 = .ended result ∧ result.toOption.isSome = true :=
    Schedule.Task.exists_ended (by decide +kernel)
  have hlength : (marks (Schedule.deeds World.collaborators clickingRun (without []))).length =
      2 := by
    decide +kernel
  cases result with
  | error e => cases hok
  | ok u =>
    have hends := Schedule.Task.ends_deeds hadvance
    obtain ⟨-, -, now, decided, houtline, hall, -⟩ := run_outline Catalogue.registry_proper hends
    obtain ⟨hsteps, hmarks⟩ := hall rfl
    exact ⟨_, decided, hends, houtline, hsteps, hmarks, hlength⟩

/-- Without the element everything that is planned is dispatched, too, but the loop index does not
get past its step. -/
theorem missed_as_planned : ∃ t e decided, clickingRun.Ends t (.error e) ∧
    decided.map Prod.fst = clicking.orderedSteps ∧ (∀ d ∈ decided, Told 0 t d.1 d.2) ∧
    marks t = planned 0 decided := by
  obtain ⟨result, hadvance, hfailed⟩ : ∃ result, (Schedule.advance World.collaborators clickingRun
      (without ["#a"])).1 = .ended result ∧ result.toOption.isSome = false :=
    Schedule.Task.exists_ended (by decide +kernel)
  have hlength : (marks (Schedule.deeds World.collaborators clickingRun
      (without ["#a"]))).length = 2 := by
    decide +kernel
  cases result with
  | ok u => cases hfailed
  | error e =>
    have hends := Schedule.Task.ends_deeds hadvance
    have hsteps : clicking.orderedSteps = clicking.steps := List.mergeSort_singleton _
    obtain ⟨now, ⟨f, ht, -⟩ | ⟨t₀, t', t₁, ht, hbefore, hafter, hcourse⟩⟩ := ends_run hends
    · rw [ht] at hlength
      cases hlength
    obtain ⟨decided, houtline, -, -⟩ := hcourse.outline Catalogue.registry_proper
    have hwhole := houtline.surround hbefore hafter
    rw [← ht] at hwhole
    have hle : 2 ≤ (planned 0 decided).length := hlength ▸ hwhole.marks.length_le
    have hreached := hwhole.reached
    rw [hsteps] at hreached
    -- There is only one step, and it is not skipped.
    match decided with
    | [] => cases hle
    | (step, true) :: (d :: rest) | (step, false) :: (d :: rest) =>
      have := hreached.length_le
      simp [clicking] at this
    | [(step, true)] => cases hle
    | [(step, false)] =>
      have hstep : step = clicking.steps.head (List.cons_ne_nil _ _) :=
        (List.cons_prefix_cons.mp hreached).1
      have hactions : step.orderedActions = step.actions := by
        rw [hstep]
        exact List.mergeSort_singleton _
      refine ⟨_, e, [(step, false)], hends, ?_, hwhole.told, hwhole.marks.eq_of_length ?_⟩
      · rw [hsteps, hstep]
        rfl
      · rw [hlength, planned, List.filter_cons_of_pos rfl, List.flatMap_cons, hactions, hstep]
        rfl

end Loop

end Runbook
