import Mathlib.Data.List.Nodup
import Runbook.Proofs.Steps
import Runbook.Proofs.Together

/-!
# The parts of a trace

What a run does can be read in parts. The deeds of a task are those of loop indices, one after
another, and between them slight deeds, which dispatch nothing and store nothing. The deeds of a
loop index are slight ones, the dispatches of its actions, and pictures of the page. And wherever an
action is announced, however deep it is nested, there begins what its dispatch does.

* `Deed.Slight`: a deed that neither announces an action nor stores a file.
* `MadeOf P t`: the trace `t` is made up of parts with the property `P`.
* `Action.Unfolds registry ctx t`: every announcement in a trace begins a dispatch.
* `Loop.Part`: the parts of a loop index; `Loop.exists_parts` says that it is made up of them.
* `Whole.Divides executes h loops`: the loop indices of which the deeds of each task in a history
  are made up.
* `Whole.Scheduled.exists_divides`: in every schedule there are such loop indices.
-/

namespace Runbook

open Program Schedule

/-! ### Slight deeds -/

/-- A deed that neither announces an action nor stores a file. -/
def Deed.Slight : Deed → Prop
  | .call (.dispatched _ _ _) _ | .call (.upload _ _ _) _ => False
  | _ => True

/-- Only slight deeds. -/
abbrev Slightly : Law := Each Deed.Slight

/-- What keeps a property of deeds may be done one after another. -/
theorem each_sequential (P : Deed → Prop) : (Each P).Sequential where
  nil := List.forall_mem_nil _
  append h h' := List.forall_mem_append.mpr ⟨h, h'⟩

theorem Aside.slight {t : List Deed} (h : Aside t) : ∀ d ∈ t, d.Slight := by
  intro d hd
  have haside := h d hd
  rcases d with ⟨c, r⟩ | _ | _
  · cases c <;> first | exact trivial | exact haside.elim
  all_goals trivial

/-! ### Traces in parts -/

/-- A trace is made up of parts with a property, one after another. -/
def MadeOf (P : List Deed → Prop) (t : List Deed) : Prop :=
  ∃ parts : List (List Deed), t = parts.flatten ∧ ∀ p ∈ parts, P p

namespace MadeOf

variable {P : List Deed → Prop} {p t t' : List Deed}

theorem nil : MadeOf P [] := ⟨[], rfl, List.forall_mem_nil _⟩

theorem one (h : P p) : MadeOf P p := ⟨[p], by simp, List.forall_mem_singleton.mpr h⟩

theorem append (h : MadeOf P t) (h' : MadeOf P t') : MadeOf P (t ++ t') := by
  obtain ⟨parts, rfl, hparts⟩ := h
  obtain ⟨parts', rfl, hparts'⟩ := h'
  exact ⟨parts ++ parts', by simp, List.forall_mem_append.mpr ⟨hparts, hparts'⟩⟩

/-- What does not depend on the outcome holds of a trace when it holds of its parts. -/
theorem lawful {L : List Deed → Prop} (hL : Law.Sequential fun t _ => L t)
    (hparts : ∀ p, P p → L p) (h : MadeOf P t) : L t := by
  obtain ⟨parts, rfl, hall⟩ := h
  induction parts with
  | nil => exact hL.nil
  | cons p parts ih =>
    rw [List.forall_mem_cons] at hall
    exact hL.append (o := none) (hparts p hall.1) (ih hall.2)

end MadeOf

/-- A trace is made up of parts, whatever it comes to. -/
abbrev MadeUp (P : List Deed → Prop) : Law := fun t _ => MadeOf P t

theorem madeUp_sequential (P : List Deed → Prop) : (MadeUp P).Sequential := ⟨.nil, .append⟩

namespace Act

variable {α β : Type} {P : List Deed → Prop} {m : Act α}

theorem madeUp_one (h : ∀ s t r s', m.Ends s t r s' → P t) : m.Obeys (MadeUp P) :=
  fun s t r s' hends => .one (h s t r s' hends)

/-- What has been tried has been done, whatever came of it. -/
theorem madeUp_outcome_bind {f : Except Failure α → Act β} (hm : m.Obeys (MadeUp P))
    (hf : ∀ x, (f x).Obeys (MadeUp P)) : (Loop.outcome m >>= f).Obeys (MadeUp P) := by
  intro s t r s' h
  obtain ⟨t₁, x, s₁, t₂, rfl, h₁, h₂⟩ := Loop.ends_outcome_bind_iff.mp h
  exact (hm _ _ _ _ h₁).append (hf x _ _ _ _ h₂)

end Act

/-! ### Dispatches -/

namespace Action

variable {registry : Registry ActionKind} {ctx : LoopContext} {frame : Frame} {config : Fields}
  {t t' : List Deed}

/-- The trace `t` is what a dispatch of an action does, at some level. -/
def IsDispatch (registry : Registry ActionKind) (ctx : LoopContext) (frame : Frame)
    (config : Fields) (t : List Deed) : Prop :=
  ∃ levels s r s', (dispatchWithin registry ctx levels frame config).Ends s t r s'

/-- Every announcement in a trace begins a dispatch of the action that is announced. -/
def Unfolds (registry : Registry ActionKind) (ctx : LoopContext) (t : List Deed) : Prop :=
  ∀ before i frame config after, t = before ++ .call (.dispatched i frame config) () :: after →
    ∃ rest after', after = rest ++ after' ∧
      IsDispatch registry ctx frame config (.call (.dispatched i frame config) () :: rest)

namespace Unfolds

theorem of_undispatched (h : ∀ i frame config, .call (.dispatched i frame config) () ∉ t) :
    Unfolds registry ctx t := by
  rintro before i frame config after rfl
  exact absurd (List.mem_append_right _ List.mem_cons_self) (h i frame config)

theorem of_inert (h : ∀ d ∈ t, d.Inert) : Unfolds registry ctx t :=
  of_undispatched fun _ _ _ hd => (h _ hd).undispatched rfl

theorem append (h : Unfolds registry ctx t) (h' : Unfolds registry ctx t') :
    Unfolds registry ctx (t ++ t') := by
  intro before i frame config after heq
  rcases List.append_eq_append_iff.mp heq with ⟨as, rfl, has⟩ | ⟨as, rfl, has⟩
  · exact h' as i frame config after has
  · cases as with
    | nil => exact h' [] i frame config after has.symm
    | cons d as =>
      obtain ⟨rfl, rfl⟩ := List.cons.inj has
      obtain ⟨rest, after', rfl, hdispatch⟩ := h before i frame config as rfl
      exact ⟨rest, after' ++ t', List.append_assoc .., hdispatch⟩

/-- What an announcement begins may hold other announcements. -/
theorem cons {i : Int} (h : Unfolds registry ctx t)
    (hdispatch : IsDispatch registry ctx frame config
      (.call (.dispatched i frame config) () :: t)) :
    Unfolds registry ctx (.call (.dispatched i frame config) () :: t) := by
  intro before j frame' config' after heq
  cases before with
  | nil =>
    cases heq
    exact ⟨t, [], (List.append_nil t).symm, hdispatch⟩
  | cons d before =>
    obtain ⟨-, rfl⟩ := List.cons.inj heq
    exact h before j frame' config' after rfl

end Unfolds

theorem unfolds_lenient (registry : Registry ActionKind) (ctx : LoopContext) :
    Law.Lenient fun t _ => Unfolds registry ctx t where
  nil := .of_inert (List.forall_mem_nil _)
  append := .append
  call hc := .of_inert (List.forall_mem_singleton.mpr (hc.inert _))
  fail _ := .of_inert (List.forall_mem_nil _)
  file _ := .of_undispatched (by simp)
  sleep := .of_undispatched (by simp)
  interrupted := .of_undispatched (by simp)
  go := .of_undispatched (by simp)
  after h _ h' _ := h.append h'

/-- In a dispatch every announcement begins another one, or that dispatch itself. -/
theorem unfolds_dispatchWithin (hregistry : registry.Proper) (levels : Nat) :
    (dispatchWithin registry ctx levels frame config).Obeys fun t _ =>
      Unfolds registry ctx t := by
  have hL := unfolds_lenient registry ctx
  induction levels generalizing frame config with
  | zero => exact Act.obeys_own hL.toLiberal (Failure.own_error rfl)
  | succ levels ih =>
    intro s t r s' h
    obtain ⟨t', rfl, hfollows⟩ := ends_dispatchWith h
    refine .cons ?_ ⟨levels + 1, s, r, s', h⟩
    cases hfollows with
    | unknown => exact hL.nil
    | unresolved _ ht => exact hL.toLiberal.calls ht.plain
    | executed hget ht _ hends =>
      refine hL.append (o := none) (hL.toLiberal.calls ht.plain) ?_
      refine (hregistry hget).1.obeys_execute hL (fun _ _ => .of_undispatched (by simp))
        (fun params _ => ?_) _ _ _ _ hends
      exact hL.governs ih (.of_undispatched (by simp)) _ params

end Action

/-! ### Loop indices -/

namespace Loop

variable {r : Runner} {automation : Automation} {ctx : LoopContext}

/-- A part of what a loop index does. -/
inductive Part (r : Runner) (automation : Automation) (ctx : LoopContext) : List Deed → Prop
  | slight {t : List Deed} (h : ∀ d ∈ t, d.Slight) : Part r automation ctx t
  /-- An action of a step is dispatched. -/
  | action {step : Step} {action : ActionItem} {s s' : LoopState} {t : List Deed}
      {result : Except Failure Unit} (hstep : step ∈ automation.orderedSteps)
      (haction : action ∈ step.orderedActions)
      (h : (Action.dispatch r.registry ctx (frameOf step action) action.config).Ends s t result
        s') : Part r automation ctx t
  /-- A picture of the page is taken unasked. -/
  | picture {frame : Frame} {s s' : LoopState} {t : List Deed} {result : Except Failure Unit}
      (h : (capture ctx frame).Ends s t result s') : Part r automation ctx t

/-- In each part every announcement begins a dispatch. -/
theorem Part.unfolds (hregistry : r.registry.Proper) {t : List Deed}
    (h : Part r automation ctx t) : Action.Unfolds r.registry ctx t := by
  cases h with
  | slight h => exact .of_undispatched fun _ _ _ hd => h _ hd
  | action _ _ h => exact Action.unfolds_dispatchWithin hregistry _ _ _ _ _ h
  | picture h => exact .of_inert (ends_capture h).2

theorem unfolds_of_parts (hregistry : r.registry.Proper) {t : List Deed}
    (h : MadeOf (Part r automation ctx) t) : Action.Unfolds r.registry ctx t :=
  h.lawful (Action.unfolds_lenient _ _).toSequential fun _ hp => hp.unfolds hregistry

/-- What a part of a loop index does when it is made up of parts. -/
abbrev InParts (r : Runner) (automation : Automation) (ctx : LoopContext) : Law :=
  MadeUp (Part r automation ctx)

theorem inParts_of_slight {α : Type} {m : Act α} (h : m.Obeys Slightly) :
    m.Obeys (InParts r automation ctx) :=
  Act.madeUp_one fun s t x s' hends => .slight (h s t x s' hends)

theorem slight_checkpoint (message : String) : (Act.checkpoint message).Obeys Slightly :=
  Act.obeys_checkpoint (by simp [Each, Deed.Slight]) fun _ => by simp [Each, Deed.Slight]

theorem slight_ask {c : Call} (hc : ∀ r, (Deed.call c r).Slight) : (Act.ask c).Obeys Slightly :=
  Act.obeys_ask fun r => List.forall_mem_singleton.mpr (hc r)

theorem inParts_fail (e : Failure) : (Act.fail e : Act Unit).Obeys (InParts r automation ctx) :=
  Act.obeys_fail .nil

theorem inParts_capture (frame : Frame) : (capture ctx frame).Obeys (InParts r automation ctx) :=
  Act.madeUp_one fun _ _ _ _ h => .picture h

variable {step : Step}

theorem inParts_runAction {action : ActionItem} (hstep : step ∈ automation.orderedSteps)
    (haction : action ∈ step.orderedActions) :
    (runAction r ctx step action).Obeys (InParts r automation ctx) := by
  have hs := madeUp_sequential (Part r automation ctx)
  refine .bind hs (inParts_of_slight (slight_checkpoint _)) fun _ => ?_
  refine Act.madeUp_outcome_bind
    (Act.madeUp_one fun _ _ _ _ h => .action hstep haction h) fun x => ?_
  rcases x with (e | f | _) | _
  · refine .bind hs (inParts_of_slight (slight_ask fun _ => trivial)) fun _ => ?_
    dsimp only
    split
    · exact .bind hs (inParts_capture _) fun _ => inParts_fail _
    · exact inParts_fail _
  · exact inParts_fail _
  · exact inParts_fail _
  · exact Act.obeys_pure hs _

theorem slight_isSkipped : (isSkipped ctx step).Obeys Slightly := by
  intro s t skip s' h
  cases (decides_of_ends h).1 <;> simp [Each, Deed.Slight]

theorem slight_announce : (announce ctx step).Obeys Slightly := by
  intro s t result s' h
  obtain ⟨now, e, taken, rfl, -⟩ := ends_announce h
  simp [Each, Deed.Slight]

theorem inParts_runStep (hstep : step ∈ automation.orderedSteps) :
    (runStep r ctx step).Obeys (InParts r automation ctx) := by
  have hs := madeUp_sequential (Part r automation ctx)
  refine .bind hs (inParts_of_slight (slight_checkpoint _)) fun _ =>
    .bind hs (inParts_of_slight slight_isSkipped) fun skip => ?_
  cases skip with
  | true => exact Act.obeys_pure hs _
  | false =>
    exact .bind hs (inParts_of_slight slight_announce) fun _ =>
      Act.obeys_forM hs fun action haction => inParts_runAction hstep haction

theorem inParts_runSteps :
    (runSteps r ctx automation.orderedSteps).Obeys (InParts r automation ctx) := by
  have hs := madeUp_sequential (Part r automation ctx)
  refine .bind hs (Act.obeys_forM hs fun step hstep => inParts_runStep hstep) fun _ => ?_
  exact Act.obeys_ite (inParts_capture _) (Act.obeys_pure hs _)

theorem inParts_inSession (i : Nat) {m : Act Unit} (hm : m.Obeys (InParts r automation ctx)) :
    (inSession r i m).Obeys (InParts r automation ctx) := by
  have hs := madeUp_sequential (Part r automation ctx)
  refine Act.obeys_ite hm ?_
  refine .bind hs (inParts_of_slight (slight_ask fun _ => trivial)) fun reply => ?_
  cases reply with
  | error f => exact inParts_fail _
  | ok =>
    refine Act.madeUp_outcome_bind hm fun x => ?_
    exact .bind hs (inParts_of_slight (slight_ask fun _ => trivial)) fun _ =>
      Act.obeys_ofExcept hs fun _ _ => .nil

/-- A loop index looks at the clock, and the rest is made up of its parts. -/
theorem exists_parts {config : AutomationConfig} {runId : String} {i : Nat} {t : List Deed}
    {result : Except Failure Unit} (h : (run r automation config runId i).Ends t result) :
    ∃ now t', t = .call .now now :: t' ∧
      MadeOf (Part r automation (contextOf r automation config runId i now)) t' := by
  obtain ⟨now, t₁, rfl, h₁⟩ := ends_ask_bind_iff.mp h
  obtain ⟨t₂, ⟨result', s⟩, t₃, rfl, h₂, h₃⟩ := ends_bind_iff.mp h₁
  obtain ⟨rfl, rfl⟩ := ends_pure_iff.mp h₃
  exact ⟨now, _, rfl, (List.append_nil t₂).symm ▸
    inParts_inSession i inParts_runSteps _ _ _ _ h₂⟩

end Loop

/-! ### Loop indices of a task -/

namespace Whole

/-- A trace is made up of the traces of loop indices with these numbers, one after another, and of
slight deeds. -/
inductive Comprises : List (Nat × List Deed) → List Deed → Prop
  | nil {t : List Deed} (h : ∀ d ∈ t, d.Slight) : Comprises [] t
  | cons {i : Nat} {t t' t'' : List Deed} {loops : List (Nat × List Deed)}
      (h : ∀ d ∈ t, d.Slight) (hrest : Comprises loops t'') :
      Comprises ((i, t') :: loops) (t ++ (t' ++ t''))

namespace Comprises

variable {loops : List (Nat × List Deed)} {i : Nat} {t t' : List Deed}

theorem slight_append (h : Comprises loops t') (hslight : ∀ d ∈ t, d.Slight) :
    Comprises loops (t ++ t') := by
  cases h with
  | nil h => exact .nil (List.forall_mem_append.mpr ⟨hslight, h⟩)
  | cons h hrest =>
    rw [← List.append_assoc]
    exact .cons (List.forall_mem_append.mpr ⟨hslight, h⟩) hrest

theorem append_slight (h : Comprises loops t) (hslight : ∀ d ∈ t', d.Slight) :
    Comprises loops (t ++ t') := by
  induction h with
  | nil h => exact .nil (List.forall_mem_append.mpr ⟨h, hslight⟩)
  | cons h _ ih =>
    rw [List.append_assoc, List.append_assoc]
    exact .cons h ih

/-- One loop index, and then what is made up of others. -/
theorem next (h : Comprises loops t') : Comprises ((i, t) :: loops) (t ++ t') :=
  .cons (t := []) (List.forall_mem_nil _) h

end Comprises

section Sequence

variable {loop : Nat → Program (Except Failure Unit)} {runId : String}

theorem slight_loopFailed (runId : String) (i : Nat) (result : Except Failure Unit) :
    ∀ d ∈ loopFailed runId i result, d.Slight := by
  rcases result with (e | f | _) | _ <;> simp [loopFailed, Deed.Slight]

theorem slight_delay {ms : Nat} {t : List Deed} {x : Except Failure Unit}
    (h : (delay ms).Ends t x) : ∀ d ∈ t, d.Slight := by
  unfold delay at h
  split at h
  · obtain ⟨rfl, -⟩ := ends_pure_iff.mp h
    exact List.forall_mem_nil _
  · split at h
    · obtain ⟨rfl, -⟩ := ends_pure_iff.mp h
      exact List.forall_mem_nil _
    · obtain ⟨wake, t₁, rfl, h₁⟩ := ends_await_bind_iff.mp h
      cases wake <;> obtain ⟨rfl, -⟩ := ends_pure_iff.mp h₁ <;> simp [Deed.Slight]

/-- One after another, loop indices have numbers one after another. -/
theorem exists_comprises_of_sequentially {delayMs remaining i : Nat} {t : List Deed}
    {result : Except Failure (Option RunError)}
    (h : (sequentially loop runId delayMs i remaining).Ends t result) :
    ∃ loops, Comprises loops t ∧ (∀ l ∈ loops, ∃ x, (loop l.1).Ends l.2 x) ∧
      loops.map Prod.fst = List.range' i loops.length := by
  -- Either nothing but slight deeds follows the first loop index, or other loop indices do.
  have hlast {i : Nat} {t₁ t₂ : List Deed} {x : Except Failure Unit} (h₁ : (loop i).Ends t₁ x)
      (hslight : ∀ d ∈ t₂, d.Slight) :
      ∃ loops, Comprises loops (t₁ ++ t₂) ∧ (∀ l ∈ loops, ∃ x, (loop l.1).Ends l.2 x) ∧
        loops.map Prod.fst = List.range' i loops.length :=
    ⟨[(i, t₁)], .next (.nil hslight), List.forall_mem_singleton.mpr ⟨x, h₁⟩, rfl⟩
  have hfailed {i : Nat} {e : RunError} {t : List Deed} (h : (do
      logLoopFailed runId i e
      return .ok (some e) : Program (Except Failure (Option RunError))).Ends t result) :
      ∀ d ∈ t, d.Slight := by
    obtain ⟨_, t', rfl, h'⟩ := ends_ask_bind_iff.mp h
    obtain ⟨rfl, -⟩ := ends_pure_iff.mp h'
    exact List.forall_mem_singleton.mpr trivial
  have hover {x : Except Failure (Option RunError)} {t : List Deed}
      (h : (pure x : Program (Except Failure (Option RunError))).Ends t result) :
      ∀ d ∈ t, d.Slight := by
    obtain ⟨rfl, -⟩ := ends_pure_iff.mp h
    exact List.forall_mem_nil _
  induction remaining generalizing i t with
  | zero =>
    rw [sequentially] at h
    obtain ⟨t₁, x, t₂, rfl, h₁, h₂⟩ := ends_bind_iff.mp h
    refine hlast h₁ ?_
    rcases x with (e | f | _) | _
    · exact hfailed h₂
    all_goals exact hover h₂
  | succ remaining ih =>
    rw [sequentially] at h
    obtain ⟨t₁, x, t₂, rfl, h₁, h₂⟩ := ends_bind_iff.mp h
    rcases x with (e | f | _) | _
    · exact hlast h₁ (hfailed h₂)
    · exact hlast h₁ (hover h₂)
    · exact hlast h₁ (hover h₂)
    · obtain ⟨t₃, y, t₄, rfl, h₃, h₄⟩ := ends_bind_iff.mp h₂
      have hdelay := slight_delay h₃
      cases y with
      | error e => exact hlast h₁ (List.forall_mem_append.mpr ⟨hdelay, hover h₄⟩)
      | ok =>
        obtain ⟨loops, hcomprises, hends, hnumbers⟩ := ih h₄
        refine ⟨(i, t₁) :: loops, .next (hcomprises.slight_append hdelay),
          List.forall_mem_cons.mpr ⟨⟨_, h₁⟩, hends⟩, ?_⟩
        rw [List.map_cons, hnumbers, List.length_cons, List.range'_succ]

end Sequence

section Run

variable {r : Runner} {automation : Automation} {config : AutomationConfig} {record : RunRecord}
  (hparse : AutomationConfig.parse automation.config = .ok config)

include hparse

/-- A loop index that runs beside others. -/
theorem exists_comprises_of_loopProgram {runId : String} {i : Nat} {t : List Deed}
    {o : Option Failure} (h : (loopProgram r automation runId i).Ends t o) :
    ∃ t' result, Comprises [(i, t')] t ∧ (Loop.run r automation config runId i).Ends t' result := by
  rw [loopProgram, hparse] at h
  obtain ⟨t', result, rfl, hends, -⟩ := ends_alongside_iff.mp h
  exact ⟨t', result, .next (.nil (slight_loopFailed runId i result)), hends⟩

/-- The main task either runs loop indices one after another or waits for them. -/
theorem exists_comprises_of_run (hregistry : r.registry.Proper) {t : List Deed} {e : Ended}
    (h : (run r automation record).Ends t e) :
    ∃ loops, Comprises loops t ∧
      (∀ l ∈ loops, ∃ x, (Loop.run r automation config record.id l.1).Ends l.2 x) ∧
      (loops.map Prod.fst).Nodup ∧ (loops = [] ∨ t.countP Deed.joins = 0) := by
  have hnone {t : List Deed} (ht : ∀ d ∈ t, d.Slight) : ∃ loops, Comprises loops t ∧
      (∀ l ∈ loops, ∃ x, (Loop.run r automation config record.id l.1).Ends l.2 x) ∧
      (loops.map Prod.fst).Nodup ∧ (loops = [] ∨ t.countP Deed.joins = 0) :=
    ⟨[], .nil ht, List.forall_mem_nil _, List.nodup_nil, .inl rfl⟩
  rcases ends_run h with ⟨now, reply, rfl, -⟩ |
    ⟨now, before, t₁, t₂, channels, result, rfl, hbegins, hcame, hconclude⟩
  · exact hnone (by simp [Deed.Slight])
  have hbefore := hbegins.aside
  have hafter := aside_of_conclude hconclude
  have hbetween (hslight : ∀ d ∈ t₁, d.Slight) : ∀ d ∈ before ++ (t₁ ++ t₂), d.Slight :=
    List.forall_mem_append.mpr ⟨hbefore.slight, List.forall_mem_append.mpr ⟨hslight, hafter.slight⟩⟩
  cases hcame with
  | faulty _ _ ht => exact hnone (hbetween (Aside.of_logs ht).slight)
  | gone hparse' hloops =>
    rw [hparse] at hparse'
    cases hparse'
    obtain ⟨ms, reason, t', rfl, hwent⟩ := ends_loops hloops
    cases hwent with
    | interrupted => exact hnone (hbetween (by simp [Deed.Slight]))
    | parallel => exact hnone (hbetween (by simp [Deed.Slight]))
    | sequential _ hends =>
      obtain ⟨loops, hcomprises, hloops, hnumbers⟩ := exists_comprises_of_sequentially hends
      refine ⟨loops, ?_, hloops, hnumbers ▸ List.nodup_range', .inr ?_⟩
      · have harmed : Comprises loops (.call (.armTimeout ms reason) () ::
            (t' ++ [.call .disarmTimeout ()])) :=
          (hcomprises.append_slight (by simp [Deed.Slight])).slight_append (t := [_])
            (by simp [Deed.Slight])
        exact (harmed.append_slight hafter.slight).slight_append hbefore.slight
      · have hjoins := (lawful_sequential (indexed_broad.steers hregistry automation) hends).joins
        simp [List.countP_append, hbefore.joins, hafter.joins, hjoins, Deed.joins]

end Run

/-! ### Loop indices of a schedule -/

/-- For each task the loop indices of which its deeds are made up, those included that it has yet to
do, each with its number and its trace. No number occurs twice. -/
structure Divides (executes : Nat → List Deed → Prop) (h : List Happening)
    (loops : Option Nat → List (Nat × List Deed)) : Prop where
  comprises (who : Option Nat) : ∃ later, Comprises (loops who) (deedsOf who h ++ later)
  executed {who : Option Nat} {i : Nat} {t : List Deed} : (i, t) ∈ loops who → executes i t
  once {who who' : Option Nat} {i : Nat} {t t' : List Deed} :
    (i, t) ∈ loops who → (i, t') ∈ loops who' → t = t'

namespace Divides

variable {executes : Nat → List Deed → Prop} {h : List Happening} {later : List Deed}

/-- The main task goes through loop indices, and there are no other tasks. -/
theorem of_main {loops : List (Nat × List Deed)} (hmain : Comprises loops (deedsOf none h ++ later))
    (hexecuted : ∀ l ∈ loops, executes l.1 l.2) (hnodup : (loops.map Prod.fst).Nodup)
    (hsilent : ∀ i, deedsOf (some i) h = []) :
    Divides executes h fun who => who.elim loops fun _ => [] where
  comprises
    | none => ⟨later, hmain⟩
    | some i => ⟨[], .nil (by simp [hsilent i])⟩
  executed {who i t} hl := by
    cases who with
    | none => exact hexecuted _ hl
    | some j => cases hl
  once {who who' i t t'} hl hl' := by
    cases who with
    | some j => cases hl
    | none =>
      cases who' with
      | some j => cases hl'
      | none => exact congrArg Prod.snd (List.inj_on_of_nodup_map hnodup hl hl' rfl)

/-- The main task goes through no loop index, and each other task goes through its own. -/
theorem of_beside {trace : Nat → List Deed} (hmain : Comprises [] (deedsOf none h ++ later))
    (hbeside : ∀ i, ∃ later, Comprises [(i, trace i)] (deedsOf (some i) h ++ later))
    (hexecuted : ∀ i, executes i (trace i)) :
    Divides executes h fun who => who.elim [] fun i => [(i, trace i)] where
  comprises
    | none => ⟨later, hmain⟩
    | some i => hbeside i
  executed {who i t} hl := by
    cases who with
    | none => cases hl
    | some j =>
      cases List.mem_singleton.mp hl
      exact hexecuted i
  once {who who' i t t'} hl hl' := by
    cases who with
    | none => cases hl
    | some j =>
      cases who' with
      | none => cases hl'
      | some j' =>
        cases List.mem_singleton.mp hl
        cases List.mem_singleton.mp hl'
        rfl

end Divides

/-- In every schedule the deeds of each task are those of loop indices, besides slight ones. -/
theorem Scheduled.exists_divides {σ : Type} {env : Collaborators σ} {r : Runner}
    {automation : Automation} {record : RunRecord} {shared : Shared σ} {h : List Happening}
    {s : State σ Ended} {config : AutomationConfig} (hregistry : r.registry.Proper)
    (hparse : AutomationConfig.parse automation.config = .ok config)
    (hs : Scheduled env r automation record shared h s) :
    ∃ loops, Divides (fun i t => ∃ result,
      (Loop.run r automation config record.id i).Ends t result) h loops := by
  obtain ⟨later, e, hends⟩ := hs.exists_ends_main
  obtain ⟨main, hmain, hexecuted, hnodup, hor⟩ := exists_comprises_of_run hparse hregistry hends
  have hbeside (i : Nat) : ∃ t, (∃ later, Comprises [(i, t)] (deedsOf (some i) h ++ later)) ∧
      ∃ result, (Loop.run r automation config record.id i).Ends t result := by
    obtain ⟨later, o, hends⟩ := hs.exists_ends_loop hregistry i
    obtain ⟨t, result, hcomprises, hexecuted⟩ := exists_comprises_of_loopProgram hparse hends
    exact ⟨t, ⟨later, hcomprises⟩, result, hexecuted⟩
  obtain ⟨trace, htrace⟩ := Classical.skolem.mp hbeside
  -- Where the main task has waited for loop indices, it goes through none itself.
  have hforked (hjoins : (deedsOf none h).countP Deed.joins ≠ 0) : ∃ loops,
      Divides (fun i t => ∃ result,
        (Loop.run r automation config record.id i).Ends t result) h loops := by
    obtain rfl : main = [] := by
      refine hor.resolve_right fun hzero => hjoins ?_
      rw [List.countP_append] at hzero
      omega
    exact ⟨_, .of_beside hmain (fun i => (htrace i).1) fun i => (htrace i).2⟩
  cases State.Reaches.joining (joinsOnce_run hregistry automation record) hs rfl rfl with
  | before _ _ hsilent => exact ⟨_, .of_main hmain hexecuted hnodup hsilent⟩
  | during t n ht => exact hforked (by simp [ht, Deed.joins])
  | after t n t' ht => exact hforked (by simp [ht, Deed.joins])

end Whole

end Runbook
