import Runbook.Proofs.Simple

/-!
# The lawfulness of built-in kinds

What an action does on its own is little: it makes plain calls, tells of a stored file, sleeps and
looks at the request to stop. A law is lenient when it allows all this, and bears with a part that
goes on after a failure and fails with it in the end. Simple actions obey every lenient law.

Only the two control actions do more, and that is to dispatch actions that they hold. A branching
action dispatches them one right after another, while a loop looks at the request to stop before
each of them. A lenient law that allows what a kind dispatches in this way governs its actions, and
every built-in kind obeys every law that governs its actions.

* `Law.Lenient L`: the law allows all that an action may do on its own.
* `IfElse.Holds`, `LoopUntil.Holds`: the actions that a control action holds.
* `Law.Governs L type nested frame params`: the law governs actions of the type at `frame`.
* `ActionKind.Proper kind`: the kind obeys all such laws, and its failures are its own.
* `Catalogue.proper`: the built-in kinds are proper.
* `Registry.Proper registry`: all registered kinds are proper; the built-in ones are.
-/

namespace Runbook

/-! ### Held actions -/

/-- An action of a list, named as it is when the list is run with a stem for its identifiers. -/
def Action.IsEntry (items : Json) (idStem : String) (action : NestedAction) : Prop :=
  ∃ (entries : List Json) (i : Nat) (entry : Json),
    Action.entries items = .ok entries ∧ entries[i]? = some entry ∧
    NestedAction.ofEntry? entry s!"{idStem}-{i}" = some action

/-- How the identifiers begin that a branching action gives to what it holds. -/
abbrev IfElse.idStem (frame : Frame) : String := s!"{frame.actionId}-nested"

/-- The actions that a branching action holds. -/
inductive IfElse.Holds (frame : Frame) (params : Fields) (action : NestedAction) : Prop
  | if (h : Action.IsEntry (Browser.param params "if_actions") s!"{IfElse.idStem frame}-if" action)
  | alternative {index : Nat} {entry : Json} {a : IfElse.Alternative}
      (hentry : (Fields.listAt params "else_if_conditions")[index]? = some entry)
      (ha : IfElse.Alternative.ofEntry entry = .ok (some a))
      (h : Action.IsEntry a.actions s!"{IfElse.idStem frame}-else_if-{index}" action)
  | else (h : Action.IsEntry (Browser.param params "else_actions") s!"{IfElse.idStem frame}-else"
      action)
  | final (h : Action.IsEntry (Browser.param params "final_actions")
      s!"{IfElse.idStem frame}-final" action)

/-- The actions that a loop holds, under the identifiers that they have in some iteration. -/
def LoopUntil.Holds (frame : Frame) (params : Fields) (action : NestedAction) : Prop :=
  ∃ n : Nat, Action.IsEntry (Browser.param params "loop_actions")
    s!"{frame.actionId}-loop-{n + 1}" action

/-! ### Laws that govern actions -/

/-- What a loop says when it stops at a request: at the beginning of an iteration, or before one of
its actions. -/
def LoopUntil.words : List String := ["loop cancelled", "loop cancelled during action execution"]

/-- A law that allows all that an action may do on its own, its last event apart. -/
structure Law.Lenient (L : Law) : Prop extends L.Liberal where
  /-- A stored file is told of. -/
  file {e : RunEvent} {taken : Bool} : e.type = .outputFile → L [.call (.emit e) taken] none
  sleep {ms : Rat} : L [.wait (.sleep ms), .wake .resumed] none
  interrupted {ms : Rat} : L [.wait (.sleep ms), .wake .interrupted] (some .interrupted)
  /-- A look at the request to stop finds nothing. -/
  go : L [.call .cancellation none] none
  /-- After a failure something else is done, and one of the two outcomes counts. -/
  after {t t' : List Deed} {e e' : Failure} {o : Option Failure} : L t (some e) →
    e ≠ .interrupted → L t' o → (e' = e ∧ o ≠ some .interrupted ∨ o = some e') →
    L (t ++ t') (some e')

/-- A lenient law that allows what actions of a type dispatch at a place. -/
structure Law.Governs (L : Law) (type : String) (nested : Dispatcher) (frame : Frame)
    (params : Fields) : Prop extends L.Lenient where
  branch {a : NestedAction} : type = "playwright:if_else" → IfElse.Holds frame params a →
    (nested (frame.child a.id a.actionType a.name) a.config).Obeys L
  /-- An action of a loop is dispatched right after a look that has found nothing. -/
  iteration {a : NestedAction} {s s' : LoopState} {t : List Deed} {r : Except Failure Unit} :
    type = "playwright:loop_until" → LoopUntil.Holds frame params a →
    (nested (frame.child a.id a.actionType a.name) a.config).Ends s t r s' →
    L (.call .cancellation none :: t) (failureOf r)
  /-- A look of a loop at the request to stop finds one. -/
  stop {c : Cancellation} {message : String} : type = "playwright:loop_until" →
    message ∈ LoopUntil.words →
    L [.call .cancellation (some c)] (some (.error (c.toError message)))

/-- A lenient law that allows all nested actions and all looks governs the action that holds
them. -/
theorem Law.Lenient.governs {L : Law} (hL : L.Lenient) {nested : Dispatcher} {frame : Frame}
    (hnested : ∀ {id type name config}, (nested (frame.child id type name) config).Obeys L)
    (hstop : ∀ {c : Cancellation} {message : String},
      L [.call .cancellation (some c)] (some (.error (c.toError message))))
    (type : String) (params : Fields) : L.Governs type nested frame params where
  toLenient := hL
  branch _ _ := hnested
  iteration _ _ h := hL.append (t := [_]) hL.go (hnested _ _ _ _ h)
  stop _ _ := hstop

/-- A kind whose actions obey every law that governs them, and whose failures are its own. -/
structure ActionKind.Proper (kind : ActionKind) : Prop where
  behave {L : Law} {nested : Dispatcher} {frame : Frame} {params : Fields}
    (hL : L.Governs kind.type nested frame params) (ctx : LoopContext) :
    (kind.behave ctx nested frame params).Obeys L
  wrap (f : Fault) (params : Fields) : (kind.wrap f params).1.cancellation? = none

/-! ### Simple actions -/

/-- A part of a simple action obeys every lenient law. -/
theorem Act.Simple.obeys {α : Type} {stores : Prop} {ctx : LoopContext} {frame : Frame} {m : Act α}
    {L : Law} (h : m.Simple stores ctx frame) (hL : L.Lenient) : m.Obeys L := by
  have hs := hL.toSequential
  induction h with
  | pure a => exact obeys_pure hs a
  | bind _ _ ih ih' => exact .bind hs ih ih'
  | calls hp =>
    exact obeys_lift fun _ _ h => hL.toLiberal.calls (hp.plain_of_frugal.deed_of_ends h)
  | stored _ hp =>
    exact obeys_lift fun _ _ h => hL.toLiberal.calls (hp.plain_of_stores.deed_of_ends h)
  | fail he => exact obeys_own hL.toLiberal he
  | read => exact obeys_get hs
  | write g => exact obeys_modify hs _
  | sleep ms => exact obeys_await hL.sleep hL.interrupted
  | file url =>
    intro s t r s' h
    obtain ⟨now, taken, rfl, -, rfl⟩ := ends_emit_iff.mp h
    exact hL.append (t := [_]) (hL.call trivial) (hL.file rfl)

theorem Work.Simple.obeys {α : Type} {stores : Prop} {ctx : LoopContext} {frame : Frame}
    {m : Work α} {L : Law} (h : m.Simple stores ctx frame) (hL : L.Lenient) : m.Obeys L := by
  have hs := hL.toSequential
  induction h with
  | pure a => exact obeys_pure hs a
  | bind _ _ ih ih' => exact .bind hs ih ih'
  | lift hm => exact obeys_lift (hm.obeys hL)
  | throw he => exact obeys_throw (hL.fail he)
  | read => exact obeys_getThe hs
  | report g => exact obeys_report hs g

theorem ActionKind.Simple.proper {stores : Prop} {kind : ActionKind} (h : kind.Simple stores)
    (hwrap : ∀ f params, (kind.wrap f params).1.cancellation? = none) : kind.Proper :=
  ⟨fun hL ctx => (h.behave ctx _ _ _).obeys hL.toLenient, hwrap⟩

section Governed

variable {L : Law} {nested : Dispatcher} {frame : Frame} {params : Fields}

/-! ### Nested actions -/

namespace Action

/-- The look at the request to stop that comes before each entry, if there is one. -/
def looks : Option String → List Deed
  | none => []
  | some _ => [.call .cancellation none]

/-- To dispatch a list is lawful when to dispatch each of its entries is, right after the look that
comes before it. -/
theorem obeys_runEntries (hL : L.Lenient) {idStem : String} {checkpoint : Option String} {i : Nat}
    {entries : List Json}
    (hstop : ∀ {message c}, checkpoint = some message →
      L [.call .cancellation (some c)] (some (.error (Cancellation.toError c message))))
    (hentry : ∀ {j entry a s t r s'}, entries[j]? = some entry →
      NestedAction.ofEntry? entry s!"{idStem}-{i + j}" = some a →
      (nested (frame.child a.id a.actionType a.name) a.config).Ends s t r s' →
      L (looks checkpoint ++ t) (failureOf r)) :
    (runEntries nested frame idStem checkpoint i entries).Obeys L := by
  have hs := hL.toSequential
  induction entries generalizing i with
  | nil => exact Act.obeys_pure hs _
  | cons entry rest ih =>
    have hrest : (runEntries nested frame idStem checkpoint (i + 1) rest).Obeys L := by
      refine ih fun {j} _ _ _ _ _ _ hj ha => hentry (j := j + 1) hj ?_
      rwa [show i + (j + 1) = i + 1 + j by omega]
    have hhead {a : NestedAction} (ha : NestedAction.ofEntry? entry s!"{idStem}-{i}" = some a)
        {s t r s'} (h : (do
          nested (frame.child a.id a.actionType a.name) a.config
          runEntries nested frame idStem checkpoint (i + 1) rest : Act Unit).Ends s t r s') :
        L (looks checkpoint ++ t) (failureOf r) := by
      rcases Act.ends_bind_iff.mp h with ⟨t₁, _, s₁, t₂, rfl, h₁, h₂⟩ | ⟨e, h₁, rfl⟩
      · rw [← List.append_assoc]
        exact hL.append (hentry (j := 0) rfl ha h₁) (hrest _ _ _ _ h₂)
      · exact hentry (j := 0) rfl ha h₁
    unfold runEntries
    cases checkpoint
    case none =>
      dsimp only
      split
      · exact .bind hs (Act.obeys_log hL.toLiberal _) fun _ => hrest
      · rename_i a ha
        exact fun s t r s' h => hhead ha h
    case some message =>
      refine Act.obeys_checkpoint_bind (fun _ => hstop rfl) fun s t r s' h => ?_
      dsimp only at h
      split at h
      · refine hL.append (t := [_]) hL.go ?_
        exact Act.Obeys.bind hs (Act.obeys_log hL.toLiberal _) (fun _ => hrest) _ _ _ _ h
      · rename_i a ha
        exact hhead ha h

theorem obeys_runNested (hL : L.Lenient) {items : Json} {idStem : String}
    {checkpoint : Option String}
    (hstop : ∀ {message c}, checkpoint = some message →
      L [.call .cancellation (some c)] (some (.error (Cancellation.toError c message))))
    (hentry : ∀ {a s t r s'}, IsEntry items idStem a →
      (nested (frame.child a.id a.actionType a.name) a.config).Ends s t r s' →
      L (looks checkpoint ++ t) (failureOf r)) :
    (runNested nested frame items idStem checkpoint).Obeys L := by
  refine Act.obeys_ofExcept_bind hL.toSequential (fun _ he => hL.fail (own_of_mapError he))
    fun entries hentries => obeys_runEntries hL hstop fun {j entry} _ _ _ _ _ hj ha hends => ?_
  rw [Nat.zero_add] at ha
  exact hentry ⟨entries, j, entry, eq_ok_of_mapError hentries, hj, ha⟩ hends

/-- To dispatch is lawful when to announce it is, and to execute. -/
theorem obeys_dispatchWithin_succ {L : Law} (hL : L.Liberal) {registry : Registry ActionKind}
    {ctx : LoopContext} {levels : Nat} {frame : Frame} {config : Fields}
    (hdispatched : L [.call (.dispatched ctx.loopIndex frame config) ()] none)
    (hexecute : ∀ kind resolved, registry.get frame.actionType = .ok kind →
      (kind.execute ctx (dispatchWithin registry ctx levels) frame resolved).Obeys L) :
    (dispatchWithin registry ctx (levels + 1) frame config).Obeys L := by
  have hs := hL.toSequential
  refine .bind hs (Act.obeys_ask fun _ => hdispatched) fun _ => ?_
  refine Act.obeys_ofExcept_bind hs ?_ fun kind hget =>
    .bind hs (Act.obeys_resolving hL ctx _) fun resolved => hexecute kind resolved hget
  intro e hget
  unfold Registry.get at hget
  split at hget
  · cases hget
  · cases hget
    exact hL.fail (Failure.own_error rfl)

end Action

/-! ### Branching -/

namespace IfElse

/-- A list of held actions. -/
theorem obeys_runHeld (hL : L.Governs kind.type nested frame params) {items : Json}
    {idStem : String} (hheld : ∀ {a}, Action.IsEntry items idStem a → Holds frame params a) :
    (Action.runNested nested frame items idStem none).Obeys L :=
  Action.obeys_runNested hL.toLenient nofun fun ha h => hL.branch rfl (hheld ha) _ _ _ _ h

theorem obeys_runAlternatives (hL : L.Governs kind.type nested frame params) (ctx : LoopContext)
    {index : Nat} {alternatives : List Json}
    (hheld : ∀ {j entry}, alternatives[j]? = some entry →
      (Fields.listAt params "else_if_conditions")[index + j]? = some entry) :
    (runAlternatives ctx nested frame (idStem frame) index alternatives).Obeys L := by
  have hs := hL.toSequential
  induction alternatives generalizing index with
  | nil => exact Work.obeys_pure hs _
  | cons entry rest ih =>
    have hrest : (runAlternatives ctx nested frame (idStem frame) (index + 1)
        rest).Obeys L := by
      refine ih fun {j entry} hj => ?_
      rw [Nat.add_right_comm]
      exact hheld (j := j + 1) hj
    refine Work.obeys_ofExcept_bind (fun _ he => hL.fail (own_of_mapError he)) fun found ha => ?_
    have hwarn (event : String) (more : Fields) : (do
        Work.lift (warn event frame index more)
        runAlternatives ctx nested frame (idStem frame) (index + 1) rest :
        Work Bool).Obeys L :=
      .bind hs (Work.obeys_lift (Act.obeys_log hL.toLiberal _)) fun _ => hrest
    cases found with
    | none => exact hwarn _ _
    | some a =>
      refine .bind hs (Work.obeys_lift (Act.obeys_plain hL.toLiberal trivial)) fun reply => ?_
      cases reply with
      | error f => exact hwarn _ _
      | ok reply =>
        have hrun : (Action.runNested nested frame a.actions s!"{idStem frame}-else_if-{index}"
            none).Obeys L :=
          obeys_runHeld hL (.alternative (hheld (j := 0) rfl) (eq_ok_of_mapError ha))
        exact Work.obeys_ite (.bind hs (Work.obeys_report hs _) fun _ =>
          .bind hs (Work.obeys_lift hrun) fun _ => Work.obeys_pure hs _) hrest

theorem obeys_runBranch (hL : L.Governs kind.type nested frame params) (ctx : LoopContext) :
    (runBranch ctx nested frame params (idStem frame)).Obeys L := by
  have hs := hL.toSequential
  have hstate : ∀ e, ElementState.read (Fields.textAt params "condition_type") = .error e →
      L [] (some e) := by
    intro e he
    unfold ElementState.read at he
    split at he
    · cases he
    · cases he
      exact hL.fail (Failure.own_error rfl)
  have hbranch (branch : String) {actions : Json} {idStem : String}
      (hheld : ∀ {a}, Action.IsEntry actions idStem a → Holds frame params a) : (do
      take branch
      Work.lift (Action.runNested nested frame actions idStem none) : Work Unit).Obeys L :=
    .bind hs (Work.obeys_report hs _) fun _ => Work.obeys_lift (obeys_runHeld hL hheld)
  have hask (c : PageCall) : (Browser.request "playwright:if_else" ctx c).Simple False ctx frame :=
    Browser.simple_request _ c
  refine .bind hs (Work.obeys_lift (Act.obeys_ofExcept hs hstate)) fun state =>
    .bind hs ((hask _).obeys hL.toLenient) fun reply =>
      Work.obeys_ite (hbranch _ .if) ?_
  refine .bind hs (obeys_runAlternatives hL ctx fun {j entry} hj => ?_) fun found =>
    Work.obeys_ite (Work.obeys_ite (hbranch _ .else) (Work.obeys_pure hs _)) (Work.obeys_pure hs _)
  rwa [Nat.zero_add]

/-- What has been attempted has come to its outcome, which is no interruption if it is kept. -/
theorem ends_attempt {m : Work Unit} {f f' : Fields} {s s' : LoopState} {t : List Deed}
    {r : Except Failure (Option Failure)} (h : (Work.attempt m).Ends f s t r f' s') :
    ∃ r', m.Ends f s t r' f' s' ∧
      (r = .error .interrupted ∧ r' = .error .interrupted ∨
        r = .ok (failureOf r') ∧ failureOf r' ≠ some .interrupted) := by
  obtain ⟨t₁, ⟨⟨r₁, f₁⟩, s₁⟩, t₂, rfl, h₁, h₂⟩ :=
    (Program.ends_bind_iff (p := (m.run.run f).run s)).mp h
  have hkept {r₂ : Except Failure (Option Failure)}
      (h₂ : (pure ((r₂, f₁), s₁) : Program _).Ends t₂ ((r, f'), s')) :
      t₁ ++ t₂ = t₁ ∧ r = r₂ ∧ f' = f₁ ∧ s' = s₁ := by
    obtain ⟨rfl, heq⟩ := Program.ends_pure_iff.mp h₂
    simp only [Prod.mk.injEq] at heq
    exact ⟨List.append_nil _, heq.1.1, heq.1.2, heq.2⟩
  refine ⟨r₁, ?_⟩
  rcases r₁ with (e | f | _) | _ <;> obtain ⟨ht, rfl, rfl, rfl⟩ := hkept h₂ <;> rw [ht]
  · exact ⟨h₁, .inr ⟨rfl, nofun⟩⟩
  · exact ⟨h₁, .inr ⟨rfl, nofun⟩⟩
  · exact ⟨h₁, .inl ⟨rfl, rfl⟩⟩
  · exact ⟨h₁, .inr ⟨rfl, nofun⟩⟩

/-- The final actions are run whatever came of the branch, and its failure counts more than
theirs. -/
theorem obeys_behave (hL : L.Governs kind.type nested frame params) (ctx : LoopContext) :
    (behave ctx nested frame params).Obeys L := by
  intro f s t r f' s' h
  have hbranch := obeys_runBranch hL ctx
  have hfinal := Work.obeys_lift (obeys_runHeld hL .final)
  -- Either attempt may be interrupted, and then that is the outcome. Otherwise the failure of the
  -- branch is the outcome, and a failure of the final actions only if there is none.
  rcases Work.ends_bind_iff.mp h with ⟨t₁, branchFailure, f₁, s₁, t₂, rfl, h₁, h₂⟩ | ⟨e, h₁, rfl⟩
  · obtain ⟨r₁, hends, ⟨hr, -⟩ | ⟨hr, hne⟩⟩ := ends_attempt h₁
    · cases hr
    cases hr
    replace h₁ := hbranch _ _ _ _ _ _ hends
    rcases Work.ends_bind_iff.mp h₂ with ⟨t₃, finalFailure, f₂, s₂, t₄, rfl, h₃, h₄⟩ | ⟨e, h₃, rfl⟩
    · obtain ⟨r₂, hends, ⟨hr, -⟩ | ⟨hr, hkept⟩⟩ := ends_attempt h₃
      · cases hr
      cases hr
      replace h₃ := hfinal _ _ _ _ _ _ hends
      rw [← List.append_assoc]
      cases hb : failureOf r₁ with
      | none =>
        rw [hb] at h₁ h₄
        cases hf : failureOf r₂ with
        | none =>
          rw [hf] at h₃ h₄
          obtain ⟨rfl, rfl, -, -⟩ := Work.ends_pure_iff.mp h₄
          rw [List.append_nil]
          exact hL.append h₁ h₃
        | some e =>
          rw [hf] at h₃ h₄
          obtain ⟨rfl, rfl, -, -⟩ := Work.ends_throw_iff.mp h₄
          rw [List.append_nil]
          exact hL.append h₁ h₃
      | some e =>
        rw [hb] at h₁ h₄ hne
        have hboth : L (t₁ ++ t₃) (some e) :=
          hL.after h₁ (fun h => hne (congrArg some h)) h₃ (.inl ⟨rfl, hkept⟩)
        cases hf : failureOf r₂ with
        | none =>
          rw [hf] at h₄
          obtain ⟨rfl, rfl, -, -⟩ := Work.ends_throw_iff.mp h₄
          rw [List.append_nil]
          exact hboth
        | some final =>
          rw [hf] at h₄
          rcases Work.ends_bind_iff.mp h₄ with ⟨t₅, _, _, _, t₆, rfl, h₅, h₆⟩ | ⟨e', h₅, -⟩
          · obtain ⟨_, rfl, -, -⟩ := Act.ends_ask_iff.mp (Work.ends_lift_iff.mp h₅).1
            obtain ⟨rfl, rfl, -, -⟩ := Work.ends_throw_iff.mp h₆
            rw [List.append_nil]
            exact hL.after hboth (fun h => hne (congrArg some h)) (hL.call trivial)
              (.inl ⟨rfl, nofun⟩)
          · obtain ⟨_, -, hr, -⟩ := Act.ends_ask_iff.mp (Work.ends_lift_iff.mp h₅).1
            cases hr
    · obtain ⟨r₂, hends, ⟨hr, rfl⟩ | ⟨hr, -⟩⟩ := ends_attempt h₃
      · cases hr
        replace h₃ := hfinal _ _ _ _ _ _ hends
        cases hb : failureOf r₁ with
        | none =>
          rw [hb] at h₁
          exact hL.append h₁ h₃
        | some e =>
          rw [hb] at h₁ hne
          exact hL.after h₁ (fun h => hne (congrArg some h)) h₃ (.inr rfl)
      · cases hr
  · obtain ⟨r₁, hends, ⟨hr, rfl⟩ | ⟨hr, -⟩⟩ := ends_attempt h₁
    · cases hr
      exact hbranch _ _ _ _ _ _ hends
    · cases hr

theorem proper : kind.Proper := ⟨fun hL ctx => obeys_behave hL ctx, fun _ _ => rfl⟩

end IfElse

/-! ### Bounded loops -/

namespace LoopUntil

theorem obeys_conditionMet (hL : L.Lenient) (ctx : LoopContext) (loop : Loop) :
    (conditionMet ctx frame loop).Obeys L := by
  have hs := hL.toSequential
  have hfailed (error : String) : (do
      Work.lift (Act.log (.warning "loop_condition_check_failed"
        [("action_id", .text frame.actionId), ("selector", .text loop.selector),
         ("error", .text error)]))
      return false : Work Bool).Obeys L :=
    .bind hs (Work.obeys_lift (Act.obeys_log hL.toLiberal _)) fun _ => Work.obeys_pure hs _
  unfold conditionMet
  split
  · exact Work.obeys_pure hs _
  · refine Work.obeys_ite (Work.obeys_pure hs _) (Work.obeys_ite (hfailed _) ?_)
    refine .bind hs (Work.obeys_lift (Act.obeys_plain hL.toLiberal trivial)) fun reply => ?_
    cases reply with
    | ok reply => exact Work.obeys_pure hs _
    | error f => exact hfailed _

theorem obeys_exit (hL : L.Sequential) (iterations : Nat) (reason : String) :
    (exit iterations reason).Obeys L :=
  .bind hL (Work.obeys_report hL _) fun _ => Work.obeys_pure hL _

theorem obeys_forceStop (hL : L.Lenient) (loop : Loop) (iterations : Nat)
    (reasons : List String) : (forceStop frame loop iterations reasons).Obeys L :=
  Work.obeys_ite (Work.obeys_throw (hL.fail (Failure.own_error rfl)))
    (obeys_exit hL.toSequential _ _)

theorem obeys_begin (hL : L.Governs kind.type nested frame params) (ctx : LoopContext) (loop : Loop)
    (started : Rat) (iterations : Nat) {goOn : List String → Work String}
    (hgoOn : ∀ reasons, (goOn reasons).Obeys L) :
    (begin ctx frame loop started iterations goOn).Obeys L := by
  have hs := hL.toSequential
  have hlook : (Act.checkpoint "loop cancelled").Obeys L :=
    Act.obeys_checkpoint hL.go fun _ => hL.stop rfl List.mem_cons_self
  exact .bind hs (Work.obeys_lift hlook) fun _ =>
    .bind hs (Work.obeys_lift (Act.obeys_modify hs _)) fun _ =>
    .bind hs (obeys_conditionMet hL.toLenient ctx loop) fun _ => Work.obeys_ite (obeys_exit hs _ _)
      (.bind hs (Work.obeys_lift (Act.obeys_plain hL.toLiberal trivial)) fun _ => hgoOn _)

theorem obeys_iterate (hL : L.Governs kind.type nested frame params) (ctx : LoopContext)
    (started : Rat) (remaining iterations : Nat) :
    (iterate ctx nested frame (Loop.ofParams params) started remaining iterations).Obeys L := by
  have hs := hL.toSequential
  induction remaining generalizing iterations with
  | zero =>
    exact obeys_begin hL ctx _ started _ fun _ => obeys_forceStop hL.toLenient _ _ _
  | succ remaining ih =>
    refine obeys_begin hL ctx _ started _ fun reasons =>
      Work.obeys_ite (obeys_forceStop hL.toLenient _ _ _) ?_
    have hrun : (Action.runNested nested frame (Browser.param params "loop_actions")
        s!"{frame.actionId}-loop-{iterations + 1}"
        (some "loop cancelled during action execution")).Obeys L :=
      Action.obeys_runNested hL.toLenient
        (fun heq => hL.stop rfl (Option.some.inj heq ▸ List.mem_cons_of_mem _ List.mem_cons_self))
        fun ha h => hL.iteration rfl ⟨iterations, ha⟩ h
    exact .bind hs (Work.obeys_lift hrun) fun _ => .bind hs (Work.obeys_report hs _) fun _ =>
      .bind hs (Work.obeys_lift (Act.obeys_await hL.sleep hL.interrupted)) fun _ =>
      ih (iterations + 1)

/-- Putting the local loop index back does nothing else. -/
theorem obeys_restoringLocalIndex {m : Work α} (hm : m.Obeys L) :
    (restoringLocalIndex m).Obeys L := by
  intro f s t r f' s' h
  change ((m.run.run f).run s >>= fun x =>
    pure ((x.1.1, x.1.2), { x.2 with localLoopIndex := s.localLoopIndex })).Ends t
      ((r, f'), s') at h
  obtain ⟨t₁, ⟨⟨r₁, f₁⟩, s₁⟩, t₂, rfl, h₁, h₂⟩ := Program.ends_bind_iff.mp h
  obtain ⟨rfl, heq⟩ := Program.ends_pure_iff.mp h₂
  simp only [Prod.mk.injEq] at heq
  rw [List.append_nil, heq.1.1]
  exact hm _ _ _ _ _ _ h₁

theorem proper : kind.Proper :=
  ⟨fun hL ctx => .bind hL.toSequential
    (Work.obeys_lift (Act.obeys_plain hL.toLiberal trivial)) fun _ =>
      obeys_restoringLocalIndex (obeys_iterate hL ctx _ _ _), fun _ _ => rfl⟩

end LoopUntil

end Governed

/-! ### The catalogue -/

theorem Registry.mem_put {α : Type} {type : String} {x : α} {e : String × α} :
    ∀ {entries : List (String × α)}, e ∈ put type x entries → e = (type, x) ∨ e ∈ entries
  | [], h => .inl (List.mem_singleton.mp h)
  | e' :: rest, h => by
    rw [put] at h
    split at h
    · exact (List.mem_cons.mp h).imp_right (List.mem_cons_of_mem _)
    · rcases List.mem_cons.mp h with rfl | h
      · exact .inr List.mem_cons_self
      · exact (mem_put h).imp_right (List.mem_cons_of_mem _)

namespace Catalogue

/-- A failure of a collaborator is told in an error of the action's own. -/
theorem wrap_own : ∀ kind ∈ kinds, ∀ f params, (kind.wrap f params).1.cancellation? = none := by
  simp only [kinds, Browser.kinds, Api.kinds, StoredFiles.kinds, List.forall_mem_append,
    List.forall_mem_cons]
  and_intros <;> intros <;> first | rfl | contradiction

/-- The built-in kinds are proper. -/
theorem proper : ∀ kind ∈ kinds, kind.Proper := by
  intro kind hk
  have hwrap := wrap_own kind hk
  simp only [kinds, List.mem_append, List.mem_cons, List.not_mem_nil, or_false] at hk
  rcases hk with ((hk | rfl | rfl) | hk) | hk
  · exact (Browser.simple_of_mem kind hk fun _ => trivial).proper hwrap
  · exact IfElse.proper
  · exact LoopUntil.proper
  · have hsimple : kind.Simple False := Api.simple_of_mem kind hk
    exact hsimple.proper hwrap
  · exact (StoredFiles.simple_of_mem trivial kind hk).proper hwrap

theorem mem_of_mem_registryOf {kinds : List ActionKind} {e : String × ActionKind}
    (h : e ∈ (registryOf kinds).entries) : e.2 ∈ kinds ∧ e.2.type = e.1 := by
  have hfold : ∀ (ks : List ActionKind) (r : Registry ActionKind), e ∈ (ks.foldl (fun r k =>
      { r with entries := Registry.put k.type k r.entries }) r).entries →
      e ∈ r.entries ∨ e.2 ∈ ks ∧ e.2.type = e.1 := by
    intro ks
    induction ks with
    | nil => exact fun r h => .inl h
    | cons k ks ih =>
      intro r h
      rcases ih _ h with h | ⟨hm, htype⟩
      · rcases Registry.mem_put h with rfl | h
        · exact .inr ⟨List.mem_cons_self, rfl⟩
        · exact .inl h
      · exact .inr ⟨List.mem_cons_of_mem _ hm, htype⟩
  exact (hfold kinds {} h).resolve_left List.not_mem_nil

/-- What the built-in registry holds under a type is a built-in kind of this type. -/
theorem mem_of_get {type : String} {kind : ActionKind} (h : registry.get type = .ok kind) :
    kind ∈ kinds ∧ kind.type = type := by
  unfold Registry.get at h
  split at h
  · rename_i x hfind
    cases h
    simp only [Registry.find?, Option.map_eq_some_iff] at hfind
    obtain ⟨e, he, rfl⟩ := hfind
    obtain ⟨hm, htype⟩ := mem_of_mem_registryOf (List.mem_of_find?_eq_some he)
    have heq : (e.1 == type) = true := by simpa using List.find?_some he
    exact ⟨hm, htype.trans (beq_iff_eq.mp heq)⟩
  · cases h

theorem get_ifElse : registry.get "playwright:if_else" = .ok IfElse.kind := rfl

theorem get_loopUntil : registry.get "playwright:loop_until" = .ok LoopUntil.kind := rfl

end Catalogue

/-- A registry of proper kinds, each under its own type. -/
def Registry.Proper (registry : Registry ActionKind) : Prop :=
  ∀ {type kind}, registry.get type = .ok kind → kind.Proper ∧ kind.type = type

theorem Catalogue.registry_proper : registry.Proper := fun hget =>
  (mem_of_get hget).imp_left (proper _)

end Runbook
