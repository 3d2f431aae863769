import Runbook.Proofs.Likeness
import Runbook.Proofs.Nesting

/-!
# The linkage of events

An event names the action that it comes from and the control action which holds that, and it names
the local loop index. These fit together: they follow from where in the tree of actions the event
comes from, and from how often the innermost loop around it has gone round.

* `Linked i run l n t`: the deeds `t` are what `run` may do, each event with the right links.
* `RunEvent.Under`: where an event comes from, and which control action it names.
* `Catalogue.dispatch_linked`: whatever is dispatched, its events have the right links, and the
  local loop index is in the end what it was before.
-/

namespace Runbook

/-- What an action under way may do in the loop index `i`, entered with the local loop index `l`, if
it is a loop that has paused `n` times. Its own events are of its place and name `l`. What it
dispatches stands in its configuration. In a branching action that has the same local loop index. In
a loop it has the number of the iteration, which is one more than the number of the pauses. -/
inductive Linked (i : Int) : Running → Int → Nat → List Deed → Prop
  | nil {run : Running} {l : Int} {n : Nat} : Linked i run l n []
  | own {run : Running} {l : Int} {n : Nat} {d : Deed} {t : List Deed}
      (hd : d.Belongs i run.frame l)
      (hpause : run.frame.actionType = "playwright:loop_until" → d ≠ .wake .resumed)
      (h : Linked i run l n t) : Linked i run l n (d :: t)
  | pause {run : Running} {l : Int} {n : Nat} {t : List Deed}
      (htype : run.frame.actionType = "playwright:loop_until") (h : Linked i run l (n + 1) t) :
      Linked i run l n (.wake .resumed :: t)
  | branch {run : Running} {l : Int} {n : Nat} {a : NestedAction} {t t' : List Deed}
      (htype : run.frame.actionType = "playwright:if_else")
      (ha : IfElse.Lists run.frame run.config a) (hnested : Linked i (run.nested a) l 0 t)
      (h : Linked i run l n t') :
      Linked i run l n
        (.call (.dispatched i (run.nested a).frame (run.nested a).config) () :: (t ++ t'))
  | iteration {run : Running} {l : Int} {n : Nat} {a : NestedAction} {t t' : List Deed}
      (htype : run.frame.actionType = "playwright:loop_until")
      (ha : Action.IsEntry (Browser.param run.config "loop_actions")
        s!"{run.frame.actionId}-loop-{n + 1}" a)
      (hnested : Linked i (run.nested a) (n + 1) 0 t) (h : Linked i run l n t') :
      Linked i run l n
        (.call (.dispatched i (run.nested a).frame (run.nested a).config) () :: (t ++ t'))

/-- The actions that a control action holds as it is written. -/
inductive Running.Holds (run : Running) (a : NestedAction) : Prop
  | branch (htype : run.frame.actionType = "playwright:if_else")
      (ha : IfElse.Lists run.frame run.config a)
  | iteration (htype : run.frame.actionType = "playwright:loop_until")
      (ha : LoopUntil.Holds run.frame run.config a)

/-- An event comes from an action under way, entered with the local loop index `l`, or from one that
is nested in it and then names the control action which holds that. -/
structure RunEvent.Under (e : RunEvent) (i : Int) (run : Running) (l : Int) : Prop where
  stepId : e.stepId = run.frame.stepId
  stepName : e.stepName = run.frame.stepName
  loopIndex : e.loopIndex = i
  place : e.At run.frame ∧ e.localLoopIndex = l ∨ ∃ (holder : Running) (a : NestedAction),
    holder.Holds a ∧ e.At (holder.nested a).frame ∧ e.parentActionId = holder.frame.actionId

theorem Running.Holds.weightFields_lt {run : Running} {a : NestedAction} (h : run.Holds a) :
    Json.weightFields (run.nested a).config < Json.weightFields run.config := by
  cases h with
  | branch _ ha => exact ha.weightFields_lt
  | iteration _ ha => exact ha.weightFields_lt

variable {i l l' : Int} {n : Nat} {run : Running} {t t' : List Deed}

/-- The events of a nested action come from the action that holds it. -/
theorem RunEvent.Under.of_nested {e : RunEvent} {a : NestedAction}
    (h : e.Under i (run.nested a) l') (ha : run.Holds a) : e.Under i run l := by
  refine ⟨h.stepId, h.stepName, h.loopIndex, .inr ?_⟩
  rcases h.place with ⟨hat, -⟩ | hplace
  · exact ⟨run, a, ha, hat, hat.parentActionId⟩
  · exact hplace

namespace Linked

/-- All events of an action come from it. -/
theorem under (h : Linked i run l n t) {e : RunEvent} {taken : Bool}
    (he : .call (.emit e) taken ∈ t) : e.Under i run l := by
  induction h with
  | nil => cases he
  | own hd _ _ ih =>
    rcases List.mem_cons.mp he with rfl | he
    · exact ⟨hd.1.stepId, hd.1.stepName, hd.2.loopIndex, .inl ⟨hd.1, hd.2.localLoopIndex⟩⟩
    · exact ih he
  | pause _ _ ih =>
    rcases List.mem_cons.mp he with heq | he
    · cases heq
    · exact ih he
  | branch htype ha _ _ ih ih' =>
    rcases List.mem_cons.mp he with heq | he
    · cases heq
    · rcases List.mem_append.mp he with he | he
      · exact (ih he).of_nested (.branch htype ha)
      · exact ih' he
  | @iteration _ _ n _ _ _ htype ha _ _ ih ih' =>
    rcases List.mem_cons.mp he with heq | he
    · cases heq
    · rcases List.mem_append.mp he with he | he
      · exact (ih he).of_nested (.iteration htype ⟨n, ha⟩)
      · exact ih' he

/-- After some deeds an action can go on as it could before. -/
def Leaves (i : Int) (run : Running) (l : Int) (n : Nat) (t : List Deed) : Prop :=
  ∀ t', Linked i run l n t' → Linked i run l n (t ++ t')

theorem leaves_nil : Leaves i run l n [] := fun _ h => h

theorem Leaves.append (h : Leaves i run l n t) (h' : Leaves i run l n t') :
    Leaves i run l n (t ++ t') := by
  intro u hu
  rw [List.append_assoc]
  exact h _ (h' _ hu)

theorem leaves_own (ht : ∀ d ∈ t, d.Belongs i run.frame l)
    (hpause : run.frame.actionType = "playwright:loop_until" → ∀ d ∈ t, d ≠ .wake .resumed) :
    Leaves i run l n t := by
  intro u hu
  induction t with
  | nil => exact hu
  | cons d t ih =>
    refine .own (ht d List.mem_cons_self) (fun htype => hpause htype d List.mem_cons_self) ?_
    exact ih (fun d hd => ht d (List.mem_cons_of_mem _ hd))
      fun htype d hd => hpause htype d (List.mem_cons_of_mem _ hd)

theorem leaves_mute (ht : ∀ d ∈ t, d.Mute) : Leaves i run l n t := by
  refine leaves_own (fun d hd => (ht d hd).belongs _ _ _) fun _ d hd => ?_
  rintro rfl
  exact ht _ hd

end Linked

/-- Whatever a dispatcher makes of an action has the right links, and leaves the local loop index
alone. -/
def Dispatcher.Links (D : Dispatcher) (i : Int) (run : Running) : Prop :=
  ∀ s t r s', (D run.frame run.config).Ends s t r s' →
    s'.localLoopIndex = s.localLoopIndex ∧
      ∃ t', t = .call (.dispatched i run.frame run.config) () :: t' ∧
        Linked i run s.localLoopIndex 0 t'

/-! ### Lists of held actions -/

section Lists

variable {D : Dispatcher} {stem : String} {checkpoint : Option String} {items : Json}
  {es : List Json} {k : Nat} {s s' : LoopState} {r : Except Failure Unit}

/-- An action that runs a list with the local loop index `l'` can go on after that as it could
before, if it can after each of the entries. -/
theorem Linked.leaves_runs (h : Action.Runs D run.frame stem checkpoint k es s t r s')
    (hs : s.localLoopIndex = l')
    (hheld : ∀ {j entry a s t r s'}, es[j]? = some entry →
      NestedAction.ofEntry? entry s!"{stem}-{k + j}" = some a →
      (D (run.nested a).frame a.config).Ends s t r s' → s.localLoopIndex = l' →
      s'.localLoopIndex = l' ∧ Leaves i run l n t) :
    s'.localLoopIndex = l' ∧ Leaves i run l n t := by
  have hlooks : Leaves i run l n (Action.looks checkpoint) := leaves_mute Action.mute_of_looks
  have hrest {k : Nat} {entry : Json} {rest : List Json}
      (hheld : ∀ {j entry' a s t r s'}, (entry :: rest)[j]? = some entry' →
        NestedAction.ofEntry? entry' s!"{stem}-{k + j}" = some a →
        (D (run.nested a).frame a.config).Ends s t r s' → s.localLoopIndex = l' →
        s'.localLoopIndex = l' ∧ Leaves i run l n t) {j entry' a s t r s'}
      (hj : rest[j]? = some entry')
      (ha : NestedAction.ofEntry? entry' s!"{stem}-{k + 1 + j}" = some a) :
      (D (run.nested a).frame a.config).Ends s t r s' → s.localLoopIndex = l' →
        s'.localLoopIndex = l' ∧ Leaves i run l n t := by
    refine hheld (j := j + 1) hj ?_
    rwa [show k + (j + 1) = k + 1 + j by omega]
  induction h with
  | done => exact ⟨hs, leaves_nil⟩
  | stopped => exact ⟨hs, leaves_mute (List.forall_mem_singleton.mpr trivial)⟩
  | @passed k _ _ _ _ _ _ _ _ ih =>
    obtain ⟨hsame, hleaves⟩ := ih hs (hrest hheld)
    have hwarned : Leaves i run l n [.call (.log (Action.malformed run.frame k)) ()] :=
      leaves_mute (List.forall_mem_singleton.mpr trivial)
    exact ⟨hsame, hlooks.append (hwarned.append hleaves)⟩
  | failed ha hends =>
    obtain ⟨hsame, hleaves⟩ := hheld (j := 0) rfl ha hends hs
    exact ⟨hsame, hlooks.append hleaves⟩
  | next ha hends _ ih =>
    obtain ⟨hfirst, hhead⟩ := hheld (j := 0) rfl ha hends hs
    obtain ⟨hsame, hleaves⟩ := ih hfirst (hrest hheld)
    exact ⟨hsame, hlooks.append (hhead.append hleaves)⟩

theorem Linked.leaves_runNested
    (h : (Action.runNested D run.frame items stem checkpoint).Ends s t r s')
    (hs : s.localLoopIndex = l')
    (hheld : ∀ {a s t r s'}, Action.IsEntry items stem a →
      (D (run.nested a).frame a.config).Ends s t r s' → s.localLoopIndex = l' →
      s'.localLoopIndex = l' ∧ Leaves i run l n t) :
    s'.localLoopIndex = l' ∧ Leaves i run l n t := by
  rcases Action.ends_runNested h with ⟨rfl, rfl⟩ | ⟨es, hes, hruns⟩
  · exact ⟨hs, leaves_nil⟩
  · refine leaves_runs hruns hs fun {j entry a} _ _ _ _ hj ha => hheld ⟨es, j, entry, hes, hj, ?_⟩
    rwa [Nat.zero_add] at ha

end Lists

/-! ### The kinds of actions -/

section Kinds

variable {ctx : LoopContext} {D : Dispatcher} {params f f' : Fields} {s s' : LoopState}
  {r : Except Failure String}

theorem IfElse.leaves_behave (htype : run.frame.actionType = "playwright:if_else")
    (hlists : ∀ {a}, Holds run.frame params a → Lists run.frame run.config a)
    (hlinks : ∀ {a}, run.Holds a → D.Links ctx.loopIndex (run.nested a))
    (h : (behave ctx D run.frame params).Ends f s t r f' s') :
    s'.localLoopIndex = s.localLoopIndex ∧
      Linked.Leaves ctx.loopIndex run s.localLoopIndex n t := by
  have hlist {items : Json} {stem : String} {s₁ s₂ : LoopState} {t : List Deed}
      {r : Except Failure Unit}
      (hitems : ∀ {a}, Action.IsEntry items stem a → Holds run.frame params a)
      (h : (Action.runNested D run.frame items stem none).Ends s₁ t r s₂)
      (hs : s₁.localLoopIndex = s.localLoopIndex) :
      s₂.localLoopIndex = s.localLoopIndex ∧
        Linked.Leaves ctx.loopIndex run s.localLoopIndex n t := by
    refine Linked.leaves_runNested h hs fun ha hends hs => ?_
    have hheld := hlists (hitems ha)
    obtain ⟨hsame, t', rfl, hlinked⟩ := hlinks (.branch htype hheld) _ _ _ _ hends
    rw [hs] at hsame hlinked
    exact ⟨hsame, fun u hu => .branch htype hheld hlinked hu⟩
  obtain ⟨t₁, t₂, t₃, s₁, s₂, rfl, ⟨t₄, s₃, t₅, rfl, hsame, hmute, hbranch⟩, hfinal, hlast,
    hmute'⟩ := ends_behave h
  have htaken : s₁.localLoopIndex = s.localLoopIndex ∧
      Linked.Leaves ctx.loopIndex run s.localLoopIndex n t₅ := by
    rcases hbranch with ⟨rfl, rfl⟩ | ⟨items, stem, _, hbranch, hrun⟩
    · exact ⟨hsame, Linked.leaves_nil⟩
    · exact hlist hbranch.holds hrun hsame
  have hran : s₂.localLoopIndex = s.localLoopIndex ∧
      Linked.Leaves ctx.loopIndex run s.localLoopIndex n t₂ := by
    rcases hfinal with ⟨rfl, rfl⟩ | ⟨_, hrun⟩
    · exact ⟨htaken.1, Linked.leaves_nil⟩
    · exact hlist .final hrun htaken.1
  exact ⟨hlast.trans hran.1, ((Linked.leaves_mute hmute).append htaken.2).append
    (hran.2.append (Linked.leaves_mute hmute'))⟩

/-- After all that a loop does, it can do what it could do after any number of pauses. -/
theorem LoopUntil.linked_rounds {loop : Loop} {n : Nat}
    (htype : run.frame.actionType = "playwright:loop_until")
    (hentry : ∀ {stem a}, Action.IsEntry loop.actions stem a →
      Action.IsEntry (Browser.param run.config "loop_actions") stem a)
    (hlinks : ∀ {a}, run.Holds a → D.Links i (run.nested a))
    (h : Rounds D run.frame loop n s t s') (hu : ∀ n, Linked i run l n t') :
    Linked i run l n (t ++ t') := by
  have hlist {n : Nat} {s₁ s₂ : LoopState} {t : List Deed} {r : Except Failure Unit}
      (h : (Action.runNested D run.frame loop.actions s!"{run.frame.actionId}-loop-{n + 1}"
        (some "loop cancelled during action execution")).Ends s₁ t r s₂)
      (hs : s₁.localLoopIndex = n + 1) : Linked.Leaves i run l n t := by
    refine (Linked.leaves_runNested h hs fun ha hends hs => ?_).2
    obtain ⟨hsame, t', rfl, hlinked⟩ := hlinks (.iteration htype ⟨n, hentry ha⟩) _ _ _ _ hends
    rw [hs] at hsame hlinked
    exact ⟨hsame, fun u hu => .iteration htype (hentry ha) hlinked hu⟩
  induction h with
  | ends ht => exact Linked.leaves_mute ht _ (hu _)
  | breaks ht hs hrun ht' =>
    have hrun := (hlist hrun hs).append (Linked.leaves_mute ht')
    exact ((Linked.leaves_mute ht).append hrun) _ (hu _)
  | @again k _ _ _ _ _ _ _ ht hs hrun _ ih =>
    have hwait : Linked.Leaves i run l k [.wait (.sleep pause)] :=
      Linked.leaves_mute (List.forall_mem_singleton.mpr trivial)
    have hpaused := hwait _ (.pause htype ih)
    have hall := ((Linked.leaves_mute ht).append (hlist hrun hs)) _ hpaused
    simpa using hall

/-- What an action does before it tells how it ended has the right links. -/
theorem Catalogue.linked_behave {kind : ActionKind} {R : String → String → Prop} {resolved : Fields}
    (hget : registry.get run.frame.actionType = .ok kind)
    (hresolved : Template.Rewritten R (kind.deferred.map Template.Deferral.ofText) []
      (.object run.config) (.object resolved))
    (hvalid : kind.validate (.object resolved) = .ok params)
    (hlinks : ∀ {a}, run.Holds a → D.Links ctx.loopIndex (run.nested a))
    (h : (kind.behave ctx D run.frame params).Ends f s t r f' s') :
    s'.localLoopIndex = s.localLoopIndex ∧
      ∀ t', (∀ n, Linked ctx.loopIndex run s.localLoopIndex n t') →
        Linked ctx.loopIndex run s.localLoopIndex 0 (t ++ t') := by
  obtain ⟨hkind, htype⟩ := mem_of_get hget
  obtain ⟨_, hfields, hrewritten⟩ := hresolved
  cases hfields
  by_cases hbranch : kind.type = "playwright:if_else"
  · have hplace := htype.symm.trans hbranch
    rw [hplace, get_ifElse] at hget
    cases hget
    obtain ⟨hsame, hleaves⟩ := IfElse.leaves_behave hplace
      (IfElse.lists_of_holds hrewritten hvalid) hlinks h
    exact ⟨hsame, fun _ hu => hleaves _ (hu 0)⟩
  by_cases hloop : kind.type = "playwright:loop_until"
  · have hplace := htype.symm.trans hloop
    rw [hplace, get_loopUntil] at hget
    cases hget
    obtain ⟨hsame, now, t₁, s₁, rfl, hrounds⟩ := LoopUntil.ends_behave h
    refine ⟨hsame, fun _ hu => .own trivial nofun ?_⟩
    exact LoopUntil.linked_rounds hplace
      (LoopUntil.isEntry_of_isEntry hrewritten hvalid) hlinks hrounds hu
  · have hsimple : kind.Simple True := simple_of_ne hkind hbranch hloop fun _ => trivial
    obtain ⟨hsame, hown⟩ := (hsimple.behave ctx D run.frame params).stays _ _ _ _ _ _ h
    refine ⟨hsame, fun _ hu => Linked.leaves_own hown (fun heq => ?_) _ (hu 0)⟩
    exact absurd (htype.trans heq) hloop

/-! ### Dispatches -/

namespace Catalogue

/-- What is executed has the right links when all that it holds has them. -/
theorem linked_execute {kind : ActionKind} {R : String → String → Prop} {resolved : Fields}
    {r : Except Failure Unit}
    (hget : registry.get run.frame.actionType = .ok kind)
    (hresolved : Template.Rewritten R (kind.deferred.map Template.Deferral.ofText) []
      (.object run.config) (.object resolved))
    (hlinks : ∀ {a}, run.Holds a → D.Links ctx.loopIndex (run.nested a))
    (h : (kind.execute ctx D run.frame (.object resolved)).Ends s t r s') :
    s'.localLoopIndex = s.localLoopIndex ∧ Linked ctx.loopIndex run s.localLoopIndex 0 t := by
  rcases ActionKind.ends_execute h with ⟨-, -, -, rfl, rfl⟩ |
    ⟨params, started, t₁, result, report, s₁, t₂, hvalid, rfl, rfl, rfl, hbehave, htold⟩
  · exact ⟨rfl, .nil⟩
  obtain ⟨hsame, hlinked⟩ := linked_behave hget hresolved hvalid hlinks hbehave
  refine ⟨hsame, .own trivial nofun (hlinked _ fun n => ?_)⟩
  rcases htold with ⟨rfl, -⟩ | ⟨ended, now, e, taken, rfl, hat, hcounts, -⟩
  · exact .nil
  · rw [hsame] at hcounts
    exact .own trivial nofun (.own trivial nofun (.own ⟨hat, hcounts⟩ nofun .nil))

theorem links_dispatch (ctx : LoopContext) (run : Running) :
    Dispatcher.Links (Action.dispatch registry ctx) ctx.loopIndex run := by
  -- What an action holds weighs less than the action.
  induction hweight : Json.weightFields run.config using Nat.strongRecOn generalizing run with
  | ind weight ih =>
    intro s t r s' h
    rw [Action.dispatch_eq] at h
    obtain ⟨t', rfl, hfollows⟩ := Action.ends_dispatchWith h
    suffices hdone : s'.localLoopIndex = s.localLoopIndex ∧
        Linked ctx.loopIndex run s.localLoopIndex 0 t' from
      ⟨hdone.1, t', rfl, hdone.2⟩
    cases hfollows with
    | unknown => exact ⟨rfl, .nil⟩
    | unresolved e ht =>
      rw [← List.append_nil t']
      exact ⟨rfl, Linked.leaves_mute ht.mute _ .nil⟩
    | executed hget ht hresolved h =>
      obtain ⟨hsame, hlinked⟩ := linked_execute hget hresolved
        (fun ha => ih _ (hweight ▸ ha.weightFields_lt) _ rfl) h
      exact ⟨hsame, Linked.leaves_mute ht.mute _ hlinked⟩

/-- **Linkage.** Whatever is dispatched, however deep actions are nested and whatever the world
replies, each event names the place that it comes from: an event of a nested action names the
control action which holds that, it keeps the step and the loop index, and it names the local loop
index that was there at first or the number of the iteration of the innermost loop around it.
However the dispatch ends, the local loop index is in the end what it was before. -/
theorem dispatch_linked (ctx : LoopContext) (run : Running) {s s' : LoopState} {t : List Deed}
    {r : Except Failure Unit}
    (h : (Action.dispatch registry ctx run.frame run.config).Ends s t r s') :
    s'.localLoopIndex = s.localLoopIndex ∧
      ∃ t', t = .call (.dispatched ctx.loopIndex run.frame run.config) () :: t' ∧
        Linked ctx.loopIndex run s.localLoopIndex 0 t' ∧
        ∀ e taken, .call (.emit e) taken ∈ t' → e.Under ctx.loopIndex run s.localLoopIndex := by
  obtain ⟨hsame, t', rfl, hlinked⟩ := links_dispatch ctx run s t r s' h
  exact ⟨hsame, t', rfl, hlinked, fun e taken he => hlinked.under he⟩

/-- A loop that is to log something in a branch, and then to do what nobody knows. -/
def loopingBranch : Running where
  frame := { stepId := "s", actionId := "a", actionType := "playwright:loop_until" }
  config := [
    ("max_loops", .int 2),
    ("loop_actions", .list [
      .object [
        ("action_type", .text "playwright:if_else"),
        ("action_config", sampleBranching)],
      .object [("action_type", .text "playwright:no_such_action")]])]

/-- In the first iteration of a loop, the events of a branch name the branching action and those of
the branching action name the loop. They have the local loop index 1, while the loop itself has none
in the end. -/
theorem loop_and_branch_linked : ∃ t' r s',
    (Action.dispatch registry sampleContext loopingBranch.frame loopingBranch.config).Ends {}
      (.call (.dispatched 0 loopingBranch.frame loopingBranch.config) () :: t') r s' ∧
    s'.localLoopIndex = 0 ∧ Linked 0 loopingBranch 0 0 t' ∧
    (told t').map (fun e => (e.actionId, e.parentActionId, e.localLoopIndex)) =
      [("a-loop-1-0-nested-else-0", "a-loop-1-0", 1), ("a-loop-1-0", "a", 1), ("a", "", 0)] := by
  let shared : Schedule.Shared Rehearsal.World :=
    { clock := 0, outside := { epoch := 0, pages := [(0, {})] } }
  let program := (Action.dispatch registry sampleContext loopingBranch.frame
    loopingBranch.config).run.run {}
  obtain ⟨⟨r, s'⟩, hadv, -⟩ : ∃ a, (Schedule.advance Rehearsal.World.collaborators program
      shared).1 = .ended a ∧ a.1.toOption.isSome = false :=
    Schedule.Task.exists_ended (by decide +kernel)
  have htold : (told (Schedule.deeds Rehearsal.World.collaborators program shared)).map
      (fun e => (e.actionId, e.parentActionId, e.localLoopIndex)) =
        [("a-loop-1-0-nested-else-0", "a-loop-1-0", 1), ("a-loop-1-0", "a", 1), ("a", "", 0)] := by
    decide +kernel
  have hends := Schedule.Task.ends_deeds hadv
  obtain ⟨hsame, t', ht, hlinked, -⟩ := dispatch_linked sampleContext loopingBranch hends
  rw [ht] at hends htold
  exact ⟨t', r, s', hends, hsame, hlinked, htold⟩

end Catalogue

end Kinds

end Runbook
