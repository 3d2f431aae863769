import Runbook.Proofs.Identifiers
import Runbook.Proofs.Nesting
import Runbook.Proofs.Together

/-!
# The names of dispatched actions

A dispatch is known by its loop index and by the identifier of its action. When a definition names
nothing, no two dispatches of a run have the same name. For, an action dispatches only what is
called after it, and its branches, its iterations and the entries of its lists are called after it
in different ways; so are the actions of a step, the steps, and, by their number, the loop indices.

* `names t`: the names of what is dispatched in a trace, in order.
* `Naming R t`: these names are within a region, and none occurs twice. Traces with regions that do
  not meet can be joined.
* `Catalogue.naming_dispatch`: so it is for a dispatch, in the region of what is called after the
  action.
* `Loop.naming_run`: so it is for a loop index.
* `Whole.default_identifiers_nodup`: so it is for a run.
-/

namespace Runbook

open Identifier Schedule Rehearsal

variable {α β : Type}

/-! ### Names and regions -/

/-- The loop index and the identifier under which each action is dispatched, in order. -/
def names (t : List Deed) : List (Int × String) :=
  t.filterMap fun
    | .call (.dispatched i frame _) _ => some (i, frame.actionId)
    | _ => none

@[simp] theorem names_nil : names [] = [] := rfl

@[simp] theorem names_append (t t' : List Deed) : names (t ++ t') = names t ++ names t' :=
  List.filterMap_append

@[simp] theorem names_dispatched (i : Int) (frame : Frame) (config : Fields) (t : List Deed) :
    names (.call (.dispatched i frame config) () :: t) = (i, frame.actionId) :: names t := rfl

/-- Who does not dispatch gives no name. -/
theorem names_eq_nil {t : List Deed}
    (h : ∀ i frame config, .call (.dispatched i frame config) () ∉ t) : names t = [] := by
  refine List.filterMap_eq_nil_iff.mpr fun d hd => ?_
  rcases d with ⟨c, r⟩ | _ | _
  · cases c with
    | dispatched i frame config => exact absurd hd (h i frame config)
    | _ => rfl
  all_goals rfl

theorem names_of_belongs {i : Int} {frame : Frame} {l : Int} {t : List Deed}
    (h : ∀ d ∈ t, d.Belongs i frame l) : names t = [] :=
  names_eq_nil fun _ _ _ hd => h _ hd

theorem names_of_mute {t : List Deed} (h : ∀ d ∈ t, d.Mute) : names t = [] :=
  names_eq_nil fun _ _ _ hd => h _ hd

/-- The names in a trace are in a region, and none occurs twice. -/
structure Naming (R : Int × String → Prop) (t : List Deed) : Prop where
  within : ∀ x ∈ names t, R x
  nodup : (names t).Nodup

namespace Naming

variable {R R' : Int × String → Prop} {t t' : List Deed}

theorem of_nil (h : names t = []) : Naming R t where
  within := by simp [h]
  nodup := by simp [h]

theorem mono (h : Naming R t) (hR : ∀ x, R x → R' x) : Naming R' t :=
  ⟨fun x hx => hR x (h.within x hx), h.nodup⟩

theorem of_eq (h : Naming R t) (heq : names t' = names t) : Naming R t' :=
  ⟨heq ▸ h.within, heq ▸ h.nodup⟩

theorem left (h : Naming R (t ++ t')) : Naming R t where
  within x hx := h.within x (by rw [names_append]; exact List.mem_append_left _ hx)
  nodup := (List.nodup_append.mp (names_append t t' ▸ h.nodup)).1

/-- Names in regions that do not meet do not meet. -/
theorem append (h : Naming R t) (h' : Naming R' t') (hapart : ∀ x, R x → ¬ R' x) :
    Naming (fun x => R x ∨ R' x) (t ++ t') where
  within x hx := by
    rw [names_append, List.mem_append] at hx
    exact hx.imp (h.within x) (h'.within x)
  nodup := by
    rw [names_append, List.nodup_append]
    exact ⟨h.nodup, h'.nodup, fun x hx y hy heq =>
      hapart x (h.within x hx) (h'.within x (heq ▸ hy))⟩

end Naming

/-- The names in a loop index that begin with the words of an identifier. -/
def After (i : Int) (stem : String) (x : Int × String) : Prop := x.1 = i ∧ Extends stem x.2

theorem After.of_extends {i : Int} {stem stem' : String} {x : Int × String}
    (hx : After i stem' x) (h : Extends stem stem') : After i stem x := ⟨hx.1, h.trans hx.2⟩

theorem not_after_of_apart {i : Int} {a b : String} (h : Apart a b) {x : Int × String}
    (hx : After i a x) : ¬ After i b x := fun hx' => h x.2 hx.2 hx'.2

/-! ### Lists of held actions -/

section Lists

variable {D : Dispatcher} {i : Int} {frame : Frame} {stem : String} {checkpoint : Option String}
  {items : Json} {es : List Json} {k : Nat} {s s' : LoopState} {t : List Deed}
  {r : Except Failure Unit}

theorem NestedAction.exists_object {entry : Json} {id : String} {a : NestedAction}
    (h : NestedAction.ofEntry? entry id = some a) : ∃ fields, entry = .object fields := by
  cases entry with
  | object fields => exact ⟨fields, rfl⟩
  | _ => cases h

/-- An entry of a list is called after its position. -/
theorem Naming.of_runs (h : Action.Runs D frame stem checkpoint k es s t r s')
    (hheld : ∀ {entry id a s t r s'}, .object entry ∈ es →
      NestedAction.ofEntry? (.object entry) id = some a →
      (D (frame.child a.id a.actionType a.name) a.config).Ends s t r s' →
      Naming (After i id) t) :
    Naming (fun x => ∃ j, k ≤ j ∧ After i s!"{stem}-{j}" x) t := by
  have hlooks : names (Action.looks checkpoint) = [] := names_of_mute Action.mute_of_looks
  induction h with
  | done => exact .of_nil rfl
  | stopped => exact .of_nil rfl
  | passed _ _ ih =>
    have hrest := ih fun he => hheld (List.mem_cons_of_mem _ he)
    refine (hrest.mono fun x => ?_).of_eq (by rw [names_append, hlooks]; rfl)
    rintro ⟨j, hj, hx⟩
    exact ⟨j, by omega, hx⟩
  | failed hentry hends =>
    obtain ⟨fields, rfl⟩ := NestedAction.exists_object hentry
    have hhead := hheld List.mem_cons_self hentry hends
    refine (hhead.mono fun x hx => ⟨_, Nat.le_refl _, hx⟩).of_eq ?_
    rw [names_append, hlooks, List.nil_append]
  | next hentry hends _ ih =>
    obtain ⟨fields, rfl⟩ := NestedAction.exists_object hentry
    have hhead := hheld List.mem_cons_self hentry hends
    have hrest := ih fun he => hheld (List.mem_cons_of_mem _ he)
    refine ((hhead.append hrest ?_).mono fun x hx => ?_).of_eq ?_
    · rintro x hx ⟨j, hj, hx'⟩
      exact not_after_of_apart (apart_number stem (by omega)) hx hx'
    · rcases hx with hx | ⟨j, hj, hx⟩
      · exact ⟨_, Nat.le_refl _, hx⟩
      · exact ⟨j, by omega, hx⟩
    · rw [names_append, hlooks, List.nil_append]

theorem Naming.of_runNested (h : (Action.runNested D frame items stem checkpoint).Ends s t r s')
    (hheld : ∀ {es entry id a s t r s'}, Action.entries items = .ok es → .object entry ∈ es →
      NestedAction.ofEntry? (.object entry) id = some a →
      (D (frame.child a.id a.actionType a.name) a.config).Ends s t r s' →
      Naming (After i id) t) :
    Naming (After i stem) t := by
  rcases Action.ends_runNested h with ⟨rfl, -⟩ | ⟨es, hes, hruns⟩
  · exact .of_nil rfl
  · refine (of_runs hruns (hheld hes)).mono ?_
    rintro x ⟨j, -, hx⟩
    exact hx.of_extends (extends_number stem j)

end Lists

/-! ### The kinds of actions -/

section Kinds

variable {ctx : LoopContext} {D : Dispatcher} {i : Int} {frame : Frame} {params f f' : Fields}
  {s s' : LoopState} {t : List Deed} {r : Except Failure String}

namespace IfElse

/-- The actions of a branch are called after a word which is that of no final action. -/
theorem Branch.exists_word {items : Json} {stem : String} (h : Branch frame params items stem) :
    ∃ w, IsWord w ∧ w ≠ "final" ∧ Extends (join (idStem frame) w) stem := by
  cases h with
  | «if» => exact ⟨"if", by decide, by decide, extends_word rfl⟩
  | «else» => exact ⟨"else", by decide, by decide, extends_word rfl⟩
  | @alternative n =>
    refine ⟨"else_if", by decide, by decide, ?_⟩
    rw [show s!"{idStem frame}-else_if-{n}" = join (join (idStem frame) "else_if") n.repr from
      join_words rfl]
    exact extends_join _ _

/-- The entries of a branch stand in the configuration. -/
theorem Branch.hasEntry {items : Json} {stem : String} {es : List Json} {entry : Fields}
    (h : Branch frame params items stem) (hes : Action.entries items = .ok es)
    (hentry : .object entry ∈ es) : Action.HasEntry kind.type params entry := by
  cases h with
  | «if» => exact .branch rfl (by decide) (Action.mem_listAt_of_entries hes hentry)
  | «else» => exact .branch rfl (by decide) (Action.mem_listAt_of_entries hes hentry)
  | alternative hfound ha =>
    obtain ⟨fields, rfl, hactions⟩ := object_of_ofEntry ha
    rw [hactions] at hes
    exact .alternative rfl (List.mem_of_getElem? hfound) (Action.mem_listAt_of_entries hes hentry)

/-- What a branching action dispatches is called after it. -/
theorem naming_behave
    (hheld : ∀ {entry id a s t r s'}, Action.HasEntry kind.type params entry →
      NestedAction.ofEntry? (.object entry) id = some a →
      (D (frame.child a.id a.actionType a.name) a.config).Ends s t r s' → Naming (After i id) t)
    (h : (behave ctx D frame params).Ends f s t r f' s') :
    Naming (After i (idStem frame)) t := by
  obtain ⟨t₁, t₂, t₃, s₁, s₂, rfl, ⟨t₄, s₃, t₅, rfl, -, hmute, hbranch⟩, hlast, -, hmute'⟩ :=
    ends_behave h
  have hran : Naming (After i s!"{idStem frame}-final") t₂ := by
    rcases hlast with ⟨rfl, -⟩ | ⟨_, hrun⟩
    · exact .of_nil rfl
    · refine .of_runNested hrun fun hes hentry => hheld ?_
      exact .branch rfl (by decide) (Action.mem_listAt_of_entries hes hentry)
  have hfinal : s!"{idStem frame}-final" = join (idStem frame) "final" := join_word rfl
  have hstem : Extends (idStem frame) s!"{idStem frame}-final" := hfinal ▸ extends_join _ _
  have hquiet : names (t₄ ++ t₅ ++ (t₂ ++ t₃)) = names (t₅ ++ t₂) := by
    simp [names_of_mute hmute, names_of_mute hmute']
  rcases hbranch with ⟨rfl, -⟩ | ⟨items, stem, _, hbranch, hrun⟩
  · exact (hran.mono fun x hx => hx.of_extends hstem).of_eq hquiet
  · obtain ⟨w, hw, hne, hword⟩ := hbranch.exists_word
    have htaken := Naming.of_runNested hrun fun hes hentry => hheld (hbranch.hasEntry hes hentry)
    refine ((htaken.append hran fun x hx => ?_).mono ?_).of_eq hquiet
    · have hapart : Apart (join (idStem frame) w) s!"{idStem frame}-final" :=
        hfinal ▸ apart_join hw (by decide) hne
      exact not_after_of_apart (hapart.of_extends hword (extends_refl _)) hx
    · rintro x (hx | hx)
      · exact hx.of_extends ((extends_join _ w).trans hword)
      · exact hx.of_extends hstem

end IfElse

namespace LoopUntil

theorem join_loop (id : String) (n : Nat) :
    s!"{id}-loop-{n}" = join (join id "loop") n.repr := join_words rfl

/-- Iterations are called after their numbers. -/
theorem naming_rounds {loop : Loop} {n : Nat}
    (hheld : ∀ {es entry id a s t r s'}, Action.entries loop.actions = .ok es →
      .object entry ∈ es → NestedAction.ofEntry? (.object entry) id = some a →
      (D (frame.child a.id a.actionType a.name) a.config).Ends s t r s' → Naming (After i id) t)
    (h : Rounds D frame loop n s t s') :
    Naming (fun x => ∃ m, n ≤ m ∧ After i s!"{frame.actionId}-loop-{m + 1}" x) t := by
  induction h with
  | ends ht => exact .of_nil (names_of_mute ht)
  | breaks ht _ hrun ht' =>
    refine ((Naming.of_runNested hrun hheld).mono fun x hx => ⟨_, Nat.le_refl _, hx⟩).of_eq ?_
    simp [names_of_mute ht, names_of_mute ht']
  | @again n _ _ _ _ t t' t'' ht _ hrun _ ih =>
    have hquiet : names (t ++ (t' ++ .wait (.sleep pause) :: .wake .resumed :: t'')) =
        names (t' ++ t'') := by
      rw [names_append, names_of_mute ht, List.nil_append, names_append, names_append]
      rfl
    have hround := Naming.of_runNested hrun hheld
    refine ((hround.append ih ?_).mono fun x hx => ?_).of_eq hquiet
    · rintro x hx ⟨m, hm, hx'⟩
      refine not_after_of_apart ?_ hx hx'
      rw [join_loop, join_loop]
      exact apart_number _ (by omega)
    · rcases hx with hx | ⟨m, hm, hx⟩
      · exact ⟨n, Nat.le_refl n, hx⟩
      · exact ⟨m, by omega, hx⟩

end LoopUntil

namespace Catalogue

/-- What an action does before it tells how it ended is called after it, and never as it is. -/
theorem naming_behave {kind : ActionKind} {R : String → String → Prop} {config resolved : Fields}
    (hget : registry.get frame.actionType = .ok kind)
    (hresolved : Template.Rewritten R (kind.deferred.map Template.Deferral.ofText) []
      (.object config) (.object resolved))
    (hvalid : kind.validate (.object resolved) = .ok params)
    (hheld : ∀ {entry id a s t r s'}, Action.HasEntry frame.actionType config entry →
      NestedAction.ofEntry? (.object entry) id = some a →
      (D (frame.child a.id a.actionType a.name) a.config).Ends s t r s' →
      Naming (After ctx.loopIndex id) t)
    (h : (kind.behave ctx D frame params).Ends f s t r f' s') :
    Naming (fun x => After ctx.loopIndex frame.actionId x ∧ x.2 ≠ frame.actionId) t := by
  -- What is called after more words than the action is not called as it is.
  have hlonger {stem w : String} (hstem : Extends (join frame.actionId w) stem)
      {x : Int × String} (hx : After ctx.loopIndex stem x) :
      After ctx.loopIndex frame.actionId x ∧ x.2 ≠ frame.actionId := by
    refine ⟨hx.of_extends ((extends_join _ _).trans hstem), fun heq => ?_⟩
    exact not_extends_join _ _ (heq ▸ hstem.trans hx.2)
  obtain ⟨hkind, htype⟩ := mem_of_get hget
  obtain ⟨_, hfields, hrewritten⟩ := hresolved
  cases hfields
  by_cases hbranch : kind.type = "playwright:if_else"
  · have hplace := htype.symm.trans hbranch
    rw [hplace, get_ifElse] at hget
    cases hget
    rw [hplace] at hheld
    refine (IfElse.naming_behave (fun hentry => hheld ?_) h).mono fun x hx => ?_
    · exact IfElse.hasEntry_of_hasEntry hrewritten hvalid hentry
    · have hnested : Extends (join frame.actionId "nested") (IfElse.idStem frame) :=
        extends_word rfl
      exact hlonger hnested hx
  by_cases hloop : kind.type = "playwright:loop_until"
  · have hplace := htype.symm.trans hloop
    rw [hplace, get_loopUntil] at hget
    cases hget
    rw [hplace] at hheld
    obtain ⟨-, now, t₁, s₁, rfl, hrounds⟩ := LoopUntil.ends_behave h
    refine ((LoopUntil.naming_rounds (fun hes hentry => hheld ?_) hrounds).mono ?_).of_eq rfl
    · exact LoopUntil.hasEntry_of_mem hrewritten hvalid (Action.mem_listAt_of_entries hes hentry)
    · rintro x ⟨m, -, hx⟩
      rw [LoopUntil.join_loop] at hx
      exact hlonger (extends_join _ _) hx
  · have hsimple : kind.Simple True := simple_of_ne hkind hbranch hloop fun _ => trivial
    have hown := (hsimple.behave ctx D frame params).stays _ _ _ _ _ _ h
    exact .of_nil (names_of_belongs hown.2)

/-- What is dispatched is called after the action, and nothing in it twice. -/
theorem naming_dispatch (ctx : LoopContext) {type : String} {config : Fields}
    (h : Nameless type config) {frame : Frame} (htype : frame.actionType = type) {s s' : LoopState}
    {t : List Deed} {r : Except Failure Unit}
    (hends : (Action.dispatch registry ctx frame config).Ends s t r s') :
    Naming (After ctx.loopIndex frame.actionId) t := by
  induction h generalizing frame s t r s' with
  | intro hid _ ih =>
    rw [Action.dispatch_eq] at hends
    obtain ⟨t', rfl, hfollows⟩ := Action.ends_dispatchWith hends
    suffices hnested : Naming (fun x => After ctx.loopIndex frame.actionId x ∧
        x.2 ≠ frame.actionId) t' by
      refine ⟨fun x hx => ?_, ?_⟩
      · rw [names_dispatched, List.mem_cons] at hx
        rcases hx with rfl | hx
        · exact ⟨rfl, extends_refl _⟩
        · exact (hnested.within x hx).1
      · rw [names_dispatched, List.nodup_cons]
        exact ⟨fun hx => (hnested.within _ hx).2 rfl, hnested.nodup⟩
    cases hfollows with
    | unknown => exact .of_nil rfl
    | unresolved e ht => exact .of_nil (names_of_mute ht.mute)
    | @executed kind _ _ resolved t₁ t₂ _ _ hget ht hresolved h =>
      suffices hexecuted : Naming (fun x => After ctx.loopIndex frame.actionId x ∧
          x.2 ≠ frame.actionId) t₂ from
        hexecuted.of_eq (by rw [names_append, names_of_mute ht.mute, List.nil_append])
      rcases ActionKind.ends_execute h with ⟨-, -, -, rfl, -⟩ |
        ⟨params, started, t₃, result, report, s₁, t₄, hvalid, rfl, -, -, hbehave, htold⟩
      · exact .of_nil rfl
      have hdone := naming_behave hget hresolved hvalid (fun hentry ha hends => ?_) hbehave
      · refine hdone.of_eq ?_
        rcases htold with ⟨rfl, -⟩ | ⟨ended, now, e, taken, rfl, -⟩
        · rw [List.append_nil]
          rfl
        · simp [names]
      · rw [htype] at hentry
        obtain ⟨hsame, htype', hconfig⟩ := NestedAction.of_unnamed ha (hid _ hentry)
        exact hsame ▸ ih _ _ hentry hconfig htype' hends

end Catalogue

end Kinds

/-! ### A loop index -/

/-- The names of what a part dispatches are in a region, and none occurs twice. -/
def Named (R : Int × String → Prop) : Law := fun t _ => Naming R t

/-- Nothing is dispatched. -/
def Undispatched : Law := fun t _ => names t = []

theorem undispatched_lenient : Undispatched.Lenient where
  nil := rfl
  append h h' := by rw [Undispatched, names_append, h, h']; rfl
  call hc := names_of_mute (List.forall_mem_singleton.mpr (hc.mute _))
  fail _ := rfl
  file _ := rfl
  sleep := rfl
  interrupted := rfl
  go := rfl
  after h _ h' _ := by rw [Undispatched, names_append, h, h']; rfl

namespace Act

variable {R R' : Int × String → Prop} {m : Act α} {f : α → Act β}

theorem named_of_undispatched (h : m.Obeys Undispatched) : m.Obeys (Named R) :=
  fun _ _ _ _ hends => .of_nil (h _ _ _ _ hends)

theorem named_bind (hm : m.Obeys (Named R)) (hf : ∀ a, (f a).Obeys (Named R'))
    (hapart : ∀ x, R x → ¬ R' x) : (m >>= f).Obeys (Named fun x => R x ∨ R' x) := by
  intro s t r s' h
  rcases ends_bind_iff.mp h with ⟨t₁, a, s₁, t₂, rfl, h₁, h₂⟩ | ⟨e, h₁, -⟩
  · exact (hm _ _ _ _ h₁).append (hf a _ _ _ _ h₂) hapart
  · exact (hm _ _ _ _ h₁).mono fun _ => .inl

/-- What comes first may dispatch nothing. -/
theorem named_after (hm : m.Obeys Undispatched) (hf : ∀ a, (f a).Obeys (Named R)) :
    (m >>= f).Obeys (Named R) := by
  have hnone : m.Obeys (Named fun _ => False) := named_of_undispatched hm
  intro s t r s' h
  refine (named_bind hnone hf (fun _ hx _ => hx) s t r s' h).mono ?_
  rintro x (hx | hx)
  · exact hx.elim
  · exact hx

/-- What comes last may dispatch nothing. -/
theorem named_before (hm : m.Obeys (Named R)) (hf : ∀ a, (f a).Obeys Undispatched) :
    (m >>= f).Obeys (Named R) := by
  intro s t r s' h
  refine (named_bind hm (fun a => named_of_undispatched (R := fun _ => False) (hf a))
    (fun _ _ hx => hx) s t r s' h).mono ?_
  rintro x (hx | hx)
  · exact hx
  · exact hx.elim

/-- One part for each item of a list, in regions that do not meet. -/
theorem named_forM {i : Int} {id : α → String} {f : α → Act PUnit} {as : List α}
    (hf : ∀ a ∈ as, (f a).Obeys (Named (After i (id a))))
    (hapart : as.Pairwise fun a b => Apart (id a) (id b)) :
    (as.forM f).Obeys (Named fun x => ∃ a ∈ as, After i (id a) x) := by
  induction as with
  | nil => exact named_of_undispatched (obeys_pure undispatched_lenient.toSequential _)
  | cons a as ih =>
    obtain ⟨hfirst, hrest⟩ := List.pairwise_cons.mp hapart
    have htail := ih (fun b hb => hf b (List.mem_cons_of_mem _ hb)) hrest
    intro s t r s' h
    refine (named_bind (hf a List.mem_cons_self) (fun _ => htail) ?_ s t r s' h).mono ?_
    · rintro x hx ⟨b, hb, hx'⟩
      exact not_after_of_apart (hfirst b hb) hx hx'
    · rintro x (hx | ⟨b, hb, hx⟩)
      · exact ⟨a, List.mem_cons_self, hx⟩
      · exact ⟨b, List.mem_cons_of_mem _ hb, hx⟩

end Act

namespace Loop

variable {r : Runner} (hregistry : r.registry = Catalogue.registry) (ctx : LoopContext)

include hregistry

/-- What an action of a step dispatches is called after it. -/
theorem named_runAction {step : Step} {action : ActionItem}
    (h : Nameless action.actionType action.config) :
    (runAction r ctx step action).Obeys (Named (After ctx.loopIndex action.id)) := by
  have hL := undispatched_lenient
  refine Act.named_after (Act.obeys_checkpoint hL.go fun _ => rfl)
    fun _ s t result s' hends => ?_
  obtain ⟨t₁, x, s₁, t₂, rfl, h₁, h₂⟩ := ends_outcome_bind_iff.mp hends
  rw [hregistry] at h₁
  have hdispatched := Catalogue.naming_dispatch ctx h rfl h₁
  have hfail (e : Failure) : (Act.fail e : Act Unit).Obeys Undispatched := Act.obeys_fail rfl
  suffices hrest : names t₂ = [] from
    hdispatched.of_eq (by rw [names_append, hrest, List.append_nil])
  rcases x with (e | f | _) | _
  · refine Act.Obeys.bind hL.toSequential (Act.obeys_log hL.toLiberal _) (fun _ => ?_) _ _ _ _ h₂
    dsimp only
    split
    · exact .bind hL.toSequential (obeys_capture hL ctx _) fun _ => hfail _
    · exact hfail _
  · exact hfail _ _ _ _ _ h₂
  · exact hfail _ _ _ _ _ h₂
  · exact Act.obeys_pure hL.toSequential _ _ _ _ _ h₂

/-- What a step dispatches is called after it. -/
theorem named_runStep {step : Step} (h : step.WellNamed) :
    (runStep r ctx step).Obeys (Named (After ctx.loopIndex step.id)) := by
  have hL := undispatched_lenient
  have hactions : (step.orderedActions.forM (runAction r ctx step)).Obeys
      (Named (After ctx.loopIndex step.id)) := by
    intro s t result s' hends
    refine (Act.named_forM (fun action haction => named_runAction hregistry ctx
      (h.nameless action (mem_byRank.mp haction))) (pairwise_apart_byRank.mpr h.apart)
      s t result s' hends).mono ?_
    rintro x ⟨action, haction, hx⟩
    exact hx.of_extends (h.called action (mem_byRank.mp haction))
  refine Act.named_after (Act.obeys_checkpoint hL.go fun _ => rfl) fun _ =>
    Act.named_after (obeys_isSkipped hL.toSequential (fun hc => hL.call hc.1) hL.fail ctx step)
      fun skip => ?_
  cases skip with
  | true => exact Act.named_of_undispatched (Act.obeys_pure hL.toSequential _)
  | false =>
    refine Act.named_after (fun s t result s' hends => ?_) fun _ => hactions
    obtain ⟨now, e, taken, rfl, -⟩ := ends_announce hends
    rfl

omit hregistry in
/-- To open a session and to close it dispatches nothing. -/
theorem named_inSession {R : Int × String → Prop} {m : Act Unit} (hm : m.Obeys (Named R))
    (i : Nat) : (inSession r i m).Obeys (Named R) := by
  refine Act.obeys_ite hm (Act.named_after (Act.obeys_ask fun _ => rfl) fun reply => ?_)
  cases reply with
  | error f => exact Act.named_of_undispatched (Act.obeys_fail rfl)
  | ok =>
    intro s t result s' h
    obtain ⟨t₁, x, s₁, t₂, rfl, h₁, h₂⟩ := ends_outcome_bind_iff.mp h
    obtain ⟨_, t₃, rfl, h₃⟩ := Act.ends_ask_bind_iff.mp h₂
    obtain ⟨rfl, -, -⟩ := Act.ends_ofExcept_iff.mp h₃
    exact (hm _ _ _ _ h₁).of_eq (by rw [names_append]; exact List.append_nil _)

variable {automation : Automation} {config : AutomationConfig} {runId : String} {i : Nat}
  {t : List Deed} {result : Except Failure Unit}

/-- What a loop index dispatches has its number, and nothing occurs twice. -/
theorem naming_run (h : automation.WellNamed)
    (hends : (run r automation config runId i).Ends t result) : Naming (fun x => x.1 = i) t := by
  have hL := undispatched_lenient
  obtain ⟨now, t₁, rfl, h₁⟩ := Program.ends_ask_bind_iff.mp hends
  obtain ⟨t₂, ⟨result', s⟩, t₃, rfl, h₂, h₃⟩ := Program.ends_bind_iff.mp h₁
  obtain ⟨rfl, rfl⟩ := Program.ends_pure_iff.mp h₃
  have hsteps : (runSteps r (contextOf r automation config runId i now)
      automation.orderedSteps).Obeys (Named fun x => x.1 = i) := by
    refine Act.named_before (fun s t result s' hends => ?_) fun _ =>
      Act.obeys_ite (obeys_capture hL _ _) (Act.obeys_pure hL.toSequential _)
    refine (Act.named_forM (fun step hstep => named_runStep hregistry _
      (h.steps step (mem_byRank.mp hstep))) (pairwise_apart_byRank.mpr h.apart)
      s t result s' hends).mono ?_
    rintro x ⟨_, _, hx⟩
    exact hx.1
  exact (named_inSession hsteps i _ _ _ _ h₂).of_eq (by rw [List.append_nil]; rfl)

end Loop

/-! ### A whole run -/

namespace Whole

theorem names_of_aside {t : List Deed} (h : Aside t) : names t = [] :=
  names_eq_nil fun _ _ _ hd => h _ hd

theorem names_loopFailed (runId : String) (i : Nat) (result : Except Failure Unit) :
    names (loopFailed runId i result) = [] := by
  rcases result with (e | f | _) | _ <;> rfl

section Sequence

variable {loop : Nat → Program (Except Failure Unit)} {runId : String}
  (hloop : ∀ i t result, (loop i).Ends t result → Naming (fun x => x.1 = (i : Nat)) t)

include hloop

theorem naming_alongside {i : Nat} {t : List Deed} {o : Option Failure}
    (h : (alongside loop runId i).Ends t o) : Naming (fun x => x.1 = i) t := by
  obtain ⟨t', result, rfl, hends, -⟩ := ends_alongside_iff.mp h
  exact (hloop i t' result hends).of_eq
    (by rw [names_append, names_loopFailed, List.append_nil])

/-- One after another, loop indices have different numbers. -/
theorem naming_sequentially {delayMs remaining i : Nat} {t : List Deed}
    {result : Except Failure (Option RunError)}
    (h : (sequentially loop runId delayMs i remaining).Ends t result) :
    Naming (fun x => ∃ j : Nat, i ≤ j ∧ x.1 = j) t := by
  -- What follows the first loop index may dispatch nothing.
  have hlast {i : Nat} {t₁ t₂ : List Deed} {x : Except Failure Unit} (h₁ : (loop i).Ends t₁ x)
      (hnone : names t₂ = []) : Naming (fun x => ∃ j : Nat, i ≤ j ∧ x.1 = j) (t₁ ++ t₂) :=
    ((hloop i t₁ x h₁).mono fun x hx => ⟨i, Nat.le_refl i, hx⟩).of_eq
      (by rw [names_append, hnone, List.append_nil])
  have hfailed {i : Nat} {e : RunError} {t : List Deed} (h : (do
      logLoopFailed runId i e
      return .ok (some e) : Program (Except Failure (Option RunError))).Ends t result) :
      names t = [] := by
    obtain ⟨_, t', rfl, h'⟩ := Program.ends_ask_bind_iff.mp h
    obtain ⟨rfl, -⟩ := Program.ends_pure_iff.mp h'
    rfl
  have hover {x : Except Failure (Option RunError)} {t : List Deed}
      (h : (pure x : Program (Except Failure (Option RunError))).Ends t result) :
      names t = [] := by
    obtain ⟨rfl, -⟩ := Program.ends_pure_iff.mp h
    rfl
  induction remaining generalizing i t with
  | zero =>
    rw [sequentially] at h
    obtain ⟨t₁, x, t₂, rfl, h₁, h₂⟩ := Program.ends_bind_iff.mp h
    refine hlast h₁ ?_
    rcases x with (e | f | _) | _
    · exact hfailed h₂
    all_goals exact hover h₂
  | succ remaining ih =>
    rw [sequentially] at h
    obtain ⟨t₁, x, t₂, rfl, h₁, h₂⟩ := Program.ends_bind_iff.mp h
    rcases x with (e | f | _) | _
    · exact hlast h₁ (hfailed h₂)
    · exact hlast h₁ (hover h₂)
    · exact hlast h₁ (hover h₂)
    · obtain ⟨t₃, y, t₄, rfl, h₃, h₄⟩ := Program.ends_bind_iff.mp h₂
      have hdelay : names t₃ = [] := lawful_delay undispatched_lenient h₃
      cases y with
      | error e => exact hlast h₁ (by rw [names_append, hdelay, hover h₄]; rfl)
      | ok =>
        refine (((hloop i t₁ _ h₁).append (ih h₄) ?_).mono ?_).of_eq ?_
        · rintro x hx ⟨j, hj, hx'⟩
          omega
        · rintro x (hx | ⟨j, hj, hx⟩)
          · exact ⟨i, Nat.le_refl i, hx⟩
          · exact ⟨j, by omega, hx⟩
        · rw [names_append, names_append, hdelay, List.nil_append, names_append]

end Sequence

section Run

variable {r : Runner} (hregistry : r.registry = Catalogue.registry) {automation : Automation}
  (hnamed : automation.WellNamed) {record : RunRecord}

include hregistry hnamed

/-- What the task of a loop index dispatches has its number. -/
theorem naming_loopProgram {runId : String} {i : Nat} {t : List Deed} {o : Option Failure}
    (h : (loopProgram r automation runId i).Ends t o) : Naming (fun x => x.1 = i) t := by
  unfold loopProgram at h
  split at h
  · exact naming_alongside (fun _ _ _ => Loop.naming_run hregistry hnamed) h
  · obtain ⟨rfl, -⟩ := Program.ends_pure_iff.mp h
    exact .of_nil rfl

/-- The main task dispatches nothing unless it runs the loop indices itself, and then it waits for
none. -/
theorem naming_main {t : List Deed} {e : Ended} (h : (run r automation record).Ends t e) :
    Naming (fun _ => True) t ∧ (names t = [] ∨ t.countP Deed.joins = 0) := by
  have hnone {t : List Deed} (ht : names t = []) :
      Naming (fun _ => True) t ∧ (names t = [] ∨ t.countP Deed.joins = 0) :=
    ⟨.of_nil ht, .inl ht⟩
  have hregistered : r.registry.Proper := hregistry ▸ Catalogue.registry_proper
  rcases ends_run h with ⟨now, reply, rfl, -⟩ |
    ⟨now, before, t₁, t₂, channels, result, rfl, hbegins, hcame, hconclude⟩
  · exact hnone rfl
  have hbefore := names_of_aside hbegins.aside
  have hafter := names_of_aside (aside_of_conclude hconclude)
  cases hcame with
  | faulty _ _ ht => exact hnone (by simp [hbefore, hafter, names_of_aside (Aside.of_logs ht)])
  | gone _ hloops =>
    obtain ⟨ms, reason, t', rfl, hwent⟩ := ends_loops hloops
    have hmiddle : names (before ++ (.call (.armTimeout ms reason) () ::
        (t' ++ [.call .disarmTimeout ()]) ++ t₂)) = names t' := by
      rw [names_append, hbefore, List.nil_append, names_append, hafter, List.append_nil]
      exact (names_append _ _).trans (List.append_nil _)
    cases hwent with
    | sequential _ hends =>
      have hdone := naming_sequentially (fun _ _ _ => Loop.naming_run hregistry hnamed) hends
      refine ⟨(hdone.mono fun _ _ => trivial).of_eq hmiddle, .inr ?_⟩
      have hjoins := (lawful_sequential (indexed_broad.steers hregistered automation) hends).joins
      simp [List.countP_append, hbegins.aside.joins, (aside_of_conclude hconclude).joins, hjoins,
        Deed.joins]
    | interrupted => exact hnone hmiddle
    | parallel => exact hnone hmiddle

end Run

/-! ### Histories -/

theorem mem_names_iff {t : List Deed} {x : Int × String} : x ∈ names t ↔
    ∃ frame config, .call (.dispatched x.1 frame config) () ∈ t ∧ frame.actionId = x.2 := by
  rw [names, List.mem_filterMap]
  constructor
  · rintro ⟨d, hd, heq⟩
    rcases d with ⟨c, reply⟩ | _ | _
    · cases c <;> cases heq
      exact ⟨_, _, hd, rfl⟩
    all_goals cases heq
  · rintro ⟨frame, config, hd, heq⟩
    exact ⟨_, hd, congrArg (some ∘ Prod.mk x.1) heq⟩

/-- When the names of each task are different, and different from those of the others, all are. -/
theorem nodup_names_allDeeds {h : List Happening}
    (hown : ∀ who, (names (deedsOf who h)).Nodup)
    (hothers : ∀ {who who' x}, x ∈ names (deedsOf who h) → x ∈ names (deedsOf who' h) →
      who = who') : (names (allDeeds h)).Nodup := by
  induction h with
  | nil => exact List.nodup_nil
  | cons happening h ih =>
    have hsub (who : Option Nat) :
        names (deedsOf who (happening :: h)) = names (deedsOf who [happening]) ++
          names (deedsOf who h) := by
      rw [← names_append, ← deedsOf_append, List.singleton_append]
    have hall := ih (fun who => by
      have hboth := hown who
      rw [hsub] at hboth
      exact (List.nodup_append.mp hboth).2.1) fun hx hx' => hothers
        (by rw [hsub]; exact List.mem_append_right _ hx)
        (by rw [hsub]; exact List.mem_append_right _ hx')
    cases happening with
    | deed who d =>
      change (names ([d] ++ allDeeds h)).Nodup
      have hfirst : deedsOf who [.deed who d] = [d] := by simp [deedsOf]
      have hmine := hown who
      rw [hsub, hfirst] at hmine
      rw [names_append, List.nodup_append]
      refine ⟨(List.nodup_append.mp hmine).1, hall, ?_⟩
      rintro x hx _ hx' rfl
      obtain ⟨frame, config, hd, hframe⟩ := mem_names_iff.mp hx'
      obtain ⟨who', hd⟩ := mem_allDeeds_iff.mp hd
      have hlater : x ∈ names (deedsOf who' h) := mem_names_iff.mpr ⟨frame, config, hd, hframe⟩
      obtain rfl := hothers (by rw [hsub, hfirst]; exact List.mem_append_left _ hx)
        (by rw [hsub]; exact List.mem_append_right _ hlater)
      exact (List.nodup_append.mp hmine).2.2 x hx x hlater rfl
    | _ => exact hall

/-- The identifiers under which actions are dispatched in a loop index, in a history. -/
def identifiers (i : Int) (h : List Happening) : List String :=
  ((names (allDeeds h)).filter fun x => x.1 = i).map Prod.snd

theorem nodup_identifiers {h : List Happening} (hnodup : (names (allDeeds h)).Nodup) (i : Int) :
    (identifiers i h).Nodup := by
  refine List.pairwise_map.mpr ((hnodup.filter _).imp_of_mem fun hx hy hne heq => ?_)
  have hx := (List.mem_filter.mp hx).2
  have hy := (List.mem_filter.mp hy).2
  simp only [decide_eq_true_eq] at hx hy
  exact hne (Prod.ext (hx.trans hy.symm) heq)

section Schedules

variable {σ : Type} {env : Collaborators σ} {r : Runner} {automation : Automation}
  {record : RunRecord} {shared : Shared σ} {h : List Happening} {s : State σ Ended}

/-- In every schedule, no two dispatches have the same name. -/
theorem Scheduled.nodup_names (hregistry : r.registry = Catalogue.registry)
    (hnamed : automation.WellNamed) (hs : Scheduled env r automation record shared h s) :
    (names (allDeeds h)).Nodup := by
  have hregistered : r.registry.Proper := hregistry ▸ Catalogue.registry_proper
  have hmain : Naming (fun _ => True) (deedsOf none h) ∧
      (names (deedsOf none h) = [] ∨ (deedsOf none h).countP Deed.joins = 0) := by
    obtain ⟨t, e, hends⟩ := hs.exists_ends_main
    obtain ⟨hnaming, hor⟩ := naming_main hregistry hnamed hends
    rw [names_append, List.append_eq_nil_iff, List.countP_append, Nat.add_eq_zero_iff] at hor
    exact ⟨hnaming.left, hor.imp And.left And.left⟩
  have hloop (i : Nat) : Naming (fun x => x.1 = i) (deedsOf (some i) h) := by
    obtain ⟨t, o, hends⟩ := hs.exists_ends_loop hregistered i
    exact (naming_loopProgram hregistry hnamed hends).left
  -- Where loop indices have tasks of their own, the main task waits for them.
  have hapart {i : Nat} {x : Int × String} (hx : x ∈ names (deedsOf none h)) :
      x ∉ names (deedsOf (some i) h) := by
    have hnever (hjoined : (deedsOf none h).countP Deed.joins ≠ 0) : False := by
      rw [hmain.2.resolve_right hjoined] at hx
      cases hx
    cases State.Reaches.joining (joinsOnce_run hregistered automation record) hs rfl rfl with
    | before _ _ hsilent =>
      rw [hsilent]
      exact List.not_mem_nil
    | during t n ht => exact (hnever (by simp [ht, Deed.joins])).elim
    | after t n t' ht => exact (hnever (by simp [ht, Deed.joins])).elim
  refine nodup_names_allDeeds (fun who => ?_) fun {who who' x} hx hx' => ?_
  · cases who with
    | none => exact hmain.1.nodup
    | some i => exact (hloop i).nodup
  · cases who with
    | none =>
      cases who' with
      | none => rfl
      | some j => exact absurd hx' (hapart hx)
    | some i =>
      cases who' with
      | none => exact absurd hx (hapart hx')
      | some j =>
        have hsame := ((hloop i).within x hx).symm.trans ((hloop j).within x hx')
        exact congrArg some (Int.ofNat.inj hsame)

end Schedules

/-- **Default identifiers.** When no step, action or nested action in a definition has an
identifier, then in no loop index of any run of it are two actions dispatched under the same
identifier, whether they stand in a step or in the configuration of another action, at whatever
depth, in whatever branch and in whatever iteration, and whatever the world replies. -/
theorem default_identifiers_nodup {σ : Type} (env : Collaborators σ) (runner : Runner)
    {source : Option String} {x : Json} {automation : Automation}
    (hread : Definition.read source x = .ok automation) (hunnamed : Definition.Unnamed x)
    (record : RunRecord) (shared : Shared σ) {h : List Happening} {s : State σ Ended}
    (hs : Scheduled env { runner with registry := Catalogue.registry } automation record shared h s)
    (i : Int) : (identifiers i h).Nodup :=
  nodup_identifiers (hs.nodup_names rfl (Definition.wellNamed_of_read hread hunnamed)) i

/-! ### A rehearsal -/

/-- The configuration of a branching action that holds one that writes to the log. -/
def branching : Fields := [
  ("selector", .text "h1"), ("condition_type", .text "is_visible"),
  ("else_actions", .list [.object [
    ("action_type", .text "playwright:log"),
    ("action_config", .object [("message", .text "again")])]])]

/-- The configuration of a loop that holds a branching action. -/
def loopingBranches : Fields := [
  ("max_loops", .int 2),
  ("loop_actions", .list [.object [
    ("action_type", .text "playwright:if_else"), ("action_config", .object branching)]])]

/-- A definition with a branch in a loop. -/
def branchInLoop : Json := .object [
  ("automation", .object [("name", .text "Auto")]),
  ("steps", .list [.object [
    ("name", .text "Step 1"),
    ("actions", .list [.object [
      ("action_type", .text "playwright:loop_until"),
      ("action_config", .object loopingBranches)]])]])]

theorem nameless_branching : Nameless "playwright:if_else" branching := by
  have hentry {entry : Fields} (h : Action.HasEntry "playwright:if_else" branching entry) :
      entry = [("action_type", .text "playwright:log"),
        ("action_config", .object [("message", .text "again")])] := by
    cases h with
    | branch _ hkey h =>
      simp only [List.mem_cons, List.not_mem_nil, or_false] at hkey
      rcases hkey with rfl | rfl | rfl
      · cases h
      · exact Json.object.inj (List.mem_singleton.mp h)
      · cases h
    | alternative _ halternative _ => cases halternative
    | iteration htype _ => exact absurd htype (by decide)
  refine .intro (fun entry h => ?_) fun entry nested h _ => ?_
  · rw [hentry h]
    rfl
  · rw [hentry h]
    exact nameless_of_ne (by decide) (by decide) nested

theorem nameless_loopingBranches : Nameless "playwright:loop_until" loopingBranches := by
  have hentry {entry : Fields} (h : Action.HasEntry "playwright:loop_until" loopingBranches entry) :
      entry = [("action_type", .text "playwright:if_else"),
        ("action_config", .object branching)] := by
    cases h with
    | branch htype _ _ => exact absurd htype (by decide)
    | alternative htype _ _ => exact absurd htype (by decide)
    | iteration _ h => exact Json.object.inj (List.mem_singleton.mp h)
  refine .intro (fun entry h => ?_) fun entry nested h hnested => ?_
  · rw [hentry h]
    rfl
  · rw [hentry h] at hnested ⊢
    obtain rfl : branching = nested := Option.some.inj hnested
    exact nameless_branching

theorem unnamed_branchInLoop : Definition.Unnamed branchInLoop := by
  intro step hstep
  obtain rfl := List.mem_singleton.mp hstep
  refine ⟨rfl, fun action haction => ?_⟩
  obtain rfl := List.mem_singleton.mp haction
  refine ⟨rfl, fun hconfig => ?_⟩
  cases hconfig
  exact nameless_loopingBranches

/-- What happens in a rehearsal until a loop has paused twice. -/
def pausedTwice (automation : Automation) : List Happening × State World Ended :=
  State.carryOut World.collaborators (loopProgram sampleRunner automation sampleRecord.id)
    [.main, .alarm .wakeMain, .main]
    (State.start (sampleShared 1704067200000) (run sampleRunner automation sampleRecord))

/-- With a branch in a loop, the actions of each iteration have identifiers of their own. -/
theorem branchInLoop_identifiers_nodup : ∃ automation h s,
    Definition.read none branchInLoop = .ok automation ∧ Definition.Unnamed branchInLoop ∧
    Scheduled World.collaborators sampleRunner automation sampleRecord (sampleShared 1704067200000)
      h s ∧
    identifiers 0 h = ["step-1-action-1", "step-1-action-1-loop-1-0",
      "step-1-action-1-loop-1-0-nested-else-0", "step-1-action-1-loop-2-0",
      "step-1-action-1-loop-2-0-nested-else-0"] ∧ (identifiers 0 h).Nodup := by
  have hrun : ((Definition.read none branchInLoop).toOption.map fun automation =>
      identifiers 0 (pausedTwice automation).1) =
        some ["step-1-action-1", "step-1-action-1-loop-1-0",
          "step-1-action-1-loop-1-0-nested-else-0", "step-1-action-1-loop-2-0",
          "step-1-action-1-loop-2-0-nested-else-0"] := by
    decide +kernel
  obtain ⟨automation, hsome, hidentifiers⟩ := Option.map_eq_some_iff.mp hrun
  have hread : Definition.read none branchInLoop = .ok automation := by
    cases hread : Definition.read none branchInLoop with
    | error e =>
      rw [hread] at hsome
      cases hsome
    | ok automation' =>
      rw [hread] at hsome
      exact congrArg Except.ok (Option.some.inj hsome)
  have hs : Scheduled World.collaborators sampleRunner automation sampleRecord
      (sampleShared 1704067200000) (pausedTwice automation).1 (pausedTwice automation).2 :=
    State.carryOut_reaches _ _ _ (by decide) _
  exact ⟨automation, _, _, hread, unnamed_branchInLoop, hs, hidentifiers,
    default_identifiers_nodup World.collaborators sampleRunner hread unnamed_branchInLoop
      sampleRecord (sampleShared 1704067200000) hs 0⟩

end Whole

end Runbook
