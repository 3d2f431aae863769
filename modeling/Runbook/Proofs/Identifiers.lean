import Runbook.Definition.Loader
import Runbook.Proofs.Levels

/-!
# Identifiers that are given by default

Where a definition names no identifiers, they are made from positions: an identifier is that of the
step or action around it with words after it, each behind a hyphen. A word has no hyphen in it. So
an identifier can be read word by word, and what follows one of two different words after the same
beginning never meets what follows the other, however long it goes on.

* `Identifier.words id`: the words of an identifier.
* `Identifier.Extends stem id`: the identifier begins with the words of another one.
* `Identifier.Apart a b`: no identifier begins with the words of both.
* `Nameless type config`: no entry in a configuration has an identifier, at any depth.
* `Definition.Unnamed x`: nothing in a definition has one.
* `Automation.WellNamed`: its steps are called differently, and so are the actions of each.
* `Definition.wellNamed_of_read`: so it is when a definition names nothing.
-/

namespace Runbook

namespace Identifier

/-! ### Words -/

/-- The words of an identifier, between its hyphens. -/
def words (id : String) : List (List Char) := id.toList.splitOn '-'

/-- An identifier begins with all the words of another one. -/
def Extends (stem id : String) : Prop := words stem <+: words id

/-- No identifier begins with the words of both. -/
def Apart (a b : String) : Prop := ∀ id, Extends a id → ¬ Extends b id

/-- A single word. -/
def IsWord (w : String) : Prop := '-' ∉ w.toList

instance (w : String) : Decidable (IsWord w) := inferInstanceAs (Decidable (_ ∉ _))

/-- An identifier with words after it. -/
def join (a b : String) : String := s!"{a}-{b}"

theorem join_word {a b w : String} (h : b = "-" ++ w) : a ++ b = join a w := by
  rw [h, ← String.append_assoc]
  rfl

theorem join_words {a b w c : String} (h : b = "-" ++ w ++ "-") :
    a ++ b ++ c = join (join a w) c := by
  rw [h, ← String.append_assoc, ← String.append_assoc]
  rfl

theorem isWord_repr (n : Nat) : IsWord n.repr := by
  intro h
  rw [Nat.toList_repr] at h
  have hdigit := Nat.isDigit_of_mem_toDigits (by decide) (by decide) h
  revert hdigit
  decide

theorem words_join (a b : String) : words (join a b) = words a ++ words b := by
  have hjoin : (join a b).toList = a.toList ++ '-' :: b.toList := by simp [join, toString]
  rw [words, hjoin, List.splitOn_append_cons_self, words, words]

theorem words_of_isWord {w : String} (hw : IsWord w) : words w = [w.toList] :=
  List.splitOn_eq_singleton hw

theorem extends_refl (id : String) : Extends id id := List.prefix_rfl

theorem Extends.trans {a b id : String} (h : Extends a b) (h' : Extends b id) : Extends a id :=
  List.IsPrefix.trans h h'

theorem extends_join (a b : String) : Extends a (join a b) := by
  rw [Extends, words_join]
  exact List.prefix_append ..

theorem extends_word {a b w : String} (h : b = "-" ++ w) : Extends (join a w) (a ++ b) :=
  join_word h ▸ extends_refl _

/-- What goes on after some words is not what they end with. -/
theorem not_extends_join (a b : String) : ¬ Extends (join a b) a := by
  intro h
  have hle := h.length_le
  have hpos : 0 < (words b).length := List.length_pos_iff.mpr (List.splitOn_ne_nil _ _)
  rw [words_join, List.length_append] at hle
  omega

theorem Apart.symm {a b : String} (h : Apart a b) : Apart b a := fun id hb ha => h id ha hb

/-- What is apart stays apart with more words after it. -/
theorem Apart.of_extends {a b a' b' : String} (h : Apart a b) (ha : Extends a a')
    (hb : Extends b b') : Apart a' b' :=
  fun id h₁ h₂ => h id (ha.trans h₁) (hb.trans h₂)

/-- Different words after the same beginning keep identifiers apart. -/
theorem apart_join {a v w : String} (hv : IsWord v) (hw : IsWord w) (hne : v ≠ w) :
    Apart (join a v) (join a w) := by
  intro id h h'
  rw [Extends, words_join, words_of_isWord hv] at h
  rw [Extends, words_join, words_of_isWord hw] at h'
  obtain ⟨t, ht⟩ := h
  obtain ⟨t', ht'⟩ := h'
  rw [← ht', List.append_assoc, List.append_assoc, List.append_cancel_left_eq] at ht
  exact hne (String.toList_inj.mp (List.cons.inj ht).1)

/-- Different numbers after the same beginning keep identifiers apart. -/
theorem apart_number (a : String) {i j : Nat} (hij : i ≠ j) : Apart s!"{a}-{i}" s!"{a}-{j}" := by
  refine apart_join (isWord_repr i) (isWord_repr j) fun h => hij ?_
  have hread := congrArg (fun s : String => Nat.ofDigitChars 10 s.toList 0) h
  simpa using hread

theorem extends_number (a : String) (i : Nat) : Extends a s!"{a}-{i}" := extends_join a i.repr

end Identifier

open Identifier

/-! ### Nested entries without identifiers -/

/-- An object in one of the lists of actions that are written in the configuration of an action of
a type. -/
inductive Action.HasEntry (type : String) (config entry : Fields) : Prop
  | branch {key : String} (htype : type = "playwright:if_else")
      (hkey : key ∈ ["if_actions", "else_actions", "final_actions"])
      (h : .object entry ∈ Fields.listAt config key)
  | alternative {alternative : Fields} (htype : type = "playwright:if_else")
      (halternative : .object alternative ∈ Fields.listAt config "else_if_conditions")
      (h : .object entry ∈ Fields.listAt alternative "actions")
  | iteration (htype : type = "playwright:loop_until")
      (h : .object entry ∈ Fields.listAt config "loop_actions")

/-- No entry in the configuration of an action of a type has an identifier, nor has one in the
configuration of an entry, and so on. -/
inductive Nameless : String → Fields → Prop
  | intro {type : String} {config : Fields}
      (hid : ∀ entry, Action.HasEntry type config entry → Fields.textAt entry "id" = "")
      (hnested : ∀ entry nested, Action.HasEntry type config entry →
        NestedAction.configOf? ((Fields.get? entry "action_config").getD .null) = some nested →
        Nameless (Fields.textAt entry "action_type") nested) : Nameless type config

/-- Only control actions have lists of actions. -/
theorem nameless_of_ne {type : String} (hbranch : type ≠ "playwright:if_else")
    (hloop : type ≠ "playwright:loop_until") (config : Fields) : Nameless type config := by
  have hnone (entry : Fields) : ¬ Action.HasEntry type config entry
    | .branch htype _ _ => hbranch htype
    | .alternative htype _ _ => hbranch htype
    | .iteration htype _ => hloop htype
  exact .intro (fun entry h => absurd h (hnone entry)) fun entry _ h => absurd h (hnone entry)

theorem NestedAction.textOr_get? (fields : Fields) (key default : String) :
    textOr (Fields.get? fields key) default =
      if (Fields.textAt fields key).isEmpty then default else Fields.textAt fields key := by
  unfold textOr Fields.textAt
  cases Fields.get? fields key with
  | none => rfl
  | some x => cases x <;> rfl

/-- Where there is no identifier, the action of an entry has the one that it is given. -/
theorem NestedAction.of_unnamed {entry : Fields} {id : String} {a : NestedAction}
    (ha : ofEntry? (.object entry) id = some a) (hid : Fields.textAt entry "id" = "") :
    a.id = id ∧ a.actionType = Fields.textAt entry "action_type" ∧
      configOf? ((Fields.get? entry "action_config").getD .null) = some a.config := by
  have htype : textOr (Fields.get? entry "action_type") "" = Fields.textAt entry "action_type" := by
    rw [textOr_get?]
    split
    · rename_i hempty
      exact (String.isEmpty_iff.mp hempty).symm
    · rfl
  unfold ofEntry? at ha
  dsimp only at ha
  rw [htype] at ha
  split at ha
  · cases ha
  · obtain ⟨config, hconfig, rfl⟩ := Option.map_eq_some_iff.mp ha
    refine ⟨?_, rfl, hconfig⟩
    rw [textOr_get?, hid]
    rfl

/-- The objects among the entries of what stands under a key are those of a list. -/
theorem Action.mem_listAt_of_entries {config entry : Fields} {key : String} {es : List Json}
    (hes : Action.entries (Browser.param config key) = .ok es) (hentry : .object entry ∈ es) :
    .object entry ∈ Fields.listAt config key := by
  unfold Browser.param at hes
  unfold Fields.listAt
  cases hget : Fields.get? config key with
  | none =>
    rw [hget] at hes
    cases hes
    cases hentry
  | some items =>
    rw [hget, Option.getD_some] at hes
    unfold Action.entries at hes
    split at hes
    · split at hes <;> cases hes
      · exact hentry
      · simp at hentry
      · simp at hentry
      · cases hentry
    · cases hes
      cases hentry

/-! ### Lists as they are checked -/

variable {R : String → String → Prop} {config fields params entry : Fields} {frame : Frame}
  {items : Json} {stem : String} {es : List Json}

/-- An object in a list of a branching action, when its configuration has been resolved and checked,
stands in a list of its configuration as it was. -/
theorem IfElse.hasEntry_of_hasEntry (hresolved : Template.RewrittenFields R
      (kind.deferred.map Template.Deferral.ofText) config fields)
    (hvalid : kind.validate (.object fields) = .ok params)
    (h : Action.HasEntry "playwright:if_else" params entry) :
    Action.HasEntry "playwright:if_else" config entry := by
  have hsame {key : String} (hlist : kind.HasList key)
      (hkey : .key key ∈ kind.deferred.map Template.Deferral.ofText)
      (h : .object entry ∈ Fields.listAt params key) :
      .object entry ∈ Fields.listAt config key := by
    obtain ⟨i, hi⟩ := List.mem_iff_getElem?.mp h
    obtain ⟨items, hitems, hindex⟩ := hlist.getElem?_listAt hvalid hi
    rw [hresolved.get?_of_deferred hkey] at hitems
    rw [Fields.listAt, hitems]
    exact List.mem_of_getElem? hindex
  cases h with
  | branch _ hkey h =>
    simp only [List.mem_cons, List.not_mem_nil, or_false] at hkey
    rcases hkey with rfl | rfl | rfl
    · exact .branch rfl (by decide) (hsame hasList_if (by decide) h)
    · exact .branch rfl (by decide) (hsame hasList_else (by decide) h)
    · exact .branch rfl (by decide) (hsame hasList_final (by decide) h)
  | alternative _ halternative h =>
    obtain ⟨i, hi⟩ := List.mem_iff_getElem?.mp halternative
    obtain ⟨fs, hfs, hsame⟩ := exists_alternative hresolved hvalid hi
    rw [Fields.listAt, hsame] at h
    exact .alternative rfl (List.mem_of_getElem? hfs) h
  | iteration htype => exact absurd htype (by decide)

theorem LoopUntil.hasEntry_of_mem (hresolved : Template.RewrittenFields R
      (kind.deferred.map Template.Deferral.ofText) config fields)
    (hvalid : kind.validate (.object fields) = .ok params)
    (h : .object entry ∈ Fields.listAt params "loop_actions") :
    Action.HasEntry "playwright:loop_until" config entry := by
  obtain ⟨i, hi⟩ := List.mem_iff_getElem?.mp h
  obtain ⟨items, hitems, hindex⟩ := hasList.getElem?_listAt hvalid hi
  rw [hresolved.get?_of_deferred (by decide)] at hitems
  refine .iteration rfl ?_
  rw [Fields.listAt, hitems]
  exact List.mem_of_getElem? hindex

/-! ### Definitions -/

/-- The actions of a step are called differently, after the step, and hold nothing that has an
identifier. -/
structure Step.WellNamed (step : Step) : Prop where
  apart : step.actions.Pairwise fun a b => Apart a.id b.id
  called : ∀ a ∈ step.actions, Extends step.id a.id
  nameless : ∀ a ∈ step.actions, Nameless a.actionType a.config

/-- The steps of an automation are called differently, and so are the actions of each. -/
structure Automation.WellNamed (automation : Automation) : Prop where
  apart : automation.steps.Pairwise fun a b => Apart a.id b.id
  steps : ∀ step ∈ automation.steps, step.WellNamed

theorem mem_byRank {α : Type} {order : α → Json} {items : List α} {a : α} :
    a ∈ byRank order items ↔ a ∈ items := (List.mergeSort_perm ..).mem_iff

theorem pairwise_apart_byRank {α : Type} {order : α → Json} {items : List α} {id : α → String} :
    ((byRank order items).Pairwise fun a b => Apart (id a) (id b)) ↔
      items.Pairwise fun a b => Apart (id a) (id b) :=
  (List.mergeSort_perm ..).pairwise_iff Apart.symm

namespace Definition

/-- Neither an action in a definition has an identifier nor any entry that it holds. -/
structure UnnamedAction (fields : Fields) : Prop where
  id : Fields.textAt fields "id" = ""
  nameless {source : Option String} {config : Fields} :
    actionConfig source (Fields.get? fields "action_config") = .ok config →
    Nameless (Fields.textAt fields "action_type") config

/-- Neither a step in a definition has an identifier nor any of its actions. -/
structure UnnamedStep (fields : Fields) : Prop where
  id : Fields.textAt fields "id" = ""
  actions : ∀ action ∈ Fields.listAt fields "actions", UnnamedAction action.fields

/-- No step, action or nested action in a definition has an identifier. -/
def Unnamed (x : Json) : Prop :=
  ∀ step ∈ Fields.listAt x.fields "steps", UnnamedStep step.fields

theorem join_action (stepId : String) (j : Nat) :
    s!"{stepId}-action-{j}" = join (join stepId "action") j.repr := join_words rfl

theorem textOr_of_empty {fields : Fields} {key : String} (h : Fields.textAt fields key = "")
    (default : String) : textOr fields key default = default := by
  simp [textOr, h]

variable {source : Option String} {position : Nat} {xs : List Json}

/-- The actions of a step are called after it and their positions. -/
theorem wellNamed_of_actions {stepId : String} {as : List ActionItem}
    (h : actions source stepId position xs = .ok as) (hxs : ∀ x ∈ xs, UnnamedAction x.fields) :
    (as.Pairwise fun a b => Apart a.id b.id) ∧
      ∀ a ∈ as, (∃ j, position ≤ j ∧ a.id = s!"{stepId}-action-{j}") ∧
        Nameless a.actionType a.config := by
  induction xs generalizing position as with
  | nil =>
    cases h
    exact ⟨.nil, List.forall_mem_nil _⟩
  | cons x xs ih =>
    obtain ⟨first, hfirst, h⟩ := Json.exists_of_bind_eq_ok h
    obtain ⟨rest, hrest, h⟩ := Json.exists_of_bind_eq_ok h
    obtain ⟨config, hconfig, hfirst⟩ := Json.exists_of_bind_eq_ok hfirst
    cases h
    cases hfirst
    have hx := hxs x List.mem_cons_self
    obtain ⟨hapart, hall⟩ := ih hrest fun y hy => hxs y (List.mem_cons_of_mem _ hy)
    refine ⟨.cons (fun a ha => ?_) hapart, List.forall_mem_cons.mpr ⟨⟨⟨position, Nat.le_refl _, ?_⟩,
      hx.nameless hconfig⟩, fun a ha => ?_⟩⟩
    · obtain ⟨⟨j, hj, hid⟩, -⟩ := hall a ha
      rw [textOr_of_empty hx.id, hid, join_action, join_action]
      exact apart_number _ (by omega)
    · exact textOr_of_empty hx.id _
    · obtain ⟨⟨j, hj, hid⟩, hnameless⟩ := hall a ha
      exact ⟨⟨j, by omega, hid⟩, hnameless⟩

/-- The steps of an automation are called after their positions. -/
theorem wellNamed_of_steps {steps : List Step} (h : Definition.steps source position xs = .ok steps)
    (hxs : ∀ x ∈ xs, UnnamedStep x.fields) :
    (steps.Pairwise fun a b => Apart a.id b.id) ∧
      ∀ step ∈ steps, (∃ i, position ≤ i ∧ step.id = s!"step-{i}") ∧ step.WellNamed := by
  induction xs generalizing position steps with
  | nil =>
    cases h
    exact ⟨.nil, List.forall_mem_nil _⟩
  | cons x xs ih =>
    obtain ⟨first, hfirst, h⟩ := Json.exists_of_bind_eq_ok h
    obtain ⟨rest, hrest, h⟩ := Json.exists_of_bind_eq_ok h
    obtain ⟨as, has, hfirst⟩ := Json.exists_of_bind_eq_ok hfirst
    cases h
    cases hfirst
    have hx := hxs x List.mem_cons_self
    obtain ⟨hapart, hall⟩ := ih hrest fun y hy => hxs y (List.mem_cons_of_mem _ hy)
    obtain ⟨hdistinct, hactions⟩ := wellNamed_of_actions has hx.actions
    refine ⟨.cons (fun step hstep => ?_) hapart, List.forall_mem_cons.mpr
      ⟨⟨⟨position, Nat.le_refl _, textOr_of_empty hx.id _⟩, hdistinct, fun a ha => ?_,
        fun a ha => (hactions a ha).2⟩, fun step hstep => ?_⟩⟩
    · obtain ⟨⟨j, hj, hid⟩, -⟩ := hall step hstep
      rw [textOr_of_empty hx.id, hid]
      exact apart_number "step" (by omega)
    · obtain ⟨⟨j, -, hid⟩, -⟩ := hactions a ha
      rw [hid, join_action]
      exact (extends_join _ _).trans (extends_number _ _)
    · obtain ⟨⟨j, hj, hid⟩, hwell⟩ := hall step hstep
      exact ⟨⟨j, by omega, hid⟩, hwell⟩

/-- When a definition names nothing, everything in it is called differently. -/
theorem wellNamed_of_read {x : Json} {automation : Automation}
    (h : Definition.read source x = .ok automation) (hx : Unnamed x) : automation.WellNamed := by
  unfold Definition.read at h
  split at h
  · cases h
  · obtain ⟨config, -, h⟩ := Json.exists_of_bind_eq_ok h
    obtain ⟨steps, hsteps, h⟩ := Json.exists_of_bind_eq_ok h
    cases h
    obtain ⟨hapart, hall⟩ := wellNamed_of_steps hsteps hx
    exact ⟨hapart, fun step hstep => (hall step hstep).2⟩

end Definition

end Runbook
