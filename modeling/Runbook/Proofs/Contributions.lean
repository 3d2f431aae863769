import Runbook.Proofs.Branches

/-!
# Lists without their malformed entries

When a list of actions is run, a malformed entry is passed over. What it adds to a trace is a
warning, and in a loop the look at the request to stop that comes before each entry. Without these
spare parts the trace is one of the actions that the other entries name, dispatched one after
another. These keep the identifiers that they have in the list, where an action without an
identifier of its own is named by its position.

Only the look may make a difference, when it finds a request to stop. Then the list breaks off,
while the actions without the malformed entry would go on to the next look.

* `Sheds i frame t t'`: the trace `t'` is `t` without some spare parts.
* `Work.Matches i frame U m`: a part of the work has a trace without its spare parts, or it begins
  like the trace, which then breaks off in the ways of `U`.
* `Work.Reduces i frame U m m'`: whatever `m` does is matched by `m'`.
* `Action.Malformed`: the entries of a list that are passed over.
* `Action.contributions`: the actions of a list.
* `Action.reduces_runNested`: to run a list is matched by dispatching its actions.
-/

namespace Runbook

/-! ### Beginnings -/

/-- A program begins alike, whatever comes after it. -/
theorem Program.Leads.bind {α β : Type} {p q : Program α} {t : List Deed} (h : p.Leads t q)
    (k : α → Program β) : (p >>= k).Leads t (q >>= k) := by
  induction h with
  | refl => exact .refl _
  | call _ ih => exact .call ih
  | wait _ ih => exact .wait ih

theorem Program.leads_bind_of_ends {α β : Type} {p : Program α} {k : α → Program β} {a : α}
    {t t' : List Deed} {q : Program β} (h : p.Ends t a) (h' : (k a).Leads t' q) :
    (p >>= k).Leads (t ++ t') q :=
  (Program.Leads.bind h k).trans h'

/-- A part of a loop index can begin with these deeds. -/
def Act.Begins {α : Type} (m : Act α) (s : LoopState) (t : List Deed) : Prop :=
  ∃ q, (m.run.run s).Leads t q

/-- A part of the work can begin with these deeds. -/
def Work.Begins {α : Type} (m : Work α) (f : Fields) (s : LoopState) (t : List Deed) : Prop :=
  ∃ q, ((m.run.run f).run s).Leads t q

section Begins

variable {α β : Type} {f f₁ : Fields} {s s₁ : LoopState} {t t' : List Deed}

theorem Act.Begins.nil (m : Act α) (s : LoopState) : m.Begins s [] := ⟨_, .refl _⟩

theorem Act.begins_bind_of_ends {m : Act α} {g : α → Act β} {a : α} (h : m.Ends s t (.ok a) s₁)
    (h' : (g a).Begins s₁ t') : (m >>= g).Begins s (t ++ t') := by
  obtain ⟨q, hq⟩ := h'
  have hleads : ((m.run.run s) >>= fun x => (ExceptT.bindCont g x.1).run x.2).Leads (t ++ t') q :=
    Program.leads_bind_of_ends h hq
  exact ⟨q, hleads⟩

theorem Work.Begins.nil (m : Work α) (f : Fields) (s : LoopState) : m.Begins f s [] := ⟨_, .refl _⟩

theorem Work.Begins.bind {m : Work α} (h : m.Begins f s t) (g : α → Work β) :
    (m >>= g).Begins f s t := by
  obtain ⟨q, hq⟩ := h
  have hleads := Program.Leads.bind hq fun x => ((ExceptT.bindCont g x.1.1).run x.1.2).run x.2
  exact ⟨_, hleads⟩

theorem Work.begins_bind_of_ends {m : Work α} {g : α → Work β} {a : α}
    (h : m.Ends f s t (.ok a) f₁ s₁) (h' : (g a).Begins f₁ s₁ t') :
    (m >>= g).Begins f s (t ++ t') := by
  obtain ⟨q, hq⟩ := h'
  have hleads : (((m.run.run f).run s) >>= fun x =>
      ((ExceptT.bindCont g x.1.1).run x.1.2).run x.2).Leads (t ++ t') q :=
    Program.leads_bind_of_ends h hq
  exact ⟨q, hleads⟩

theorem Work.begins_lift {m : Act α} (h : m.Begins s t) : (Work.lift m).Begins f s t := by
  obtain ⟨q, hq⟩ := h
  exact ⟨_, Program.Leads.bind hq fun x => pure ((x.1, f), x.2)⟩

theorem Work.Begins.attempt {m : Work Unit} (h : m.Begins f s t) :
    (Work.attempt m).Begins f s t := by
  obtain ⟨q, hq⟩ := h
  exact ⟨_, Program.Leads.bind hq _⟩

end Begins

/-! ### Spare parts -/

/-- The page does not find that an element is in a state when it is not named by a text. -/
def Deed.Seemly : Deed → Prop
  | .call (.page _ c) reply => ∀ selector x, c.selector = some selector →
      (∀ name, selector ≠ .text name) → reply = .ok x → x.truthy = false
  | _ => True

/-- The actions that are dispatched in a trace, with their configurations. -/
def dispatches (t : List Deed) : List (Frame × Fields) :=
  t.filterMap fun
    | .call (.dispatched _ frame config) _ => some (frame, config)
    | _ => none

theorem dispatches_append (t t' : List Deed) :
    dispatches (t ++ t') = dispatches t ++ dispatches t' :=
  List.filterMap_append

theorem dispatches_cons (d : Deed) (t : List Deed) :
    dispatches (d :: t) = dispatches [d] ++ dispatches t :=
  dispatches_append [d] t

section Spare

variable (i : Int) (frame : Frame)

/-- What an entry that makes no sense adds to a trace. -/
inductive Spare : List Deed → Prop
  /-- The warning about a malformed entry, after the look that comes before every entry. -/
  | malformed (checkpoint : Option String) (index : Nat) :
      Spare (Action.looks checkpoint ++ [.call (.log (Action.malformed frame index)) ()])
  /-- The warning about an alternative that makes no sense. -/
  | senseless (index : Nat) : Spare [.call (.log (.warning "else_if_invalid"
      [("action_id", .text frame.actionId), ("index", .nat index)])) ()]
  /-- The question about an element that is not named by a text fails, and there is a warning. -/
  | refused (index : Nat) {selector : Json} {state : ElementState} {f : Fault}
      (h : ∀ name, selector ≠ .text name) :
      Spare [.call (.page i (IfElse.question selector state)) (.error f),
        .call (.log (.warning "else_if_condition_failed" [("action_id", .text frame.actionId),
          ("index", .nat index), ("error", .text f.text)])) ()]
  /-- The answer to such a question is no. -/
  | denied {selector : Json} {state : ElementState} {reply : Json}
      (h : ∀ name, selector ≠ .text name) (hno : reply.truthy = false) :
      Spare [.call (.page i (IfElse.question selector state)) (.ok reply)]

/-- The second trace is the first one without some spare parts. -/
inductive Sheds : List Deed → List Deed → Prop
  | nil : Sheds [] []
  | keep (d : Deed) {t t' : List Deed} (h : Sheds t t') : Sheds (d :: t) (d :: t')
  | drop {part t t' : List Deed} (hpart : Spare i frame part) (h : Sheds t t') :
      Sheds (part ++ t) t'

end Spare

variable {i : Int} {frame : Frame}

theorem Spare.dispatches_eq_nil {part : List Deed} (h : Spare i frame part) :
    dispatches part = [] := by
  cases h with
  | malformed checkpoint index => cases checkpoint <;> rfl
  | _ => rfl

namespace Sheds

theorem refl (t : List Deed) : Sheds i frame t t := by
  induction t with
  | nil => exact .nil
  | cons d t ih => exact .keep d ih

theorem append {t₁ t₁' t₂ t₂' : List Deed} (h : Sheds i frame t₁ t₁')
    (h' : Sheds i frame t₂ t₂') : Sheds i frame (t₁ ++ t₂) (t₁' ++ t₂') := by
  induction h with
  | nil => exact h'
  | keep d _ ih => exact .keep d ih
  | drop hpart _ ih =>
    rw [List.append_assoc]
    exact .drop hpart ih

theorem append_left (t : List Deed) {t₁ t₁' : List Deed} (h : Sheds i frame t₁ t₁') :
    Sheds i frame (t ++ t₁) (t ++ t₁') :=
  (refl t).append h

/-- The same actions are dispatched. -/
theorem dispatches_eq {t t' : List Deed} (h : Sheds i frame t t') :
    dispatches t = dispatches t' := by
  induction h with
  | nil => rfl
  | keep d _ ih => rw [dispatches_cons, ih, ← dispatches_cons]
  | drop hpart _ ih => rw [dispatches_append, hpart.dispatches_eq_nil, ih, List.nil_append]

end Sheds

/-! ### Parts of the work without spare parts -/

/-- A part of the work has a trace without its spare parts. Otherwise it begins like the trace, and
the trace breaks off, with some deeds and a failure that the part of the work does not have. -/
def Work.Matches {α : Type} (i : Int) (frame : Frame) (U : List Deed → Failure → Prop)
    (m : Work α) (f : Fields) (s : LoopState) (t : List Deed) (r : Except Failure α) (f' : Fields)
    (s' : LoopState) : Prop :=
  (∃ t', Sheds i frame t t' ∧ m.Ends f s t' r f' s') ∨
  ∃ e t₀ t₀' u, r = .error e ∧ t = t₀ ++ u ∧ Sheds i frame t₀ t₀' ∧ m.Begins f s t₀' ∧ U u e

/-- All that the first part of the work does is matched by the second part. -/
def Work.Reduces {α : Type} (i : Int) (frame : Frame) (U : List Deed → Failure → Prop)
    (m m' : Work α) : Prop :=
  ∀ f s t r f' s', m.Ends f s t r f' s' → (∀ d ∈ t, d.Seemly) →
    m'.Matches i frame U f s t r f' s'

theorem Work.Matches.drop {α : Type} {U : List Deed → Failure → Prop} {m : Work α} {f f' : Fields}
    {s s' : LoopState} {t part : List Deed} {r : Except Failure α} (hpart : Spare i frame part)
    (h : m.Matches i frame U f s t r f' s') : m.Matches i frame U f s (part ++ t) r f' s' := by
  rcases h with ⟨t', hsheds, hends⟩ | ⟨e, t₀, t₀', u, hr, rfl, hsheds, hbegins, hu⟩
  · exact .inl ⟨t', hsheds.drop hpart, hends⟩
  · exact .inr ⟨e, part ++ t₀, t₀', u, hr, (List.append_assoc ..).symm, hsheds.drop hpart, hbegins,
      hu⟩

namespace Work.Reduces

variable {α β : Type} {U : List Deed → Failure → Prop} {m m' : Work α} {g g' : α → Work β}

theorem refl (m : Work α) : m.Reduces i frame U m :=
  fun _ _ t _ _ _ h _ => .inl ⟨t, .refl t, h⟩

theorem bind (hm : m.Reduces i frame U m') (hg : ∀ a, (g a).Reduces i frame U (g' a)) :
    (m >>= g).Reduces i frame U (m' >>= g') := by
  intro f s t r f' s' h hseemly
  rcases ends_bind_iff.mp h with ⟨t₁, a, f₁, s₁, t₂, rfl, h₁, h₂⟩ | ⟨e, h₁, rfl⟩
  · obtain ⟨hseemly₁, hseemly₂⟩ := List.forall_mem_append.mp hseemly
    rcases hm _ _ _ _ _ _ h₁ hseemly₁ with ⟨t₁', hsheds₁, hends₁⟩ | ⟨_, _, _, _, hr, -⟩
    · rcases hg a _ _ _ _ _ _ h₂ hseemly₂ with ⟨t₂', hsheds₂, hends₂⟩ |
        ⟨e, t₀, t₀', u, rfl, rfl, hsheds₂, hbegins, hu⟩
      · exact .inl ⟨t₁' ++ t₂', hsheds₁.append hsheds₂,
          ends_bind_iff.mpr (.inl ⟨t₁', a, f₁, s₁, t₂', rfl, hends₁, hends₂⟩)⟩
      · exact .inr ⟨e, t₁ ++ t₀, t₁' ++ t₀', u, rfl, (List.append_assoc ..).symm,
          hsheds₁.append hsheds₂, begins_bind_of_ends hends₁ hbegins, hu⟩
    · cases hr
  · rcases hm _ _ _ _ _ _ h₁ hseemly with ⟨t', hsheds, hends⟩ |
      ⟨e', t₀, t₀', u, hr, rfl, hsheds, hbegins, hu⟩
    · exact .inl ⟨t', hsheds, ends_bind_iff.mpr (.inr ⟨e, hends, rfl⟩)⟩
    · cases hr
      exact .inr ⟨e, t₀, t₀', u, rfl, rfl, hsheds, hbegins.bind g', hu⟩

theorem ite {c : Prop} [Decidable c] {n n' : Work α} (hm : m.Reduces i frame U m')
    (hn : n.Reduces i frame U n') :
    (if c then m else n).Reduces i frame U (if c then m' else n') := by
  split
  · exact hm
  · exact hn

end Work.Reduces

/-! ### Lists of actions -/

namespace Action

/-- An entry of a list of actions that makes no sense: it is no object, it names no type, or it has
something for its configuration that is neither an object nor the text of one. -/
inductive Malformed : Json → Prop
  | formless {entry : Json} (h : ∀ fields, entry ≠ .object fields) : Malformed entry
  | untyped {fields : Fields}
      (h : ∀ type, Fields.get? fields "action_type" = some (.text type) → type = "") :
      Malformed (.object fields)
  | unreadable {fields : Fields} {raw : Json} (h : Fields.get? fields "action_config" = some raw)
      (htruthy : raw.truthy = true) (hobject : ∀ config, raw ≠ .object config)
      (htext : ∀ s, raw = .text s → ∀ config, Json.read s ≠ .ok (.object config)) :
      Malformed (.object fields)

theorem configOf?_eq_none_iff {raw : Json} : NestedAction.configOf? raw = none ↔
    raw.truthy = true ∧ (∀ config, raw ≠ .object config) ∧
      ∀ s, raw = .text s → ∀ config, Json.read s ≠ .ok (.object config) := by
  unfold NestedAction.configOf?
  by_cases htruthy : raw.truthy = true
  · rw [if_pos htruthy]
    cases raw with
    | text s =>
      cases hread : Json.read s with
      | ok x => cases x <;> simp [htruthy, hread]
      | error e => simp [htruthy, hread]
    | _ => simp [htruthy]
  · rw [if_neg htruthy]
    simp [htruthy]

/-- What makes no sense is what is passed over. -/
theorem ofEntry?_eq_none_iff {entry : Json} {defaultId : String} :
    NestedAction.ofEntry? entry defaultId = none ↔ Malformed entry := by
  unfold NestedAction.ofEntry?
  constructor
  · intro h
    split at h
    · rename_i fields
      split at h
      · rename_i htype
        refine .untyped fun type hget => ?_
        rw [hget, NestedAction.textOr] at htype
        split at htype
        · exact String.isEmpty_iff.mp ‹_›
        · exact htype
      · obtain ⟨htruthy, hobject, htext⟩ :=
          configOf?_eq_none_iff.mp (Option.map_eq_none_iff.mp h)
        cases hget : Fields.get? fields "action_config" with
        | none =>
          rw [hget] at htruthy
          cases htruthy
        | some raw =>
          rw [hget] at htruthy hobject htext
          exact .unreadable hget htruthy hobject htext
    · rename_i hobject
      exact .formless fun fields hentry => hobject fields hentry
  · intro h
    cases h with
    | formless h => cases entry <;> first | rfl | exact absurd rfl (h _)
    | @untyped fields h =>
      have htype : NestedAction.textOr (Fields.get? fields "action_type") "" = "" := by
        unfold NestedAction.textOr
        split
        · rename_i s hget
          split
          · rfl
          · exact h s hget
        · rfl
      simp only [htype]
    | unreadable hget htruthy hobject htext =>
      dsimp only
      split
      · rfl
      · rw [hget, Option.getD_some, configOf?_eq_none_iff.mpr ⟨htruthy, hobject, htext⟩]
        rfl

/-- The actions of a list from a position on, each named by its position if it has no other
identifier. -/
def contributions (idStem : String) (i : Nat) : List Json → List NestedAction
  | [] => []
  | entry :: rest =>
    (NestedAction.ofEntry? entry s!"{idStem}-{i}").toList ++ contributions idStem (i + 1) rest

/-- The look at the request to stop that comes before each entry, if there is one. -/
def look : Option String → Act Unit
  | none => pure ()
  | some message => Act.checkpoint message

/-- Dispatches actions one after another. With a checkpoint, each of them is preceded by a look at
the request to stop. -/
def dispatchAll (nested : Dispatcher) (frame : Frame) (checkpoint : Option String) :
    List NestedAction → Act Unit
  | [] => pure ()
  | a :: rest => do
    look checkpoint
    nested (frame.child a.id a.actionType a.name) a.config
    dispatchAll nested frame checkpoint rest

/-- Dispatches the actions of a list. -/
def runContributed (nested : Dispatcher) (frame : Frame) (items : Json) (idStem : String)
    (checkpoint : Option String) : Act Unit := do
  let entries ← Act.ofExcept ((entries items).mapError .fault)
  dispatchAll nested frame checkpoint (contributions idStem 0 entries)

/-- A look finds a request to stop. -/
inductive Stopped : Option String → List Deed → Failure → Prop
  | intro (c : Cancellation) (message : String) :
      Stopped (some message) [.call .cancellation (some c)] (.error (c.toError message))

theorem not_stopped_none {u : List Deed} {e : Failure} : ¬ Stopped none u e := nofun

variable {nested : Dispatcher} {frame : Frame} {idStem : String} {checkpoint : Option String}
  {k : Nat} {es : List Json} {s s' : LoopState} {t : List Deed} {r : Except Failure Unit}

/-- When no entry is malformed, it makes no difference. -/
theorem runEntries_eq_dispatchAll (h : ∀ entry ∈ es, ¬ Malformed entry) :
    runEntries nested frame idStem checkpoint k es =
      dispatchAll nested frame checkpoint (contributions idStem k es) := by
  induction es generalizing k with
  | nil => rfl
  | cons entry rest ih =>
    obtain ⟨hentry, hrest⟩ := List.forall_mem_cons.mp h
    cases ha : NestedAction.ofEntry? entry s!"{idStem}-{k}" with
    | none => exact absurd (ofEntry?_eq_none_iff.mp ha) hentry
    | some a =>
      unfold runEntries
      rw [contributions, ha, ih hrest, Option.toList_some, List.singleton_append, dispatchAll]
      cases checkpoint <;> rfl

theorem ends_look (s : LoopState) : (look checkpoint).Ends s (looks checkpoint) (.ok ()) s := by
  cases checkpoint with
  | none => exact Act.ends_pure_iff.mpr ⟨rfl, rfl, rfl⟩
  | some message => exact Act.ends_checkpoint_iff.mpr ⟨rfl, .inl ⟨rfl, rfl⟩⟩

section Cons

variable {a : NestedAction} {rest : List NestedAction} {s₁ : LoopState} {t' : List Deed}

theorem ends_dispatchAll_stopped {message : String} (c : Cancellation) (s : LoopState) :
    (dispatchAll nested frame (some message) (a :: rest)).Ends s [.call .cancellation (some c)]
      (.error (.error (c.toError message))) s :=
  Act.ends_bind_iff.mpr (.inr ⟨_, Act.ends_checkpoint_iff.mpr ⟨rfl, .inr ⟨c, rfl, rfl⟩⟩, rfl⟩)

theorem ends_dispatchAll_failed {e : Failure}
    (h : (nested (frame.child a.id a.actionType a.name) a.config).Ends s t (.error e) s') :
    (dispatchAll nested frame checkpoint (a :: rest)).Ends s (looks checkpoint ++ t) (.error e)
      s' :=
  Act.ends_bind_iff.mpr (.inl ⟨_, (), s, t, rfl, ends_look s,
    Act.ends_bind_iff.mpr (.inr ⟨e, h, rfl⟩)⟩)

theorem ends_dispatchAll_next
    (h : (nested (frame.child a.id a.actionType a.name) a.config).Ends s t (.ok ()) s₁)
    (hrest : (dispatchAll nested frame checkpoint rest).Ends s₁ t' r s') :
    (dispatchAll nested frame checkpoint (a :: rest)).Ends s (looks checkpoint ++ (t ++ t')) r s' :=
  Act.ends_bind_iff.mpr (.inl ⟨_, (), s, _, rfl, ends_look s,
    Act.ends_bind_iff.mpr (.inl ⟨t, (), s₁, t', rfl, h, hrest⟩)⟩)

theorem begins_dispatchAll_next
    (h : (nested (frame.child a.id a.actionType a.name) a.config).Ends s t (.ok ()) s₁)
    (hrest : (dispatchAll nested frame checkpoint rest).Begins s₁ t') :
    (dispatchAll nested frame checkpoint (a :: rest)).Begins s (looks checkpoint ++ (t ++ t')) :=
  Act.begins_bind_of_ends (ends_look s) (Act.begins_bind_of_ends h hrest)

end Cons

/-- Without the warnings, a list is run as its actions are dispatched, as long as no look before a
malformed entry finds a request to stop. -/
theorem reduces_of_runs (h : Runs nested frame idStem checkpoint k es s t r s') :
    (∃ t', Sheds i frame t t' ∧
      (dispatchAll nested frame checkpoint (contributions idStem k es)).Ends s t' r s') ∨
    ∃ e t₀ t₀' u, r = .error e ∧ t = t₀ ++ u ∧ Sheds i frame t₀ t₀' ∧
      (dispatchAll nested frame checkpoint (contributions idStem k es)).Begins s t₀' ∧
      Stopped checkpoint u e := by
  induction h with
  | done => exact .inl ⟨[], .nil, Act.ends_pure_iff.mpr ⟨rfl, rfl, rfl⟩⟩
  | @stopped k entry rest s message c hmessage =>
    subst hmessage
    rw [contributions]
    cases ha : NestedAction.ofEntry? entry s!"{idStem}-{k}" with
    | none => exact .inr ⟨_, [], [], _, rfl, rfl, .nil, .nil _ _, .intro c message⟩
    | some a => exact .inl ⟨_, .refl _, ends_dispatchAll_stopped c s⟩
  | @passed k entry rest s s' t r hentry hrest ih =>
    have hpart : Spare i frame _ := .malformed checkpoint k
    rw [contributions, hentry]
    rcases ih with ⟨t', hsheds, hends⟩ | ⟨e, t₀, t₀', u, rfl, rfl, hsheds, hbegins, hstopped⟩
    · refine .inl ⟨t', ?_, hends⟩
      simpa using hsheds.drop hpart
    · refine .inr ⟨e, _, t₀', u, rfl, ?_, hsheds.drop hpart, hbegins, hstopped⟩
      simp
  | @failed k entry rest a s s' t e hentry h =>
    rw [contributions, hentry]
    exact .inl ⟨_, .refl _, ends_dispatchAll_failed h⟩
  | @next k entry rest a s s₁ s' t t' r hentry h hrest ih =>
    rw [contributions, hentry]
    rcases ih with ⟨t'', hsheds, hends⟩ | ⟨e, t₀, t₀', u, rfl, rfl, hsheds, hbegins, hstopped⟩
    · exact .inl ⟨_, (hsheds.append_left t).append_left (looks checkpoint),
        ends_dispatchAll_next h hends⟩
    · refine .inr ⟨e, _, _, u, rfl, ?_, (hsheds.append_left t).append_left (looks checkpoint),
        begins_dispatchAll_next h hbegins, hstopped⟩
      simp

/-- What comes of a list that can be run. -/
theorem runNested_of_entries {items : Json} (hes : entries items = .ok es) :
    runNested nested frame items idStem checkpoint =
      runEntries nested frame idStem checkpoint 0 es := by
  rw [runNested, hes]
  rfl

theorem runContributed_of_entries {items : Json} (hes : entries items = .ok es) :
    runContributed nested frame items idStem checkpoint =
      dispatchAll nested frame checkpoint (contributions idStem 0 es) := by
  rw [runContributed, hes]
  rfl

theorem runNested_eq_runContributed_of_error {items : Json} {f : Fault}
    (hes : entries items = .error f) :
    runNested nested frame items idStem checkpoint =
      runContributed nested frame items idStem checkpoint := by
  rw [runNested, runContributed, hes]
  rfl

/-- No entry of a list is malformed. -/
def Sound (items : Json) : Prop :=
  ∀ es, entries items = .ok es → ∀ entry ∈ es, ¬ Malformed entry

theorem Sound.runNested_eq {items : Json} (h : Sound items) :
    runNested nested frame items idStem checkpoint =
      runContributed nested frame items idStem checkpoint := by
  cases hes : entries items with
  | error f => exact runNested_eq_runContributed_of_error hes
  | ok es =>
    rw [runNested_of_entries hes, runContributed_of_entries hes,
      runEntries_eq_dispatchAll (h es hes)]

/-- When a list has been run to its end, there has been a warning about each malformed entry. -/
theorem warned_of_runs (h : Runs nested frame idStem checkpoint k es s t (.ok ()) s') {j : Nat}
    {entry : Json} (hj : es[j]? = some entry) (hentry : Malformed entry) :
    .call (.log (malformed frame (k + j))) () ∈ t := by
  generalize hr : Except.ok () = r at h
  induction h generalizing j with
  | done => cases hj
  | stopped => cases hr
  | passed hnone _ ih =>
    cases j with
    | zero => simp
    | succ j =>
      have hmem := ih hj hr
      rw [Nat.add_right_comm, Nat.add_assoc] at hmem
      simp [hmem]
  | failed => cases hr
  | next hsome _ _ ih =>
    cases j with
    | zero =>
      cases hj
      rw [ofEntry?_eq_none_iff.mpr hentry] at hsome
      cases hsome
    | succ j =>
      have hmem := ih hj hr
      rw [Nat.add_right_comm, Nat.add_assoc] at hmem
      simp [hmem]

theorem reduces_runNested {U : List Deed → Failure → Prop} (items : Json)
    (hU : ∀ u e, Stopped checkpoint u e → U u e) :
    (Work.lift (runNested nested frame items idStem checkpoint)).Reduces i frame U
      (Work.lift (runContributed nested frame items idStem checkpoint)) := by
  cases hes : entries items with
  | error f =>
    rw [runNested_eq_runContributed_of_error hes]
    exact .refl _
  | ok es =>
    rw [runNested_of_entries hes, runContributed_of_entries hes]
    intro f s t r f' s' h _
    obtain ⟨hends, rfl⟩ := Work.ends_lift_iff.mp h
    rcases reduces_of_runs (runs_of_ends hends) with ⟨t', hsheds, hends'⟩ |
      ⟨e, t₀, t₀', u, hr, ht, hsheds, hbegins, hstopped⟩
    · exact .inl ⟨t', hsheds, Work.ends_lift_iff.mpr ⟨hends', rfl⟩⟩
    · exact .inr ⟨e, t₀, t₀', u, hr, ht, hsheds, Work.begins_lift hbegins, hU _ _ hstopped⟩

end Action

end Runbook
