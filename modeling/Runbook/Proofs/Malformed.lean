import Runbook.Proofs.Contributions

/-!
# Control actions without the entries that make no sense

A control action does with all its entries what it does with those that make sense. An alternative
makes sense when it is an object that names an element by a text and a state by its word. Whatever
else it is, it is passed over with a warning, except for one case: an alternative that names an
element and has a list or an object for its state. Asking whether a list or an object is among the
words for states is a fault, and so the branch fails when it is the turn of this alternative.

An alternative whose element is named by something else than a text is asked for nevertheless. It is
the page that refuses to look at it, and this is supposed of the page (`Deed.Seemly`).

* `IfElse.contributed`, `LoopUntil.contributed`: what a control action does with what its entries
  contribute. It is what the action does when all of them make sense.
* `IfElse.matches_behave`, `LoopUntil.reduces_behave`: what a control action does is matched by
  that.
* `malformed_harmless`: both, with the warnings.
-/

namespace Runbook

variable {i : Int} {frame : Frame}

/-! ### Branching -/

namespace IfElse

variable {ctx : LoopContext} {nested : Dispatcher} {params : Fields}

/-- Reading an alternative is a fault exactly if it is an object that names an element, and has a
list or an object for its state. -/
theorem Alternative.ofEntry_eq_error_iff {entry : Json} {f : Fault} :
    Alternative.ofEntry entry = .error f ↔ ∃ fields, entry = .object fields ∧
      ((Fields.get? fields "selector").getD .null).truthy = true ∧
      ((∃ items, Fields.get? fields "condition_type" = some (.list items)) ∧
          f = ⟨.badType, "unhashable type: 'list'"⟩ ∨
        (∃ inner, Fields.get? fields "condition_type" = some (.object inner)) ∧
          f = ⟨.badType, "unhashable type: 'dict'"⟩) := by
  unfold ofEntry
  cases entry with
  | object fields =>
    dsimp only
    by_cases hselector : ((Fields.get? fields "selector").getD .null).truthy = true
    · have hthere : ¬ (!((Fields.get? fields "selector").getD .null).truthy) = true := by
        simp [hselector]
      rw [if_neg hthere]
      cases hget : Fields.get? fields "condition_type" with
      | none => simp [hget]
      | some x =>
        cases x with
        | list items =>
          constructor
          · intro h
            cases h
            exact ⟨fields, rfl, hselector, .inl ⟨⟨items, hget⟩, rfl⟩⟩
          · rintro ⟨_, ⟨⟩, -, ⟨-, rfl⟩ | ⟨⟨inner, hinner⟩, -⟩⟩
            · rfl
            · rw [hget] at hinner
              cases hinner
        | object inner =>
          constructor
          · intro h
            cases h
            exact ⟨fields, rfl, hselector, .inr ⟨⟨inner, hget⟩, rfl⟩⟩
          · rintro ⟨_, ⟨⟩, -, ⟨⟨items, hitems⟩, -⟩ | ⟨-, rfl⟩⟩
            · rw [hget] at hitems
              cases hitems
            · rfl
        | _ => simp [hget]
    · simp [hselector]
  | _ => simp

/-- An alternative that names its element by a text. -/
def Alternative.Named (a : Alternative) : Prop := ∃ name, a.selector = .text name

instance (a : Alternative) : Decidable a.Named :=
  match h : a.selector with
  | .text name => isTrue ⟨name, h⟩
  | .null | .bool _ | .int _ | .float _ | .list _ | .object _ | .foreign _ _ _ =>
    isFalse fun ⟨_, hname⟩ => by rw [h] at hname; cases hname

/-- The alternatives that contribute something: those that make sense and name their element by a
text. -/
def namedFrom (index : Nat) (entries : List Json) : List (Nat × Alternative) :=
  (alternativesFrom index entries).filter fun x => x.2.Named

/-- Runs the first alternative that holds. -/
def runChosen (ctx : LoopContext) (nested : Dispatcher) (frame : Frame) :
    List (Nat × Alternative) → Work Bool
  | [] => return false
  | (index, a) :: rest => do
    match ← Work.lift (Act.ask (.page ctx.loopIndex a.question)) with
    | .error f =>
      Work.lift (warn "else_if_condition_failed" frame index [("error", .text f.text)])
      runChosen ctx nested frame rest
    | .ok reply =>
      if reply.truthy then
        take s!"else_if[{index}]"
        Work.lift (Action.runContributed nested frame a.actions
          s!"{idStem frame}-else_if-{index}" none)
        return true
      else runChosen ctx nested frame rest

/-- Reading one of the alternatives is a fault. -/
inductive Tripped (entries : List Json) : List Deed → Failure → Prop
  | intro {entry : Json} {f : Fault} (hentry : entry ∈ entries)
      (h : Alternative.ofEntry entry = .error f) : Tripped entries [] (.fault f)

variable {all entries : List Json} {index : Nat}

/-- Without those that make no sense, the alternatives are gone through as they are. -/
theorem reduces_runAlternatives (hall : ∀ entry ∈ entries, entry ∈ all) :
    (runAlternatives ctx nested frame (idStem frame) index entries).Reduces ctx.loopIndex frame
      (Tripped all) (runChosen ctx nested frame (namedFrom index entries)) := by
  induction entries generalizing index with
  | nil => exact .refl _
  | cons entry rest ih =>
    obtain ⟨hentry, hrest⟩ := List.forall_mem_cons.mp hall
    have hreduces := @ih (index + 1) hrest
    cases hfound : Alternative.ofEntry entry with
    | error fault =>
      rw [runAlternatives, hfound]
      intro f s t r f' s' h _
      obtain ⟨rfl, rfl, rfl, rfl⟩ := Work.ends_throw_iff.mp h
      exact .inr ⟨_, [], [], [], rfl, rfl, .nil, .nil _ _ _, .intro hentry hfound⟩
    | ok found =>
      cases found with
      | none =>
        rw [runAlternatives, hfound, namedFrom, alternativesFrom, hfound]
        intro f s t r f' s' h hseemly
        obtain ⟨_, t', rfl, h'⟩ := Work.ends_ask_bind_iff.mp h
        exact (hreduces _ _ _ _ _ _ h' (List.forall_mem_cons.mp hseemly).2).drop (.senseless index)
      | some a =>
        rw [runAlternatives, hfound, Work.ofExcept_mapError_ok_bind, namedFrom, alternativesFrom,
          hfound]
        dsimp only
        by_cases hnamed : a.Named
        · rw [List.filter_cons_of_pos (by simpa using hnamed)]
          refine .bind (.refl _) fun answer => ?_
          cases answer with
          | error fault => exact .bind (.refl _) fun _ => hreduces
          | ok reply =>
            refine .ite (.bind (.refl _) fun _ => .bind ?_ fun _ => .refl _) hreduces
            exact Action.reduces_runNested a.actions fun _ _ h => absurd h Action.not_stopped_none
        · rw [List.filter_cons_of_neg (by simpa using hnamed)]
          intro f s t r f' s' h hseemly
          obtain ⟨answer, t', rfl, h'⟩ := Work.ends_ask_bind_iff.mp h
          obtain ⟨hasked, hseemly'⟩ := List.forall_mem_cons.mp hseemly
          have hselector : ∀ name, a.selector ≠ .text name := fun name hname => hnamed ⟨name, hname⟩
          cases answer with
          | error fault =>
            obtain ⟨_, t'', rfl, h''⟩ := Work.ends_ask_bind_iff.mp h'
            exact (hreduces _ _ _ _ _ _ h'' (List.forall_mem_cons.mp hseemly').2).drop
              (.refused index hselector)
          | ok reply =>
            have hno : reply.truthy = false := hasked _ _ rfl hselector rfl
            dsimp only at h'
            rw [hno] at h'
            exact (hreduces _ _ _ _ _ _ h' hseemly').drop (.denied hselector hno)

/-- An outcome that is no interruption is kept. -/
theorem ends_attempt_of_ends {m : Work Unit} {f f' : Fields} {s s' : LoopState} {t : List Deed}
    {r : Except Failure Unit} {x : Except Failure (Option Failure)} (h : m.Ends f s t r f' s')
    (hx : x = .error .interrupted ∧ r = .error .interrupted ∨
      x = .ok (failureOf r) ∧ failureOf r ≠ some .interrupted) :
    (Work.attempt m).Ends f s t x f' s' := by
  refine (Program.ends_bind_iff (p := (m.run.run f).run s)).mpr
    ⟨t, ((r, f'), s'), [], (List.append_nil t).symm, h, ?_⟩
  rcases hx with ⟨rfl, rfl⟩ | ⟨rfl, hne⟩
  · exact .refl _
  · rcases r with (e | fault | _) | _
    · exact .refl _
    · exact .refl _
    · exact absurd rfl hne
    · exact .refl _

/-- Keeping the outcome makes no difference, when there is none that does not match. -/
theorem reduces_attempt {m m' : Work Unit} (hm : m.Reduces i frame (fun _ _ => False) m') :
    (Work.attempt m).Reduces i frame (fun _ _ => False) (Work.attempt m') := by
  intro f s t r f' s' h hseemly
  obtain ⟨r', hends, hr⟩ := ends_attempt h
  rcases hm _ _ _ _ _ _ hends hseemly with ⟨t', hsheds, hends'⟩ | ⟨_, _, _, _, _, _, _, _, hno⟩
  · exact .inl ⟨t', hsheds, ends_attempt_of_ends hends' hr⟩
  · exact hno.elim

/-- Chooses a branch and runs it, with alternatives and lists that are gone through in given
ways. -/
def branchWith (ctx : LoopContext) (frame : Frame) (params : Fields) (others : Work Bool)
    (run : Json → String → Act Unit) : Work Unit := do
  let state ← Work.lift (Act.ofExcept (ElementState.read (Fields.textAt params "condition_type")))
  let reply ← Browser.request "playwright:if_else" ctx
    (question (Browser.param params "selector") state)
  if reply.truthy then
    take "if"
    Work.lift (run (Browser.param params "if_actions") s!"{idStem frame}-if")
  else
    if !(← others) then
      let otherwise := Browser.param params "else_actions"
      if otherwise.truthy then
        take "else"
        Work.lift (run otherwise s!"{idStem frame}-else")

/-- A branching action, in the same way. -/
def behaveWith (ctx : LoopContext) (frame : Frame) (params : Fields) (others : Work Bool)
    (run : Json → String → Act Unit) : Work String := do
  let branchFailure ← Work.attempt (branchWith ctx frame params others run)
  finish frame (run (Browser.param params "final_actions") s!"{idStem frame}-final") branchFailure

theorem behave_eq (ctx : LoopContext) (nested : Dispatcher) (frame : Frame) (params : Fields) :
    behave ctx nested frame params = behaveWith ctx frame params
      (runAlternatives ctx nested frame (idStem frame) 0
        (Fields.listAt params "else_if_conditions"))
      (Action.runNested nested frame · · none) := rfl

/-- What a branching action does with what its entries contribute. -/
def contributed (ctx : LoopContext) (nested : Dispatcher) (frame : Frame) (params : Fields) :
    Work String :=
  behaveWith ctx frame params
    (runChosen ctx nested frame (namedFrom 0 (Fields.listAt params "else_if_conditions")))
    (Action.runContributed nested frame · · none)

section With

variable {U : List Deed → Failure → Prop} {others others' : Work Bool}
  {run run' : Json → String → Act Unit}
  (hothers : others.Reduces i frame U others')
  (hrun : ∀ {U : List Deed → Failure → Prop} items stem,
    (Work.lift (run items stem)).Reduces i frame U (Work.lift (run' items stem)))

include hothers hrun

theorem reduces_branchWith : (branchWith ctx frame params others run).Reduces i frame U
    (branchWith ctx frame params others' run') := by
  have htaken (name : String) (items : Json) (stem : String) :
      (take name >>= fun _ => Work.lift (run items stem)).Reduces i frame U
        (take name >>= fun _ => Work.lift (run' items stem)) :=
    .bind (.refl _) fun _ => hrun items stem
  refine .bind (.refl _) fun state => .bind (.refl _) fun reply => .ite (htaken _ _ _) ?_
  exact hothers.bind fun found => .ite (.ite (htaken _ _ _) (.refl _)) (.refl _)

omit hothers in
theorem reduces_finish (items : Json) (stem : String) (branchFailure : Option Failure) :
    (finish frame (run items stem) branchFailure).Reduces i frame (fun _ _ => False)
      (finish frame (run' items stem) branchFailure) :=
  .bind (reduces_attempt (hrun items stem)) fun _ => .refl _

/-- A branching action is matched, or its branch is not, and then it comes to the failure of its
branch. -/
theorem matches_behaveWith {f f' : Fields} {s s' : LoopState} {t : List Deed}
    {r : Except Failure String}
    (h : (behaveWith ctx frame params others run).Ends f s t r f' s')
    (hseemly : ∀ d ∈ t, d.Seemly) :
    (∃ t', Sheds i frame t t' ∧ (behaveWith ctx frame params others' run').Ends f s t' r f' s') ∨
    ∃ e t₀ t₀' u t₁ s₁, t = t₀ ++ u ++ t₁ ∧ Sheds i frame t₀ t₀' ∧
      (behaveWith ctx frame params others' run').Begins f s t₀' ∧ U u e ∧
      Concludes frame (run (Browser.param params "final_actions") s!"{idStem frame}-final").Ends s₁
        (.error e) t₁ r s' := by
  have hbranch : (branchWith ctx frame params others run).Reduces i frame U
      (branchWith ctx frame params others' run') := reduces_branchWith hothers hrun
  rcases Work.ends_bind_iff.mp h with ⟨t₁, failure, f₁, s₁, t₂, rfl, h₁, h₂⟩ | ⟨e, h₁, rfl⟩
  · obtain ⟨r₁, hends, ⟨hr, -⟩ | ⟨hr, hkept⟩⟩ := ends_attempt h₁
    · cases hr
    cases hr
    obtain ⟨hseemly₁, hseemly₂⟩ := List.forall_mem_append.mp hseemly
    rcases hbranch _ _ _ _ _ _ hends hseemly₁ with ⟨t₁', hsheds₁, hends₁⟩ |
      ⟨e, t₀, t₀', u, rfl, rfl, hsheds, hbegins, hu⟩
    · rcases reduces_finish hrun _ _ _ _ _ _ _ _ _ h₂ hseemly₂ with ⟨t₂', hsheds₂, hends₂⟩ |
        ⟨_, _, _, _, _, _, _, _, hno⟩
      · refine .inl ⟨t₁' ++ t₂', hsheds₁.append hsheds₂, Work.ends_bind_iff.mpr (.inl ?_)⟩
        exact ⟨t₁', _, f₁, s₁, t₂', rfl, ends_attempt_of_ends hends₁ (.inr ⟨rfl, hkept⟩), hends₂⟩
      · exact hno.elim
    · obtain ⟨hconcludes, -⟩ := concludes_of_finish hkept h₂
      exact .inr ⟨e, t₀, t₀', u, t₂, s₁, rfl, hsheds, hbegins.attempt.bind _, hu, hconcludes⟩
  · obtain ⟨r₁, hends, ⟨hr, rfl⟩ | ⟨hr, -⟩⟩ := ends_attempt h₁
    · cases hr
      rcases hbranch _ _ _ _ _ _ hends hseemly with ⟨t', hsheds, hends'⟩ |
        ⟨e, t₀, t₀', u, hr, rfl, hsheds, hbegins, hu⟩
      · refine .inl ⟨t', hsheds, Work.ends_bind_iff.mpr (.inr ⟨_, ?_, rfl⟩)⟩
        exact ends_attempt_of_ends hends' (.inl ⟨rfl, rfl⟩)
      · cases hr
        exact .inr ⟨_, t₀, t₀', u, [], s', (List.append_nil _).symm, hsheds,
          hbegins.attempt.bind _, hu, .interrupted⟩
    · cases hr

end With

/-- A branching action is matched by what its entries contribute, or reading one of its alternatives
is a fault, and then it comes to that. -/
theorem matches_behave {f f' : Fields} {s s' : LoopState} {t : List Deed}
    {r : Except Failure String} (h : (behave ctx nested frame params).Ends f s t r f' s')
    (hseemly : ∀ d ∈ t, d.Seemly) :
    (∃ t', Sheds ctx.loopIndex frame t t' ∧
      (contributed ctx nested frame params).Ends f s t' r f' s') ∨
    ∃ entry fault t₀ t₀' t₁ s₁, entry ∈ Fields.listAt params "else_if_conditions" ∧
      Alternative.ofEntry entry = .error fault ∧ t = t₀ ++ t₁ ∧
      Sheds ctx.loopIndex frame t₀ t₀' ∧ (contributed ctx nested frame params).Begins f s t₀' ∧
      Concludes frame (Action.runNested nested frame (Browser.param params "final_actions")
        s!"{idStem frame}-final" none).Ends s₁ (.error (.fault fault)) t₁ r s' := by
  have hothers : (runAlternatives ctx nested frame (idStem frame) 0
      (Fields.listAt params "else_if_conditions")).Reduces ctx.loopIndex frame
      (Tripped (Fields.listAt params "else_if_conditions"))
      (runChosen ctx nested frame (namedFrom 0 (Fields.listAt params "else_if_conditions"))) :=
    reduces_runAlternatives fun _ hentry => hentry
  have hrun {U : List Deed → Failure → Prop} (items : Json) (stem : String) :
      (Work.lift (Action.runNested nested frame items stem none)).Reduces ctx.loopIndex frame U
        (Work.lift (Action.runContributed nested frame items stem none)) :=
    Action.reduces_runNested items fun _ _ h => absurd h Action.not_stopped_none
  rw [behave_eq] at h
  rcases matches_behaveWith hothers hrun h hseemly with hmatched |
    ⟨e, t₀, t₀', u, t₁, s₁, rfl, hsheds, hbegins, ⟨hentry, hfault⟩, hconcludes⟩
  · exact .inl hmatched
  · rw [List.append_nil]
    exact .inr ⟨_, _, t₀, t₀', t₁, s₁, hentry, hfault, rfl, hsheds, hbegins, hconcludes⟩

/-- The entries of a branching action make sense. -/
structure Sound (params : Fields) : Prop where
  first : Action.Sound (Browser.param params "if_actions")
  alternatives : ∀ entry ∈ Fields.listAt params "else_if_conditions",
    ∃ a, Alternative.ofEntry entry = .ok (some a) ∧ a.Named ∧ Action.Sound a.actions
  otherwise : Action.Sound (Browser.param params "else_actions")
  final : Action.Sound (Browser.param params "final_actions")

theorem runAlternatives_eq_runChosen
    (h : ∀ entry ∈ entries, ∃ a, Alternative.ofEntry entry = .ok (some a) ∧ a.Named ∧
      Action.Sound a.actions) :
    runAlternatives ctx nested frame (idStem frame) index entries =
      runChosen ctx nested frame (namedFrom index entries) := by
  induction entries generalizing index with
  | nil => rfl
  | cons entry rest ih =>
    obtain ⟨⟨a, hfound, hnamed, hactions⟩, hrest⟩ := List.forall_mem_cons.mp h
    rw [runAlternatives, hfound, Work.ofExcept_mapError_ok_bind, namedFrom, alternativesFrom,
      hfound]
    dsimp only
    rw [List.filter_cons_of_pos (by simpa using hnamed), ih hrest, hactions.runNested_eq]
    rfl

/-- When all entries make sense, they contribute all that the action does. -/
theorem Sound.contributed_eq (h : Sound params) :
    contributed ctx nested frame params = behave ctx nested frame params := by
  rw [behave_eq, contributed, runAlternatives_eq_runChosen h.alternatives]
  simp only [behaveWith, branchWith, h.first.runNested_eq, h.otherwise.runNested_eq,
    h.final.runNested_eq]

/-- It shows in a trace that an alternative has been passed over: there is a warning when it makes
no sense. Otherwise it has been asked for, and there is a warning when that has failed. -/
def PassedOver (ctx : LoopContext) (frame : Frame) (index : Nat) (entry : Json) (t : List Deed) :
    Prop :=
  (Alternative.ofEntry entry = .ok none → .call (.log (.warning "else_if_invalid"
    [("action_id", .text frame.actionId), ("index", .nat index)])) () ∈ t) ∧
  ∀ a, Alternative.ofEntry entry = .ok (some a) → ∃ answer,
    .call (.page ctx.loopIndex a.question) answer ∈ t ∧
    ∀ fault, answer = .error fault → .call (.log (.warning "else_if_condition_failed"
      [("action_id", .text frame.actionId), ("index", .nat index),
       ("error", .text fault.text)])) () ∈ t

section PassedOver

variable {f f' : Fields} {s s' : LoopState} {t : List Deed}

theorem PassedOver.mono {entry : Json} {t' : List Deed} (h : PassedOver ctx frame index entry t)
    (hsub : t ⊆ t') : PassedOver ctx frame index entry t' := by
  refine ⟨fun hnone => hsub (h.1 hnone), fun a ha => ?_⟩
  obtain ⟨answer, hanswer, hwarned⟩ := h.2 a ha
  exact ⟨answer, hsub hanswer, fun fault hfault => hsub (hwarned fault hfault)⟩

theorem passedOver_of_none {entry : Json} (hfound : Alternative.ofEntry entry = .ok none)
    (hwarned : .call (.log (.warning "else_if_invalid"
      [("action_id", .text frame.actionId), ("index", .nat index)])) () ∈ t) :
    PassedOver ctx frame index entry t := by
  refine ⟨fun _ => hwarned, fun a ha => ?_⟩
  rw [hfound] at ha
  cases ha

theorem passedOver_of_some {entry : Json} {a : Alternative} {answer : Except Fault Json}
    (hfound : Alternative.ofEntry entry = .ok (some a))
    (hasked : .call (.page ctx.loopIndex a.question) answer ∈ t)
    (hwarned : ∀ fault, answer = .error fault → .call (.log (.warning "else_if_condition_failed"
      [("action_id", .text frame.actionId), ("index", .nat index),
       ("error", .text fault.text)])) () ∈ t) :
    PassedOver ctx frame index entry t := by
  refine ⟨fun hnone => ?_, fun a' ha => ?_⟩
  · rw [hfound] at hnone
    cases hnone
  · rw [hfound] at ha
    cases ha
    exact ⟨answer, hasked, hwarned⟩

/-- When none of the alternatives holds, the first one is passed over, and none of the others
holds. -/
theorem passedOver_first {entry : Json} {rest : List Json}
    (h : (runAlternatives ctx nested frame (idStem frame) index (entry :: rest)).Ends f s t
      (.ok false) f' s') :
    ∃ part t', t = part ++ t' ∧ PassedOver ctx frame index entry part ∧
      (runAlternatives ctx nested frame (idStem frame) (index + 1) rest).Ends f s t' (.ok false)
        f' s' := by
  rw [runAlternatives] at h
  cases hfound : Alternative.ofEntry entry with
  | error fault =>
    rw [hfound] at h
    obtain ⟨-, hr, -⟩ := Work.ends_throw_iff.mp h
    cases hr
  | ok found =>
    rw [hfound, Work.ofExcept_mapError_ok_bind] at h
    cases found with
    | none =>
      obtain ⟨_, t', rfl, h'⟩ := Work.ends_ask_bind_iff.mp h
      exact ⟨[_], t', rfl, passedOver_of_none hfound List.mem_cons_self, h'⟩
    | some a =>
      obtain ⟨answer, t', rfl, h'⟩ := Work.ends_ask_bind_iff.mp h
      cases answer with
      | error fault =>
        obtain ⟨_, t'', rfl, h''⟩ := Work.ends_ask_bind_iff.mp h'
        refine ⟨[_, _], t'', rfl, passedOver_of_some hfound List.mem_cons_self ?_, h''⟩
        rintro fault' ⟨⟩
        exact List.mem_cons_of_mem _ List.mem_cons_self
      | ok reply =>
        dsimp only at h'
        split at h'
        · -- The alternative holds.
          rw [← bind_assoc] at h'
          rcases Work.ends_bind_iff.mp h' with ⟨_, _, _, _, _, -, -, h₂⟩ | ⟨_, -, hr⟩
          · obtain ⟨-, hr, -⟩ := Work.ends_pure_iff.mp h₂
            cases hr
          · cases hr
        · refine ⟨[_], t', rfl, passedOver_of_some hfound List.mem_cons_self ?_, h'⟩
          rintro fault ⟨⟩

/-- When none of the alternatives holds, each of them is passed over. -/
theorem passedOver_of_ends {j : Nat} {entry : Json}
    (h : (runAlternatives ctx nested frame (idStem frame) index entries).Ends f s t (.ok false) f'
      s') (hj : entries[j]? = some entry) : PassedOver ctx frame (index + j) entry t := by
  induction entries generalizing index t j with
  | nil => cases hj
  | cons first rest ih =>
    obtain ⟨part, t', rfl, hfirst, hrest⟩ := passedOver_first h
    cases j with
    | zero =>
      cases hj
      exact hfirst.mono (List.subset_append_left ..)
    | succ j =>
      have hpassed := ih hrest hj
      rw [Nat.add_right_comm, Nat.add_assoc] at hpassed
      exact hpassed.mono (List.subset_append_right ..)

end PassedOver

end IfElse

/-! ### Loops -/

namespace LoopUntil

variable {ctx : LoopContext} {nested : Dispatcher} {params : Fields}

/-- What a loop says when a look before one of its actions finds a request to stop. -/
abbrev stopWord : Option String := some "loop cancelled during action execution"

/-- Goes on after so many iterations, with what is done in each iteration; there can be `remaining`
more. -/
def iterateWith (ctx : LoopContext) (frame : Frame) (loop : Loop) (started : Rat)
    (body : Nat → Act Unit) (remaining iterations : Nat) : Work String :=
  begin ctx frame loop started iterations fun reasons =>
    match remaining with
    | 0 => forceStop frame loop iterations reasons
    | remaining + 1 =>
      if !reasons.isEmpty then forceStop frame loop iterations reasons
      else do
        Work.lift (body iterations)
        Work.report fun fields => Fields.set fields "iterations" (.nat (iterations + 1))
        Work.lift (Act.await (.sleep pause))
        iterateWith ctx frame loop started body remaining (iterations + 1)

/-- A looping action, in the same way. -/
def behaveWith (ctx : LoopContext) (frame : Frame) (params : Fields) (body : Nat → Act Unit) :
    Work String := do
  let loop := Loop.ofParams params
  let started ← Work.lift (Act.ask .now)
  restoringLocalIndex (iterateWith ctx frame loop started body loop.bounds.iterations 0)

/-- What a loop does in each iteration. -/
def bodyOf (run : Json → String → Option String → Act Unit) (frame : Frame) (params : Fields)
    (iterations : Nat) : Act Unit :=
  run (Browser.param params "loop_actions") s!"{frame.actionId}-loop-{iterations + 1}" stopWord

/-- What a looping action does with what its entries contribute. -/
def contributed (ctx : LoopContext) (nested : Dispatcher) (frame : Frame) (params : Fields) :
    Work String :=
  behaveWith ctx frame params (bodyOf (Action.runContributed nested frame) frame params)

theorem iterate_eq {loop : Loop} {started : Rat} {remaining iterations : Nat} :
    iterate ctx nested frame loop started remaining iterations =
      iterateWith ctx frame loop started (fun n => Action.runNested nested frame loop.actions
        s!"{frame.actionId}-loop-{n + 1}" stopWord) remaining iterations := by
  induction remaining generalizing iterations with
  | zero => rfl
  | succ remaining ih =>
    rw [iterate, iterateWith]
    simp only [ih]

theorem behave_eq (ctx : LoopContext) (nested : Dispatcher) (frame : Frame) (params : Fields) :
    behave ctx nested frame params =
      behaveWith ctx frame params (bodyOf (Action.runNested nested frame) frame params) := by
  simp only [behave, iterate_eq]
  rfl

section With

variable {U : List Deed → Failure → Prop} {loop : Loop} {started : Rat}

theorem reduces_begin {iterations : Nat} {goOn goOn' : List String → Work String}
    (h : ∀ reasons, (goOn reasons).Reduces i frame U (goOn' reasons)) :
    (begin ctx frame loop started iterations goOn).Reduces i frame U
      (begin ctx frame loop started iterations goOn') :=
  .bind (.refl _) fun _ => .bind (.refl _) fun _ => .bind (.refl _) fun _ =>
    .ite (.refl _) (.bind (.refl _) fun _ => h _)

theorem reduces_iterateWith {body body' : Nat → Act Unit}
    (h : ∀ n, (Work.lift (body n)).Reduces i frame U (Work.lift (body' n)))
    {remaining iterations : Nat} :
    (iterateWith ctx frame loop started body remaining iterations).Reduces i frame U
      (iterateWith ctx frame loop started body' remaining iterations) := by
  induction remaining generalizing iterations with
  | zero => exact reduces_begin fun _ => .refl _
  | succ remaining ih =>
    exact reduces_begin fun _ => .ite (.refl _) (.bind (h _) fun _ => .bind (.refl _) fun _ =>
      .bind (.refl _) fun _ => ih)

theorem begins_restoringLocalIndex {α : Type} {m : Work α} {f : Fields} {s : LoopState}
    {t : List Deed} (h : m.Begins f s t) : (restoringLocalIndex m).Begins f s t := by
  obtain ⟨q, hq⟩ := h
  exact ⟨_, Program.Leads.bind hq fun x =>
    pure ((x.1.1, x.1.2), { x.2 with localLoopIndex := s.localLoopIndex : LoopState })⟩

theorem reduces_restoringLocalIndex {α : Type} {m m' : Work α} (hm : m.Reduces i frame U m') :
    (restoringLocalIndex m).Reduces i frame U (restoringLocalIndex m') := by
  intro f s t r f' s' h hseemly
  obtain ⟨s₁, hends, rfl⟩ := ends_restoringLocalIndex_iff.mp h
  rcases hm _ _ _ _ _ _ hends hseemly with ⟨t', hsheds, hends'⟩ |
    ⟨e, t₀, t₀', u, hr, ht, hsheds, hbegins, hu⟩
  · exact .inl ⟨t', hsheds, ends_restoringLocalIndex_iff.mpr ⟨s₁, hends', rfl⟩⟩
  · exact .inr ⟨e, t₀, t₀', u, hr, ht, hsheds, begins_restoringLocalIndex hbegins, hu⟩

end With

/-- A loop is matched, or a look before a malformed entry finds a request to stop. -/
theorem reduces_behave : (behave ctx nested frame params).Reduces i frame
    (Action.Stopped stopWord) (contributed ctx nested frame params) := by
  rw [behave_eq]
  exact .bind (.refl _) fun _ => reduces_restoringLocalIndex <| reduces_iterateWith fun _ =>
    Action.reduces_runNested _ fun _ _ h => h

/-- When all entries make sense, they contribute all that the loop does. -/
theorem contributed_eq (h : Action.Sound (Browser.param params "loop_actions")) :
    contributed ctx nested frame params = behave ctx nested frame params := by
  rw [behave_eq, contributed]
  unfold bodyOf
  simp only [h.runNested_eq]

end LoopUntil

/-! ### Control actions -/

namespace IfElse

/-- A branching action with a given state for the element of its only alternative. -/
def single (state : Json) : Fields := [("selector", .text "#a"),
  ("condition_type", .text "is_visible"),
  ("else_if_conditions", .list [.object [("selector", .text "#b"), ("condition_type", state)]])]

/-- The action as it is once its configuration has been accepted. -/
def singleParams (state : Json) : Fields := [("selector", .text "#a"),
  ("condition_type", .text "is_visible"), ("if_actions", .list []),
  ("else_if_conditions", .list [.object [("selector", .text "#b"), ("condition_type", state)]]),
  ("else_actions", .list []), ("final_actions", .list [])]

/-- The own element is looked at, and it is not in its state. -/
def denied : Deed :=
  .call (.page 0 (question (.text "#a") .visible)) (.ok (.bool false))

end IfElse

end Runbook
