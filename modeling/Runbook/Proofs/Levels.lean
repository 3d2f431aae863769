import Runbook.Proofs.Deferral
import Runbook.Proofs.Weights

/-!
# Levels

The configuration of a nested action weighs less than that of the action which holds it. So the
levels that a dispatch is given are never used up, and it does not matter how many there are: an
action dispatches what it holds just as it was dispatched itself.

* `IfElse.Lists.weightFields_lt`, `LoopUntil.Holds.weightFields_lt`: what is held weighs less.
* `Action.dispatchWithin_eq`: more levels than the weight of the configuration are all the same.
* `Action.dispatch_eq`: a dispatch without levels.
-/

namespace Runbook

/-! ### What is held weighs less -/

/-- The entries of a list weigh less than the list; what else counts as an entry is a text. -/
theorem Action.weight_lt_of_entries {items : Json} {entries : List Json} {i : Nat} {entry : Json}
    (h : Action.entries items = .ok entries) (hi : entries[i]? = some entry) :
    entry.weight < items.weight ∨ ∃ s, entry = .text s := by
  have htext {α : Type} {f : α → String} {xs : List α}
      (h : (xs.map fun x => Json.text (f x))[i]? = some entry) : ∃ s, entry = .text s := by
    rw [List.getElem?_map] at h
    obtain ⟨x, -, rfl⟩ := Option.map_eq_some_iff.mp h
    exact ⟨_, rfl⟩
  unfold Action.entries at h
  split at h
  · split at h <;> cases h
    · have := Json.weight_lt_of_getElem? hi
      simp only [Json.weight]
      omega
    · exact .inr (htext hi)
    · exact .inr (htext hi)
    · cases hi
  · cases h
    cases hi

/-- What is held under a key weighs less than all fields. -/
theorem Action.IsEntry.weightFields_lt {config : Fields} {key idStem : String} {a : NestedAction}
    (h : Action.IsEntry (Browser.param config key) idStem a) :
    Json.weightFields a.config < Json.weightFields config := by
  obtain ⟨entries, i, entry, hentries, hi, ha⟩ := h
  have hlt := NestedAction.weightFields_lt_of_ofEntry? ha
  cases hget : Fields.get? config key with
  | none =>
    rw [Browser.param, hget] at hentries
    cases hentries
    cases hi
  | some items =>
    rw [Browser.param, hget] at hentries
    have hitems := Json.weight_lt_of_get? hget
    rcases weight_lt_of_entries hentries hi with hentry | ⟨s, rfl⟩
    · rw [Option.getD_some] at hentry
      omega
    · cases ha

namespace IfElse

theorem Lists.weightFields_lt {frame : Frame} {config : Fields} {a : NestedAction}
    (h : Lists frame config a) : Json.weightFields a.config < Json.weightFields config := by
  cases h with
  | «if» h => exact h.weightFields_lt
  | «else» h => exact h.weightFields_lt
  | final h => exact h.weightFields_lt
  | @alternative index fields hentry h =>
    have hactions := h.weightFields_lt
    unfold Fields.listAt at hentry
    split at hentry
    · rename_i alternatives hget
      have hfields := Json.weight_lt_of_getElem? hentry
      have hlist := Json.weight_lt_of_get? hget
      simp only [Json.weight] at hfields hlist
      omega
    · cases hentry

end IfElse

theorem LoopUntil.Holds.weightFields_lt {frame : Frame} {config : Fields} {a : NestedAction}
    (h : LoopUntil.Holds frame config a) :
    Json.weightFields a.config < Json.weightFields config := by
  obtain ⟨n, h⟩ := h
  exact h.weightFields_lt

/-! ### Parts that go on alike -/

/-- Only the value matters that is there. -/
theorem Act.ofExcept_bind_congr {α β : Type} {x : Except Failure α} {f g : α → Act β}
    (h : ∀ a, x = .ok a → f a = g a) : Act.ofExcept x >>= f = Act.ofExcept x >>= g := by
  cases x with
  | error e => rfl
  | ok a => exact h a rfl

theorem Work.ofExcept_bind_congr {α β : Type} {x : Except Failure α} {f g : α → Work β}
    (h : ∀ a, x = .ok a → f a = g a) :
    Work.lift (Act.ofExcept x) >>= f = Work.lift (Act.ofExcept x) >>= g := by
  cases x with
  | error e => rfl
  | ok a => exact h a rfl

/-! ### Dispatchers that agree -/

section Agree

variable {nested nested' : Dispatcher} {frame : Frame} {ctx : LoopContext}

namespace Action

theorem runEntries_congr {idStem : String} {checkpoint : Option String} {i : Nat}
    {entries : List Json}
    (h : ∀ {j entry a}, entries[j]? = some entry →
      NestedAction.ofEntry? entry s!"{idStem}-{i + j}" = some a →
      nested (frame.child a.id a.actionType a.name) a.config =
        nested' (frame.child a.id a.actionType a.name) a.config) :
    runEntries nested frame idStem checkpoint i entries =
      runEntries nested' frame idStem checkpoint i entries := by
  induction entries generalizing i with
  | nil => rfl
  | cons entry rest ih =>
    have hrest := ih (i := i + 1) fun {j} _ _ hj ha => h (j := j + 1) hj (by
      rwa [show i + (j + 1) = i + 1 + j by omega])
    unfold runEntries
    rw [hrest]
    cases ha : NestedAction.ofEntry? entry s!"{idStem}-{i}" with
    | none => rfl
    | some a =>
      have hhead := h (j := 0) rfl ha
      dsimp only
      rw [hhead]

theorem runNested_congr {items : Json} {idStem : String} {checkpoint : Option String}
    (h : ∀ {a}, IsEntry items idStem a →
      nested (frame.child a.id a.actionType a.name) a.config =
        nested' (frame.child a.id a.actionType a.name) a.config) :
    runNested nested frame items idStem checkpoint =
      runNested nested' frame items idStem checkpoint := by
  rw [runNested, runNested]
  refine Act.ofExcept_bind_congr fun es hes => ?_
  exact runEntries_congr fun hj ha =>
    h ⟨es, _, _, eq_ok_of_mapError hes, hj, by rwa [Nat.zero_add] at ha⟩

end Action

namespace IfElse

theorem runAlternatives_congr {idStem : String} {index : Nat} {alternatives : List Json}
    (h : ∀ {j entry found a}, alternatives[j]? = some entry →
      Alternative.ofEntry entry = .ok (some found) →
      Action.IsEntry found.actions s!"{idStem}-else_if-{index + j}" a →
      nested (frame.child a.id a.actionType a.name) a.config =
        nested' (frame.child a.id a.actionType a.name) a.config) :
    runAlternatives ctx nested frame idStem index alternatives =
      runAlternatives ctx nested' frame idStem index alternatives := by
  induction alternatives generalizing index with
  | nil => rfl
  | cons entry rest ih =>
    have hrest : runAlternatives ctx nested frame idStem (index + 1) rest =
        runAlternatives ctx nested' frame idStem (index + 1) rest :=
      ih fun {j} _ _ _ hj hfound ha =>
        h (j := j + 1) hj hfound (by rwa [show index + (j + 1) = index + 1 + j by omega])
    unfold runAlternatives
    rw [hrest]
    refine Work.ofExcept_bind_congr fun found? hfound? => ?_
    cases found? with
    | none => rfl
    | some found =>
      have hchosen : Action.runNested nested frame found.actions s!"{idStem}-else_if-{index}" none =
          Action.runNested nested' frame found.actions s!"{idStem}-else_if-{index}" none :=
        Action.runNested_congr fun ha => h (j := 0) rfl (eq_ok_of_mapError hfound?) ha
      dsimp only
      rw [hchosen]

theorem behave_congr {params : Fields}
    (h : ∀ {a}, Holds frame params a → nested (frame.child a.id a.actionType a.name) a.config =
      nested' (frame.child a.id a.actionType a.name) a.config) :
    behave ctx nested frame params = behave ctx nested' frame params := by
  have hbranch : runBranch ctx nested frame params (idStem frame) =
      runBranch ctx nested' frame params (idStem frame) := by
    unfold runBranch
    dsimp only
    rw [Action.runNested_congr fun ha => h (.if ha), Action.runNested_congr fun ha => h (.else ha),
      runAlternatives_congr fun {j} _ _ _ hj hfound ha =>
        h (.alternative hj hfound (by rwa [Nat.zero_add] at ha))]
  unfold behave
  dsimp only
  rw [hbranch, Action.runNested_congr fun ha => h (.final ha)]

end IfElse

namespace LoopUntil

theorem iterate_congr {loop : Loop} {started : Rat} {remaining iterations : Nat}
    (h : ∀ {n a}, Action.IsEntry loop.actions s!"{frame.actionId}-loop-{n + 1}" a →
      nested (frame.child a.id a.actionType a.name) a.config =
        nested' (frame.child a.id a.actionType a.name) a.config) :
    iterate ctx nested frame loop started remaining iterations =
      iterate ctx nested' frame loop started remaining iterations := by
  induction remaining generalizing iterations with
  | zero => rfl
  | succ remaining ih =>
    unfold iterate
    refine congrArg _ (funext fun reasons => ?_)
    dsimp only
    rw [Action.runNested_congr h, ih]

theorem behave_congr {params : Fields}
    (h : ∀ {a}, Holds frame params a → nested (frame.child a.id a.actionType a.name) a.config =
      nested' (frame.child a.id a.actionType a.name) a.config) :
    behave ctx nested frame params = behave ctx nested' frame params := by
  unfold behave
  dsimp only
  refine bind_congr fun started => ?_
  rw [iterate_congr fun ha => h ⟨_, ha⟩]

end LoopUntil

end Agree

/-! Most kinds dispatch nothing. -/

theorem Browser.behave_eq : ∀ kind ∈ kinds, ∀ ctx nested nested' frame params,
    kind.behave ctx nested frame params = kind.behave ctx nested' frame params := by
  simp only [kinds, List.forall_mem_cons]
  and_intros <;> intros <;> first | rfl | contradiction

theorem Api.behave_eq : ∀ kind ∈ kinds, ∀ ctx nested nested' frame params,
    kind.behave ctx nested frame params = kind.behave ctx nested' frame params := by
  simp only [kinds, List.forall_mem_cons]
  and_intros <;> intros <;> first | rfl | contradiction

theorem StoredFiles.behave_eq : ∀ kind ∈ kinds, ∀ ctx nested nested' frame params,
    kind.behave ctx nested frame params = kind.behave ctx nested' frame params := by
  simp only [kinds, List.forall_mem_cons]
  and_intros <;> intros <;> first | rfl | contradiction

/-- A kind whose actions dispatch what they hold, if anything. -/
theorem Catalogue.behave_congr {kind : ActionKind} (hkind : kind ∈ kinds) {ctx : LoopContext}
    {nested nested' : Dispatcher} {frame : Frame} {params : Fields}
    (hbranch : ∀ {a}, kind.type = "playwright:if_else" → IfElse.Holds frame params a →
      nested (frame.child a.id a.actionType a.name) a.config =
        nested' (frame.child a.id a.actionType a.name) a.config)
    (hloop : ∀ {a}, kind.type = "playwright:loop_until" → LoopUntil.Holds frame params a →
      nested (frame.child a.id a.actionType a.name) a.config =
        nested' (frame.child a.id a.actionType a.name) a.config) :
    kind.behave ctx nested frame params = kind.behave ctx nested' frame params := by
  simp only [kinds, List.mem_append, List.mem_cons, List.not_mem_nil, or_false] at hkind
  rcases hkind with ((hkind | rfl | rfl) | hkind) | hkind
  · exact Browser.behave_eq kind hkind ..
  · exact IfElse.behave_congr fun ha => hbranch rfl ha
  · exact LoopUntil.behave_congr fun ha => hloop rfl ha
  · exact Api.behave_eq kind hkind ..
  · exact StoredFiles.behave_eq kind hkind ..

namespace Act

theorem resolving_bind_congr {α β : Type} {ctx : LoopContext}
    {m : Template.Environment → Template.ResolveM α} {f g : α → Act β}
    (h : ∀ s globals now a, Template.Gives (m (environment ctx s globals now)) a → f a = g a) :
    resolving ctx m >>= f = resolving ctx m >>= g := by
  rw [resolving, contextNow]
  simp only [bind_assoc, pure_bind]
  refine bind_congr fun s => bind_congr fun globals => bind_congr fun now =>
    bind_congr fun chance => ?_
  rcases hrun : (m (environment ctx s globals now)).run.run { ints := chance.ints } with
    ⟨result, drawing⟩
  rw [environment] at hrun
  rw [hrun]
  simp only [bind_assoc]
  refine bind_congr fun _ => bind_congr fun _ => ?_
  cases result with
  | ok a => exact h s globals now a ⟨_, _, hrun⟩
  | error e => rfl

end Act

/-! ### Dispatches without levels -/

namespace Action

variable {ctx : LoopContext} {frame : Frame} {config : Fields}

/-- Executions go on alike with dispatchers that agree on all that weighs less than the
configuration as it was before it was resolved. -/
theorem execute_congr {kind : ActionKind} {type : String} {R : String → String → Prop}
    {resolved : Json} {nested nested' : Dispatcher}
    (hget : Catalogue.registry.get type = .ok kind)
    (hresolved : Template.Rewritten R (kind.deferred.map Template.Deferral.ofText) []
      (.object config) resolved)
    (hnested : ∀ frame c, Json.weightFields c < Json.weightFields config →
      nested frame c = nested' frame c) :
    kind.execute ctx nested frame resolved = kind.execute ctx nested' frame resolved := by
  obtain ⟨fields, rfl, hrewritten⟩ := hresolved
  unfold ActionKind.execute
  refine Act.ofExcept_bind_congr fun params hvalid => ?_
  have hbehave : kind.behave ctx nested frame params = kind.behave ctx nested' frame params := by
    refine Catalogue.behave_congr (Catalogue.mem_of_get hget).1 (fun htype ha => hnested _ _ ?_)
      fun htype ha => hnested _ _ ?_
    · rw [← (Catalogue.mem_of_get hget).2, htype, Catalogue.get_ifElse] at hget
      cases hget
      exact (IfElse.lists_of_holds hrewritten hvalid ha).weightFields_lt
    · rw [← (Catalogue.mem_of_get hget).2, htype, Catalogue.get_loopUntil] at hget
      cases hget
      exact (LoopUntil.holds_of_holds hrewritten hvalid ha).weightFields_lt
  rw [hbehave]

/-- More levels than the configuration weighs are all the same. -/
theorem dispatchWithin_eq {levels levels' : Nat} (h : Json.weightFields config < levels)
    (h' : Json.weightFields config < levels') :
    dispatchWithin Catalogue.registry ctx levels frame config =
      dispatchWithin Catalogue.registry ctx levels' frame config := by
  induction levels generalizing levels' frame config with
  | zero => omega
  | succ levels ih =>
    cases levels' with
    | zero => omega
    | succ levels' =>
      refine bind_congr fun _ => Act.ofExcept_bind_congr fun kind hget =>
        Act.resolving_bind_congr fun s globals now resolved hgives => ?_
      exact execute_congr hget (Template.rewritten_of_gives hgives) fun frame c hc =>
        ih (by omega) (by omega)

/-- **Dispatch.** What an action holds is dispatched as it was itself. -/
theorem dispatch_eq : dispatch Catalogue.registry ctx frame config =
    dispatchWith Catalogue.registry ctx (dispatch Catalogue.registry ctx) frame config := by
  refine bind_congr fun _ => Act.ofExcept_bind_congr fun kind hget =>
    Act.resolving_bind_congr fun s globals now resolved hgives => ?_
  exact execute_congr hget (Template.rewritten_of_gives hgives) fun frame c hc =>
    dispatchWithin_eq hc (Nat.lt_succ_self _)

end Action

end Runbook
