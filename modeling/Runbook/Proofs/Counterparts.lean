import Runbook.Proofs.Deferral
import Mathlib.Data.List.Forall2

/-!
# Documents checked side by side

Two configurations that differ in a few values only are refused with the same problems, or are both
accepted, and then differ in nothing else. What a check finds in a field depends on the value of
that field alone, so it is enough that the kind of each field makes no difference between the values
that may differ there.

* `Likewise R x y`: two results, both an error, and the same one, or both a value, with these in
  `R`.
* `Fieldwise R fs gs`: fields of the same names whose values are in the relation for the name.
* `Objectwise R x y`: the same for documents: they are equal, or objects with such fields.
* `Kind.check_model_likewise`: what the check of a model makes of two objects.
* `Kind.check_texts_likewise`: the same for a dictionary of texts.
-/

namespace Runbook

variable {α β : Type}

/-! ### Results -/

/-- Two results that fail in the same way, or succeed with values in `R`. -/
inductive Likewise {ε : Type} (R : α → β → Prop) : Except ε α → Except ε β → Prop
  | error (e : ε) : Likewise R (.error e) (.error e)
  | ok {a : α} {b : β} (h : R a b) : Likewise R (.ok a) (.ok b)

theorem likewise_refl {ε : Type} {R : α → α → Prop} (hR : ∀ a, R a a) (x : Except ε α) :
    Likewise R x x := by
  cases x with
  | error e => exact .error e
  | ok a => exact .ok (hR a)

theorem Likewise.map {ε γ δ : Type} {R : α → β → Prop} {S : γ → δ → Prop} {x : Except ε α}
    {y : Except ε β} {f : α → γ} {g : β → δ} (h : Likewise R x y)
    (hfg : ∀ a b, R a b → S (f a) (g b)) : Likewise S (x.map f) (y.map g) := by
  cases h with
  | error e => exact .error e
  | ok hR => exact .ok (hfg _ _ hR)

theorem Likewise.mono {ε : Type} {R S : α → β → Prop} {x : Except ε α} {y : Except ε β}
    (h : Likewise R x y) (hRS : ∀ a b, R a b → S a b) : Likewise S x y := by
  cases h with
  | error e => exact .error e
  | ok hR => exact .ok (hRS _ _ hR)

/-! ### Fields -/

/-- Fields of the same names, in the same order, whose values are in the relation for the name. -/
def Fieldwise (R : String → Json → Json → Prop) (fs gs : Fields) : Prop :=
  List.Forall₂ (fun f g => f.1 = g.1 ∧ R f.1 f.2 g.2) fs gs

/-- Documents that are equal, or objects with fields whose values are in the relation for the
name. -/
inductive Objectwise (R : String → Json → Json → Prop) : Json → Json → Prop
  | same (x : Json) : Objectwise R x x
  | object {fs gs : Fields} (h : Fieldwise R fs gs) : Objectwise R (.object fs) (.object gs)

/-- What is found after a field has been set. -/
theorem Fields.get?_set (fs : Fields) (key name : String) (x : Json) :
    Fields.get? (Fields.set fs key x) name =
      if key = name then some x else Fields.get? fs name := by
  induction fs with
  | nil => by_cases hkey : key = name <;> simp [Fields.set, Fields.get?, hkey]
  | cons f fs ih =>
    rw [Fields.set]
    by_cases hf : f.1 = key
    · by_cases hkey : key = name <;> simp [Fields.get?, hf, hkey]
    · rw [if_neg (by simpa using hf)]
      by_cases hname : f.1 = name
      · simp [Fields.get?, hname, show key ≠ name from fun h => hf (hname.trans h.symm)]
      · simpa [Fields.get?, hname] using ih

namespace Fieldwise

variable {R : String → Json → Json → Prop} {fs gs : Fields}

/-- Under each name there is nothing in both, or there are values in the relation. -/
theorem get?_cases (h : Fieldwise R fs gs) (key : String) :
    (Fields.get? fs key = none ∧ Fields.get? gs key = none) ∨
      ∃ x y, Fields.get? fs key = some x ∧ Fields.get? gs key = some y ∧ R key x y := by
  induction h with
  | nil => exact .inl ⟨rfl, rfl⟩
  | @cons f g fs gs hfg _ ih =>
    obtain ⟨hname, hR⟩ := hfg
    by_cases hkey : f.1 = key
    · refine .inr ⟨f.2, g.2, ?_, ?_, hkey ▸ hR⟩
      · simp [Fields.get?, hkey]
      · simp [Fields.get?, ← hname, hkey]
    · have hf : Fields.get? (f :: fs) key = Fields.get? fs key := by simp [Fields.get?, hkey]
      have hg : Fields.get? (g :: gs) key = Fields.get? gs key := by
        simp [Fields.get?, ← hname, hkey]
      rwa [hf, hg]

/-- Where the relation is equality, the same is found. -/
theorem get?_eq (h : Fieldwise R fs gs) {key : String} (hR : ∀ x y, R key x y → x = y) :
    Fields.get? fs key = Fields.get? gs key := by
  rcases h.get?_cases key with ⟨hf, hg⟩ | ⟨x, y, hf, hg, hxy⟩
  · rw [hf, hg]
  · rw [hf, hg, hR x y hxy]

/-- A choice by names chooses the same fields. -/
theorem filter (h : Fieldwise R fs gs) (p : String → Bool) :
    Fieldwise R (fs.filter fun f => p f.1) (gs.filter fun g => p g.1) := by
  induction h with
  | nil => exact .nil
  | @cons f g fs gs hfg _ ih =>
    rw [List.filter_cons, List.filter_cons, ← hfg.1]
    split
    · exact .cons hfg ih
    · exact ih

theorem refl (hR : ∀ name x, R name x x) (fs : Fields) : Fieldwise R fs fs :=
  List.forall₂_same.mpr fun f _ => ⟨rfl, hR f.1 f.2⟩

end Fieldwise

/-! ### Checks -/

namespace Kind

variable {write : Json → String} {R : String → Json → Json → Prop}

/-- The problems that a check has found. -/
def problemsOf : Except (List Problem) α → List Problem
  | .error ps => ps
  | .ok _ => []

theorem collect_eq (results : List (Except (List Problem) α)) : collect results =
    if (results.flatMap problemsOf).isEmpty then .ok (results.filterMap Except.toOption)
    else .error (results.flatMap problemsOf) := by
  have hvalues {g : Except (List Problem) α → Option α} (hg : ∀ x, g x = x.toOption) :
      results.filterMap g = results.filterMap Except.toOption := by
    rw [funext hg]
  unfold collect
  dsimp only
  rw [hvalues fun x => by cases x <;> rfl]
  rfl

/-- Checks that are joined go likewise when each of them does. -/
theorem collect_likewise {S : α → α → Prop} {results results' : List (Except (List Problem) α)}
    (h : List.Forall₂ (Likewise S) results results') :
    Likewise (List.Forall₂ S) (collect results) (collect results') := by
  have hproblems : results.flatMap problemsOf = results'.flatMap problemsOf := by
    induction h with
    | nil => rfl
    | cons hx _ ih =>
      rw [List.flatMap_cons, List.flatMap_cons, ih]
      cases hx <;> rfl
  have hvalues : List.Forall₂ S (results.filterMap Except.toOption)
      (results'.filterMap Except.toOption) := by
    clear hproblems
    induction h with
    | nil => exact .nil
    | cons hx _ ih =>
      cases hx with
      | error ps => exact ih
      | ok hS => exact .cons hS ih
  rw [collect_eq, collect_eq, hproblems]
  split
  · exact .ok hvalues
  · exact .error _

/-- A kind makes no difference between values that may stand under a name. -/
def Indifferent (write : Json → String) (R : String → Json → Json → Prop) (name : String)
    (kind : Kind) : Prop :=
  ∀ x y, R name x y → Likewise (R name) (check write kind x) (check write kind y)

section Fields

variable (hrefl : ∀ name x, R name x x)

include hrefl

/-- A kind makes no difference between values that are equal. -/
theorem indifferent_of_eq {name : String} (kind : Kind) (hR : ∀ x y, R name x y → x = y) :
    Indifferent write R name kind := by
  intro x y h
  obtain rfl := hR x y h
  exact likewise_refl (hrefl name) _

/-- A field whose value is taken as it is goes likewise when its kind makes no difference. -/
theorem checkField_likewise {name : String} {kind : Kind} {default : Option Json}
    (hkind : Indifferent write R name kind) {fs gs : Fields} (h : Fieldwise R fs gs) :
    Likewise (fun f g => f.1 = g.1 ∧ R f.1 f.2 g.2)
      (checkField write (.mk name none kind default .asIs) fs)
      (checkField write (.mk name none kind default .asIs) gs) := by
  unfold checkField
  rcases h.get?_cases name with ⟨hf, hg⟩ | ⟨x, y, hf, hg, hxy⟩
  · simp only [Field.given?, Field.otherKey, Field.name, hf, hg]
    exact likewise_refl (fun f => ⟨rfl, hrefl _ _⟩) _
  · simp only [Field.given?, Field.otherKey, Field.name, hf, hg, Preparation.apply,
      Option.bind_none, Option.orElse, Option.map_some]
    have hchecked := hkind x y hxy
    generalize check write kind x = a at hchecked
    generalize check write kind y = b at hchecked
    cases hchecked with
    | error ps => exact .error _
    | ok hR => exact .ok ⟨rfl, hR⟩

/-- The check of a model goes likewise when each of its fields takes its value as it is, and the
kind of none of them makes a difference. -/
theorem check_model_likewise {name : String} {keepExtra : Bool} {fields : List Field}
    (hfields : ∀ field ∈ fields, ∃ key kind default,
      field = .mk key none kind default .asIs ∧ Indifferent write R key kind)
    {x y : Json} (h : Objectwise R x y) :
    Likewise (Objectwise R) (check write (.model name keepExtra fields) x)
      (check write (.model name keepExtra fields) y) := by
  cases h with
  | same => exact likewise_refl .same _
  | @object fs gs h =>
    have hcollected : Likewise (Fieldwise R) (collect (checkFields write fields fs))
        (collect (checkFields write fields gs)) := by
      refine collect_likewise ?_
      rw [checkFields_eq_map, checkFields_eq_map, List.forall₂_map_left_iff,
        List.forall₂_map_right_iff, List.forall₂_same]
      intro field hfield
      obtain ⟨key, kind, default, rfl, hkind⟩ := hfields field hfield
      exact checkField_likewise hrefl hkind h
    unfold check
    dsimp only
    generalize collect (checkFields write fields fs) = a at hcollected
    generalize collect (checkFields write fields gs) = b at hcollected
    cases hcollected with
    | error ps => exact .error ps
    | ok hdeclared =>
      refine .ok (.object (List.rel_append hdeclared ?_))
      split
      · exact h.filter fun key => !fields.any fun d => d.name == key || d.otherKey == some key
      · exact .nil

end Fields

/-- Any text is checked to be one, and stays as it is. -/
theorem check_anyText (write : Json → String) (s : String) :
    check write (.text 0) (.text s) = .ok (.text s) := by
  unfold check
  simp

theorem check_dictionary_object (value : Kind) (fs : Fields) :
    check write (.dictionary value) (.object fs) =
      (collect (fs.map fun f => under (.key f.1) (check write value f.2))).map
        fun ys => .object ((fs.map Prod.fst).zip ys) := by
  rw [check]
  split
  · rename_i ps hcollect
    replace hcollect :
        collect (fs.map fun f => under (.key f.1) (check write value f.2)) = .error ps := hcollect
    rw [hcollect]
    rfl
  · rename_i ys hcollect
    replace hcollect :
        collect (fs.map fun f => under (.key f.1) (check write value f.2)) = .ok ys := hcollect
    rw [hcollect]
    rfl

/-- What is checked to be a dictionary of texts stays as it is. -/
theorem eq_of_check_texts {fs : Fields} {y : Json}
    (h : check write (.dictionary (.text 0)) (.object fs) = .ok y) : y = .object fs := by
  rw [check_dictionary_object] at h
  cases hcollect : collect (fs.map fun f => under (.key f.1) (check write (.text 0) f.2)) with
  | error ps =>
    rw [hcollect] at h
    cases h
  | ok ys =>
    have hall : (fs.map fun f => under (.key f.1) (check write (.text 0) f.2)) =
        (fs.map Prod.snd).map .ok := by
      rw [List.map_map]
      refine List.map_congr_left fun f hf => ?_
      rcases check_text write 0 f.2 with ⟨-, hchecked⟩ | ⟨v, hchecked⟩
      · rw [hchecked]
        rfl
      · have hmem : .error [⟨[.key f.1], v⟩] ∈
            fs.map fun f => under (.key f.1) (check write (.text 0) f.2) :=
          List.mem_map.mpr ⟨f, hf, by rw [hchecked]; rfl⟩
        exact absurd hmem ((eq_filterMap_of_collect hcollect).2 _ _)
    obtain rfl : fs.map Prod.snd = ys := by
      rw [hall, collect_map_ok] at hcollect
      exact Except.ok.inj hcollect
    rw [hcollect, Except.map, ← List.zip_of_prod rfl rfl] at h
    exact (Except.ok.inj h).symm

/-- The check of a dictionary of texts goes likewise when only texts may stand in the place of
others. -/
theorem check_texts_likewise
    (hR : ∀ name x y, R name x y → x = y ∨ ∃ a b, x = .text a ∧ y = .text b) {x y : Json}
    (h : Objectwise R x y) :
    Likewise (Objectwise R) (check write (.dictionary (.text 0)) x)
      (check write (.dictionary (.text 0)) y) := by
  cases h with
  | same => exact likewise_refl .same _
  | @object fs gs h =>
    have hcollected : Likewise (List.Forall₂ fun _ _ => True)
        (collect (fs.map fun f => under (.key f.1) (check write (.text 0) f.2)))
        (collect (gs.map fun g => under (.key g.1) (check write (.text 0) g.2))) := by
      refine collect_likewise ?_
      rw [List.forall₂_map_left_iff, List.forall₂_map_right_iff]
      refine h.imp ?_
      rintro ⟨name, x⟩ ⟨-, y⟩ ⟨rfl, hxy⟩
      rcases hR name x y hxy with rfl | ⟨a, b, rfl, rfl⟩
      · exact likewise_refl (fun _ => trivial) _
      · rw [check_anyText, check_anyText]
        exact .ok trivial
    have hresults : Likewise (fun _ _ => True) (check write (.dictionary (.text 0)) (.object fs))
        (check write (.dictionary (.text 0)) (.object gs)) := by
      rw [check_dictionary_object, check_dictionary_object]
      exact hcollected.map fun _ _ _ => trivial
    -- Once they are accepted, both objects are what they were.
    generalize hx : check write (.dictionary (.text 0)) (.object fs) = a at hresults
    generalize hy : check write (.dictionary (.text 0)) (.object gs) = b at hresults
    cases hresults with
    | error e => exact .error e
    | ok =>
      rw [eq_of_check_texts hx, eq_of_check_texts hy]
      exact .ok (.object h)

/-- Where a dictionary is refused, a problem is named. -/
theorem check_dictionary_ne_error_nil (value : Kind) (x : Json) :
    check write (.dictionary value) x ≠ .error [] := by
  unfold check
  split
  · split
    · rename_i ps hcollect
      rintro ⟨⟩
      exact collect_ne_error_nil _ hcollect
    · rintro ⟨⟩
  · rintro ⟨⟩

/-- Where a field with a default is refused, a problem is named. -/
theorem checkField_withDefault_ne_error_nil {key : String} {kind : Kind} {default : Json}
    (hfails : ∀ z, check write kind z ≠ .error []) (raw : Fields) :
    checkField write (.withDefault key kind default) raw ≠ .error [] := by
  rw [checkField_withDefault]
  split
  · exact under_map_ne_error_nil (hfails _)
  · exact nofun

/-- The check of a model gives, for a field with a default, what the check of the value that is
given for it comes to, or else the default. -/
theorem get?_of_check_model (before : List Field) {name key : String} {keepExtra : Bool}
    {kind : Kind} {default x y : Json} {after : List Field}
    (hbefore : ∀ field ∈ before, field.name ≠ key) (hfails : ∀ z, check write kind z ≠ .error [])
    (h : check write (.model name keepExtra (before ++ .withDefault key kind default :: after)) x =
      .ok y) :
    ∃ value, Fields.get? y.fields key = some value ∧
      match Fields.get? x.fields key with
      | some given => check write kind given = .ok value
      | none => value = default := by
  obtain ⟨value, hchecked, hvalue⟩ :=
    get?_of_checkField hbefore (checkField_withDefault_ne_error_nil hfails) h
  refine ⟨value, hvalue, ?_⟩
  rw [checkField_withDefault] at hchecked
  split
  · rename_i given hgiven
    rw [hgiven] at hchecked
    exact eq_ok_of_under_map hchecked
  · rename_i hgiven
    rw [hgiven] at hchecked
    cases hchecked
    rfl

end Kind

end Runbook
