import Runbook.Json.Writer
import Runbook.Proofs.Weights

/-!
# Documents without foreign values

A document may hold values that have no JSON text, for it may come from elsewhere. A document that
is read from JSON text holds none, and neither does any part of a document that holds none.

* `Json.Native x`: no part of a document is foreign.
* `Json.native_list_iff`, `Json.native_object_iff`: nor is any item, nor the value of any field.
* `Json.native_of_read`: what is read from JSON text is native.
-/

namespace Runbook.Json

/-- No part of a document is foreign, so that the document has JSON text. -/
def Native (x : Json) : Prop := x.foreignType? = none

/-! ### Parts -/

theorem foreignInList?_eq_none_iff {items : List Json} :
    foreignInList? items = none ↔ ∀ x ∈ items, Native x := by
  induction items with
  | nil => simp [foreignInList?]
  | cons x items ih =>
    rw [foreignInList?, Option.orElse_eq_or, Option.or_eq_none_iff, ih, List.forall_mem_cons,
      Native]

theorem foreignInFields?_eq_none_iff {fields : Fields} :
    foreignInFields? fields = none ↔ ∀ f ∈ fields, Native f.2 := by
  induction fields with
  | nil => simp [foreignInFields?]
  | cons f fields ih =>
    rw [foreignInFields?, Option.orElse_eq_or, Option.or_eq_none_iff, ih, List.forall_mem_cons,
      Native]

theorem native_list_iff {items : List Json} : Native (.list items) ↔ ∀ x ∈ items, Native x := by
  rw [Native, foreignType?, foreignInList?_eq_none_iff]

theorem native_object_iff {fields : Fields} :
    Native (.object fields) ↔ ∀ f ∈ fields, Native f.2 := by
  rw [Native, foreignType?, foreignInFields?_eq_none_iff]

theorem native_of_fieldsGet? {fields : Fields} (h : Native (.object fields)) {key : String}
    {x : Json} (hx : Fields.get? fields key = some x) : Native x := by
  obtain ⟨f, hf, rfl⟩ := Option.map_eq_some_iff.mp hx
  exact native_object_iff.mp h f (List.mem_of_find?_eq_some hf)

theorem Native.get? {x y : Json} (h : Native x) {key : String} (hy : x.get? key = some y) :
    Native y := by
  cases x with
  | object fields => exact native_of_fieldsGet? h hy
  | _ => cases hy

theorem Native.fields {x : Json} (h : Native x) : Native (.object x.fields) := by
  cases x with
  | object fields => exact h
  | _ => exact native_object_iff.mpr (by simp [Json.fields])

theorem native_of_mem_listAt {fields : Fields} (h : Native (.object fields)) {key : String}
    {x : Json} (hx : x ∈ Fields.listAt fields key) : Native x := by
  unfold Fields.listAt at hx
  split at hx
  · exact native_list_iff.mp (native_of_fieldsGet? h ‹_›) x hx
  · cases hx

theorem native_objectAt {fields : Fields} (h : Native (.object fields)) (key : String) :
    Native (.object (Fields.objectAt fields key)) := by
  unfold Fields.objectAt
  split
  · exact native_of_fieldsGet? h ‹_›
  · exact native_object_iff.mpr (by simp)

/-! ### Texts -/

theorem mem_of_mem_set {fields : Fields} {key : String} {x : Json} {f : String × Json}
    (h : f ∈ Fields.set fields key x) : f ∈ fields ∨ f.2 = x := by
  induction fields with
  | nil =>
    rw [Fields.set, List.mem_singleton] at h
    exact .inr (congrArg Prod.snd h)
  | cons g fields ih =>
    rw [Fields.set] at h
    split at h
    · rcases List.mem_cons.mp h with rfl | h
      · exact .inr rfl
      · exact .inl (.tail _ h)
    · rcases List.mem_cons.mp h with rfl | h
      · exact .inl (.head _)
      · exact (ih h).imp_left (.tail _)

theorem native_ofPairs {pairs : List (String × Json)} (h : ∀ f ∈ pairs, Native f.2) :
    Native (.object (Fields.ofPairs pairs)) := by
  have hfold : ∀ fields : Fields, (∀ f ∈ fields, Native f.2) →
      ∀ f ∈ pairs.foldl (fun fields f => Fields.set fields f.1 f.2) fields, Native f.2 := by
    induction pairs with
    | nil => exact fun _ hfields => hfields
    | cons g pairs ih =>
      refine fun fields hfields => ih (fun f hf => h f (.tail _ hf)) _ fun f hf => ?_
      rcases mem_of_mem_set hf with hf | heq
      · exact hfields f hf
      · exact heq ▸ h g (.head _)
  exact native_object_iff.mpr (hfold [] (by simp))

theorem native_of_atom {cs rest : List Char} {x : Json} (h : atom cs = .ok (x, rest)) :
    Native x := by
  unfold atom at h
  split at h
  · rename_i r hr
    cases h
    obtain ⟨w, hw, hfound⟩ := List.exists_of_findSome?_eq_some hr
    obtain ⟨rest', -, heq⟩ := Option.map_eq_some_iff.mp hfound
    cases heq
    have hwords : ∀ w ∈ words, w.2.foreignType? = none := by decide +kernel
    exact hwords w hw
  · split at h
    · rename_i r hr
      cases h
      unfold number? at hr
      dsimp only at hr
      split at hr
      · cases hr
      · split at hr
        · cases hr
          rfl
        · split at hr <;> cases hr <;> rfl
    · cases h

mutual

/-- A value that is read is native. -/
theorem native_of_value {fuel : Nat} {cs rest : List Char} {x : Json}
    (h : value fuel cs = .ok (x, rest)) : Native x := by
  cases fuel with
  | zero => cases h
  | succ fuel =>
    unfold value at h
    split at h
    · obtain ⟨⟨s, rest₁⟩, -, h⟩ := exists_of_bind_eq_ok h
      cases h
      rfl
    · split at h
      · cases h
        rfl
      · exact native_of_items (by simp) h
    · split at h
      · cases h
        rfl
      · exact native_of_members (by simp) h
    · exact native_of_atom h

/-- The same for a list, from one of its items on. -/
theorem native_of_items {fuel : Nat} {before : List Json} {cs rest : List Char} {x : Json}
    (hbefore : ∀ y ∈ before, Native y) (h : items fuel before cs = .ok (x, rest)) : Native x := by
  cases fuel with
  | zero => cases h
  | succ fuel =>
    unfold items at h
    split at h
    · cases h
    rename_i y rest₁ hvalue
    have hnext : ∀ z ∈ y :: before, Native z :=
      List.forall_mem_cons.mpr ⟨native_of_value hvalue, hbefore⟩
    split at h
    · cases h
      exact native_list_iff.mpr fun z hz => hnext z (List.mem_reverse.mp hz)
    · exact native_of_items hnext h
    · cases h

/-- The same for an object, from one of its members on. -/
theorem native_of_members {fuel : Nat} {before : Fields} {cs rest : List Char} {x : Json}
    (hbefore : ∀ f ∈ before, Native f.2) (h : members fuel before cs = .ok (x, rest)) :
    Native x := by
  cases fuel with
  | zero => cases h
  | succ fuel =>
    unfold members at h
    split at h
    · cases h
    rename_i key rest₁ hname
    split at h
    · cases h
    rename_i y rest₂ hvalue
    have hnext : ∀ f ∈ (key, y) :: before, Native f.2 :=
      List.forall_mem_cons.mpr ⟨native_of_value hvalue, hbefore⟩
    split at h
    · cases h
      exact native_ofPairs fun f hf => hnext f (List.mem_reverse.mp hf)
    · exact native_of_members hnext h
    · cases h

end

/-- What is read from JSON text is native. -/
theorem native_of_read {s : String} {x : Json} (h : read s = .ok x) : Native x := by
  unfold read at h
  split at h
  · rename_i hdocument
    cases h
    unfold document at hdocument
    split at hdocument
    · cases hdocument
    · obtain ⟨⟨y, rest⟩, hvalue, hdocument⟩ := exists_of_bind_eq_ok hdocument
      dsimp only at hdocument
      split at hdocument
      · cases hdocument
        exact native_of_value hvalue
      · cases hdocument
  · cases h

end Runbook.Json
