import Runbook.Json.Reader
import Runbook.Action.Nested

/-!
# Weights of documents

A document weighs more than each of its parts. It weighs no more than the text that it was read
from, for everything that counts takes a character. So the configuration of a nested action weighs
less than the entry which it stands in, written as text or not.

* `Json.weight_le_of_read`: what is read weighs no more than the text.
* `NestedAction.weightFields_lt_of_ofEntry?`: a configuration weighs less than its entry.
-/

namespace Runbook

/-! ### Parts -/

namespace Json

theorem weight_pos (x : Json) : 0 < x.weight := by
  cases x <;> simp only [weight] <;> omega

theorem weight_lt_of_getElem? {items : List Json} {x : Json} {i : Nat} (h : items[i]? = some x) :
    x.weight < weightList items := by
  induction items generalizing i with
  | nil => cases h
  | cons item items ih =>
    cases i with
    | zero =>
      obtain rfl := Option.some.inj h
      simp only [weightList]
      omega
    | succ i =>
      have := ih (i := i) h
      simp only [weightList]
      omega

theorem weight_lt_of_get? {fields : Fields} {key : String} {x : Json}
    (h : Fields.get? fields key = some x) : x.weight < weightFields fields := by
  induction fields with
  | nil => cases h
  | cons f fields ih =>
    obtain ⟨k, y⟩ := f
    simp only [weightFields]
    by_cases hk : k = key
    · obtain rfl : y = x := by simpa [Fields.get?, hk] using h
      omega
    · have := ih (by simpa [Fields.get?, hk] using h)
      omega

theorem weightList_append (xs ys : List Json) :
    weightList (xs ++ ys) = weightList xs + weightList ys := by
  induction xs with
  | nil => simp [weightList]
  | cons x xs ih =>
    simp only [List.cons_append, weightList, ih]
    omega

theorem weightList_reverse (xs : List Json) : weightList xs.reverse = weightList xs := by
  induction xs with
  | nil => rfl
  | cons x xs ih =>
    simp only [List.reverse_cons, weightList_append, ih, weightList]
    omega

/-- To set a field adds its weight at most. -/
theorem weightFields_set_le (fields : Fields) (key : String) (x : Json) :
    weightFields (Fields.set fields key x) ≤ weightFields fields + x.weight + 1 := by
  induction fields with
  | nil =>
    simp only [Fields.set, weightFields]
    omega
  | cons f fields ih =>
    obtain ⟨k, y⟩ := f
    rw [Fields.set]
    split <;> simp only [weightFields] <;> omega

/-- Repeated keys do not count. -/
theorem weightFields_ofPairs_le (pairs : List (String × Json)) :
    weightFields (Fields.ofPairs pairs) ≤ weightFields pairs := by
  have hfold : ∀ fields : Fields,
      weightFields (pairs.foldl (fun fields f => Fields.set fields f.1 f.2) fields) ≤
        weightFields fields + weightFields pairs := by
    induction pairs with
    | nil => exact fun _ => Nat.le_refl _
    | cons f pairs ih =>
      intro fields
      have hset := weightFields_set_le fields f.1 f.2
      have := ih (Fields.set fields f.1 f.2)
      simp only [List.foldl_cons, weightFields]
      omega
  simpa [Fields.ofPairs, weightFields] using hfold []

theorem weightFields_append (fs gs : Fields) :
    weightFields (fs ++ gs) = weightFields fs + weightFields gs := by
  induction fs with
  | nil => simp [weightFields]
  | cons f fs ih =>
    simp only [List.cons_append, weightFields, ih]
    omega

theorem weightFields_reverse (fs : Fields) : weightFields fs.reverse = weightFields fs := by
  induction fs with
  | nil => rfl
  | cons f fs ih =>
    simp only [List.reverse_cons, weightFields_append, ih, weightFields]
    omega

/-! ### Texts -/

theorem exists_of_bind_eq_ok {ε α β : Type} {x : Except ε α} {f : α → Except ε β} {b : β}
    (h : x >>= f = .ok b) : ∃ a, x = .ok a ∧ f a = .ok b := by
  cases x with
  | error e => cases h
  | ok a => exact ⟨a, rfl, h⟩

theorem exists_of_bind_eq_error {ε α β : Type} {x : Except ε α} {f : α → Except ε β} {e : ε}
    (h : x >>= f = .error e) : x = .error e ∨ ∃ a, x = .ok a ∧ f a = .error e := by
  cases x with
  | ok a => exact .inr ⟨a, rfl, h⟩
  | error e' =>
    cases h
    exact .inl rfl

theorem exists_ok {ε α β : Type} {x : Except ε α} {f : α → β} {b : β}
    (h : x.toOption.map f = some b) : ∃ a, x = .ok a ∧ f a = b := by
  cases x with
  | ok a => exact ⟨a, rfl, Option.some.inj h⟩
  | error e => cases h

theorem length_skip_le (cs : List Char) : (skip cs).length ≤ cs.length :=
  (List.dropWhile_suffix _).length_le

theorem codeUnit_length {place cs rest : List Char} {n : Nat}
    (h : codeUnit place cs = .ok (n, rest)) : rest.length ≤ cs.length := by
  unfold codeUnit at h
  split at h
  · cases h
  · split at h <;> cases h
    simp

theorem lowUnit_length {cs rest : List Char} {n : Nat} (h : lowUnit cs = .ok (some (n, rest))) :
    rest.length ≤ cs.length := by
  unfold lowUnit at h
  split at h
  · split at h
    · cases h
    · split at h
      · cases h
      · rename_i rest' _ _ _
        cases hlow : isLowUnit _ <;> rw [hlow] at h <;> cases h
        simp
        omega
  · cases h

/-- An escape takes a character at least. -/
theorem escape_length {start : Nat} {cs rest : List Char} {c : Char}
    (h : escape start cs = .ok (c, rest)) : rest.length < cs.length := by
  unfold escape at h
  split at h
  · cases h
  · rename_i digits
    obtain ⟨⟨unit, rest₁⟩, hunit, h⟩ := exists_of_bind_eq_ok h
    have h₁ := codeUnit_length hunit
    dsimp only at h
    split at h
    · obtain ⟨low?, hlow, h⟩ := exists_of_bind_eq_ok h
      split at h
      · have h₂ := lowUnit_length hlow
        obtain ⟨-, rfl⟩ := Prod.mk.inj (Except.ok.inj h)
        simp only [List.length_cons]
        omega
      · obtain ⟨-, rfl⟩ := Prod.mk.inj (Except.ok.inj h)
        simp only [List.length_cons]
        omega
    · obtain ⟨-, rfl⟩ := Prod.mk.inj (Except.ok.inj h)
      simp only [List.length_cons]
      omega
  · dsimp only at h
    split at h <;> cases h
    simp

theorem stringBody_length {start fuel : Nat} {done cs rest : List Char} {s : String}
    (h : stringBody start fuel done cs = .ok (s, rest)) :
    s.length + rest.length < done.length + cs.length := by
  induction fuel generalizing done cs with
  | zero => cases h
  | succ fuel ih =>
    unfold stringBody at h
    split at h
    · cases h
    · cases h
      simp
    · split at h
      · rename_i c rest' hescape
        have := escape_length hescape
        have := ih h
        simp only [List.length_cons] at this ⊢
        omega
      · cases h
    · split at h
      · cases h
      · have := ih h
        simp only [List.length_cons] at this ⊢
        omega

theorem string_length {cs rest : List Char} {s : String} (h : string cs = .ok (s, rest)) :
    s.length + rest.length < cs.length := by
  have := stringBody_length h
  simpa using this

/-! ### Words and numerals -/

theorem word?_length {w : String} {cs rest : List Char} (h : word? w cs = some rest) :
    rest.length + w.length = cs.length := by
  unfold word? at h
  split at h
  · rename_i hw
    have := (List.isPrefixOf_iff_prefix.mp hw).length_le
    cases h
    rw [String.length_toList] at this
    simp only [List.length_drop]
    omega
  · cases h

theorem exponentPart_length {cs rest : List Char} {e : Int}
    (h : exponentPart cs = some (e, rest)) : rest.length ≤ cs.length := by
  unfold exponentPart at h
  split at h
  · rename_i c cs
    have hsign : (Numeral.takeSign cs).2.length ≤ cs.length := by
      unfold Numeral.takeSign
      split <;> simp
    have hdigits := (List.dropWhile_suffix Char.isDigit (l := (Numeral.takeSign cs).2)).length_le
    split at h
    · dsimp only at h
      split at h <;> cases h
      simp only [List.length_cons]
      omega
    · cases h
  · cases h

theorem number?_length {cs rest : List Char} {x : Json} (h : number? cs = some (x, rest)) :
    x.weight + rest.length ≤ cs.length := by
  unfold number? at h
  split at h
  rename_i negative body hbody
  have hsign : body.length ≤ cs.length := by
    unfold takeMinus at hbody
    split at hbody <;> cases hbody <;> simp
  extract_lets whole at h
  have hwhole : whole.length ≤ body.length := by
    dsimp only [whole]
    unfold wholeDigits
    split
    · simp
    · exact (List.takeWhile_prefix _).length_le
  split at h
  · cases h
  rename_i left fraction afterFraction n hsome
  have hpos : 0 < whole.length := List.length_pos_iff.mpr (by simpa using hsome)
  have hleft : left.length + whole.length = body.length := by
    simp only [left, List.length_drop]
    omega
  have hafter : afterFraction.length ≤ left.length := by
    dsimp only [afterFraction]
    split <;> simp
  clear_value left fraction afterFraction n
  split at h
  · have := exponentPart_length ‹_›
    cases h
    simp only [weight]
    omega
  · split at h <;> cases h <;> simp only [weight] <;> omega

/-- A word or a numeral takes a character at least, and that is what it weighs. -/
theorem weight_le_of_atom {cs rest : List Char} {x : Json} (h : atom cs = .ok (x, rest)) :
    x.weight + rest.length ≤ cs.length := by
  unfold atom at h
  split at h
  · rename_i r hr
    cases h
    obtain ⟨w, hw, hfound⟩ := List.exists_of_findSome?_eq_some hr
    obtain ⟨rest', hrest, heq⟩ := Option.map_eq_some_iff.mp hfound
    cases heq
    have hlength := word?_length hrest
    have hweight : ∀ w ∈ words, w.2.weight ≤ w.1.length := by decide
    have := hweight w hw
    omega
  · split at h
    · rename_i r hr
      cases h
      exact number?_length hr
    · cases h

/-! ### Lists and objects -/

/-- A key with its colon takes a character at least. -/
theorem name_length {cs rest : List Char} {key : String} (h : name cs = .ok (key, rest)) :
    rest.length < cs.length := by
  unfold name at h
  split at h
  · rename_i cs
    obtain ⟨⟨key', rest₁⟩, hstring, h⟩ := exists_of_bind_eq_ok h
    have h₁ := string_length hstring
    have h₂ := length_skip_le rest₁
    dsimp only at h
    split at h
    · rename_i rest₂ hskip
      have h₃ := length_skip_le rest₂
      cases h
      rw [hskip] at h₂
      simp only [List.length_cons] at h₂ ⊢
      omega
    · cases h
  · cases h

mutual

/-- A value weighs no more than the characters that it takes. -/
theorem weight_le_of_value {fuel : Nat} {cs rest : List Char} {x : Json}
    (h : value fuel cs = .ok (x, rest)) : x.weight + rest.length ≤ cs.length := by
  cases fuel with
  | zero => cases h
  | succ fuel =>
    unfold value at h
    split at h
    · obtain ⟨⟨s, rest₁⟩, hstring, h⟩ := exists_of_bind_eq_ok h
      have := string_length hstring
      cases h
      simp only [weight, List.length_cons]
      omega
    · rename_i cs
      have hskip := length_skip_le cs
      split at h
      · rename_i hempty
        cases h
        rw [hempty] at hskip
        simp only [weight, weightList, List.length_cons] at hskip ⊢
        omega
      · have := weight_le_of_items h
        simp only [weightList, List.length_cons] at this ⊢
        omega
    · rename_i cs
      have hskip := length_skip_le cs
      split at h
      · rename_i hempty
        cases h
        rw [hempty] at hskip
        simp only [weight, weightFields, List.length_cons] at hskip ⊢
        omega
      · have := weight_le_of_members h
        simp only [weightFields, List.length_cons] at this ⊢
        omega
    · exact weight_le_of_atom h

/-- The same for a list, from one of its items on. -/
theorem weight_le_of_items {fuel : Nat} {before : List Json} {cs rest : List Char} {x : Json}
    (h : items fuel before cs = .ok (x, rest)) :
    x.weight + rest.length ≤ weightList before + cs.length + 1 := by
  cases fuel with
  | zero => cases h
  | succ fuel =>
    unfold items at h
    split at h
    · cases h
    rename_i y rest₁ hvalue
    have hy := weight_le_of_value hvalue
    have hskip := length_skip_le rest₁
    split at h
    · rename_i hrest
      cases h
      rw [hrest] at hskip
      simp only [weight, weightList_reverse, weightList, List.length_cons] at hskip ⊢
      omega
    · rename_i rest₂ hrest
      have hskip' := length_skip_le rest₂
      have := weight_le_of_items h
      rw [hrest] at hskip
      simp only [weightList, List.length_cons] at this hskip
      omega
    · cases h

/-- The same for an object, from one of its members on. -/
theorem weight_le_of_members {fuel : Nat} {before : Fields} {cs rest : List Char} {x : Json}
    (h : members fuel before cs = .ok (x, rest)) :
    x.weight + rest.length ≤ weightFields before + cs.length + 1 := by
  cases fuel with
  | zero => cases h
  | succ fuel =>
    unfold members at h
    split at h
    · cases h
    rename_i key rest₁ hname
    have hkey := name_length hname
    split at h
    · cases h
    rename_i y rest₂ hvalue
    have hy := weight_le_of_value hvalue
    have hskip := length_skip_le rest₂
    split at h
    · rename_i hrest
      cases h
      have hpairs := weightFields_ofPairs_le ((key, y) :: before).reverse
      rw [weightFields_reverse] at hpairs
      rw [hrest] at hskip
      simp only [weight, weightFields, List.length_cons] at hskip hpairs ⊢
      omega
    · rename_i rest₃ hrest
      have hskip' := length_skip_le rest₃
      have := weight_le_of_members h
      rw [hrest] at hskip
      simp only [weightFields, List.length_cons] at this hskip
      omega
    · cases h

end

/-- What is read weighs no more than the text. -/
theorem weight_le_of_read {s : String} {x : Json} (h : read s = .ok x) : x.weight ≤ s.length := by
  unfold read at h
  split at h
  · rename_i hdocument
    cases h
    unfold document at hdocument
    split at hdocument
    · cases hdocument
    obtain ⟨⟨y, rest⟩, hvalue, hrest⟩ := exists_of_bind_eq_ok hdocument
    have := weight_le_of_value hvalue
    have hskip := length_skip_le s.toList
    rw [String.length_toList] at hskip
    dsimp only at hrest
    split at hrest <;> cases hrest
    omega
  · cases h

end Json

/-! ### Nested actions -/

namespace NestedAction

theorem weightFields_lt_of_configOf? {raw : Json} {config : Fields}
    (h : configOf? raw = some config) : Json.weightFields config < raw.weight := by
  unfold configOf? at h
  split at h
  · split at h
    · cases h
      simp only [Json.weight]
      omega
    · split at h
      · rename_i hread
        have := Json.weight_le_of_read hread
        cases h
        simp only [Json.weight] at this ⊢
        omega
      · cases h
    · cases h
  · cases h
    exact Json.weight_pos raw

/-- The configuration of a nested action weighs less than its entry, written as text or not. -/
theorem weightFields_lt_of_ofEntry? {entry : Json} {defaultId : String} {a : NestedAction}
    (h : ofEntry? entry defaultId = some a) : Json.weightFields a.config < entry.weight := by
  unfold ofEntry? at h
  split at h
  · rename_i fields
    split at h
    · cases h
    · obtain ⟨config, hconfig, rfl⟩ := Option.map_eq_some_iff.mp h
      have hlt := weightFields_lt_of_configOf? hconfig
      simp only [Json.weight]
      cases hget : Fields.get? fields "action_config" with
      | none =>
        rw [hget] at hlt
        simp only [Option.getD_none, Json.weight] at hlt
        omega
      | some raw =>
        have := Json.weight_lt_of_get? hget
        rw [hget] at hlt
        simp only [Option.getD_some] at hlt
        omega
  · cases h

end NestedAction

end Runbook
