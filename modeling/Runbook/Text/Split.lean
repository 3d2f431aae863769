/-!
# Cutting a text at a character

`splitAt` cuts a list of characters at every occurrence of a separator; `joinWith` is its inverse.
`stripPrefix?` takes a known beginning off a text.
-/

namespace Runbook.Text

/-- The pieces between the occurrences of a character: one more than there are occurrences. -/
def splitAt (sep : Char) : List Char → List (List Char)
  | [] => [[]]
  | c :: cs =>
    if c = sep then [] :: splitAt sep cs
    else
      match splitAt sep cs with
      | piece :: rest => (c :: piece) :: rest
      | [] => [[c]]

/-- The pieces with a character between each two. -/
def joinWith (sep : Char) : List (List Char) → List Char
  | [] => []
  | [piece] => piece
  | piece :: rest => piece ++ sep :: joinWith sep rest

theorem splitAt_ne_nil (sep : Char) (cs : List Char) : splitAt sep cs ≠ [] := by
  cases cs with
  | nil => simp [splitAt]
  | cons c cs =>
    rw [splitAt]
    split
    · simp
    · split <;> simp

/-- Cutting loses nothing. -/
theorem joinWith_splitAt (sep : Char) (cs : List Char) : joinWith sep (splitAt sep cs) = cs := by
  induction cs with
  | nil => rfl
  | cons c cs ih =>
    rw [splitAt]
    split
    next h =>
      subst h
      cases hs : splitAt c cs with
      | nil => exact absurd hs (splitAt_ne_nil c cs)
      | cons p ps => rw [hs] at ih; rw [joinWith, ih]; simp; simp
    next h =>
      cases hs : splitAt sep cs with
      | nil => exact absurd hs (splitAt_ne_nil sep cs)
      | cons p ps =>
        rw [hs] at ih
        cases ps with
        | nil => simp only [joinWith] at ih ⊢; rw [ih]
        | cons q qs => simp only [joinWith] at ih ⊢; rw [← ih]; rfl

/-- The pieces of a text. -/
def pieces (sep : Char) (s : String) : List String :=
  (splitAt sep s.toList).map String.ofList

/-- What follows a known beginning. -/
def stripPrefix? (beginning s : String) : Option String :=
  if beginning.toList.isPrefixOf s.toList then
    some (String.ofList (s.toList.drop beginning.toList.length))
  else none

/-- A text is its known beginning and what follows. -/
theorem stripPrefix?_eq_some_iff {beginning s rest : String} :
    stripPrefix? beginning s = some rest ↔ s = beginning ++ rest := by
  unfold stripPrefix?
  constructor
  · intro h
    split at h
    · rename_i hbeginning
      obtain ⟨cs, hcs⟩ := List.isPrefixOf_iff_prefix.mp hbeginning
      rw [← hcs, List.drop_left] at h
      rw [← Option.some.inj h, ← String.toList_inj, ← hcs, String.toList_append,
        String.toList_ofList]
    · cases h
  · rintro rfl
    rw [String.toList_append, if_pos (List.isPrefixOf_iff_prefix.mpr (List.prefix_append ..)),
      List.drop_left, String.ofList_toList]

/-- Whether a text ends in another one. -/
def endsWith (s ending : String) : Bool := ending.toList.isSuffixOf s.toList

/-- Whether a list of characters occurs in another one. -/
def occurs (needle : List Char) : List Char → Bool
  | [] => needle.isEmpty
  | c :: cs => needle.isPrefixOf (c :: cs) || occurs needle cs

end Runbook.Text
