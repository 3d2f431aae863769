import Runbook.Number.Power
import Runbook.Time

/-!
# Points in time and their texts

The text of a point in time that exists reads back as that point in time. A field of the text is a
number padded with zeros: it consists of digits, so no separator occurs in it and the reader cuts
the text where the writer joined it, and its width is fixed, so the date takes the first ten
characters. What follows the time of day begins with no digit and no colon.
-/

namespace Runbook

namespace Text

theorem splitAt_of_not_mem {sep : Char} {cs : List Char} (h : sep ∉ cs) :
    splitAt sep cs = [cs] := by
  induction cs with
  | nil => rfl
  | cons c cs ih =>
    simp only [List.mem_cons, not_or] at h
    rw [splitAt, if_neg (Ne.symm h.1), ih h.2]

/-- A piece without the separator is cut off whole. -/
theorem splitAt_append {sep : Char} {piece : List Char} (h : sep ∉ piece) (rest : List Char) :
    splitAt sep (piece ++ sep :: rest) = piece :: splitAt sep rest := by
  induction piece with
  | nil => rw [List.nil_append, splitAt, if_pos rfl]
  | cons c cs ih =>
    simp only [List.mem_cons, not_or] at h
    rw [List.cons_append, splitAt, if_neg (Ne.symm h.1), ih h.2]

theorem toNat_of_isDigit {c : Char} (h : c.isDigit = true) : 48 ≤ c.toNat ∧ c.toNat ≤ 57 := by
  simpa [Char.isDigit, Char.le_def, UInt32.le_iff_toNat_le] using h

end Text

/-! ### Padded numbers -/

namespace Layout

variable {width n : Nat}

/-- The characters of a number padded with zeros. -/
def paddedChars (width n : Nat) : List Char :=
  List.replicate (width - (Nat.toDigits 10 n).length) '0' ++ Nat.toDigits 10 n

theorem toList_pushn (s : String) (c : Char) (n : Nat) :
    (s.pushn c n).toList = s.toList ++ List.replicate n c := by
  induction n with
  | zero => simp [String.pushn_eq_repeat_push, Nat.repeat]
  | succ n ih =>
    rw [String.pushn_eq_repeat_push] at ih ⊢
    rw [Nat.repeat, String.toList_push, ih, List.append_assoc, List.replicate_succ']

@[simp] theorem toList_padded (width n : Nat) : (padded width n).toList = paddedChars width n := by
  simp [padded, paddedChars, toList_pushn, ← String.length_toList]

theorem isDigit_of_mem_paddedChars {c : Char} (h : c ∈ paddedChars width n) : c.isDigit := by
  rcases List.mem_append.mp h with h | h
  · rw [List.eq_of_mem_replicate h]
    rfl
  · exact Nat.isDigit_of_mem_toDigits (by omega) (by omega) h

theorem not_mem_paddedChars {c : Char} (h : c.isDigit = false) : c ∉ paddedChars width n := by
  intro hc
  rw [isDigit_of_mem_paddedChars hc] at h
  cases h

theorem paddedChars_ne_nil : paddedChars width n ≠ [] := by
  simp [paddedChars]

/-- A number that fits is padded to the width. -/
theorem length_paddedChars (hwidth : 0 < width) (h : n < pow10 width) :
    (paddedChars width n).length = width := by
  have hlength : (Nat.toDigits 10 n).length ≤ width :=
    (Nat.length_toDigits_le_iff (by omega) hwidth).mpr h
  rw [paddedChars, List.length_append, List.length_replicate]
  omega

theorem ofDigitChars_paddedChars (width n : Nat) :
    Nat.ofDigitChars 10 (paddedChars width n) 0 = n := by
  rw [paddedChars, Nat.ofDigitChars_append, Nat.ofDigitChars_replicate_zero, Nat.mul_zero,
    Nat.ofDigitChars_ten_toDigits]

/-- A padded number reads back. -/
@[simp] theorem digits?_paddedChars (width n : Nat) :
    Timestamp.digits? (paddedChars width n) = some n := by
  have hdigits : (paddedChars width n).all Char.isDigit :=
    List.all_eq_true.mpr fun _ hc => isDigit_of_mem_paddedChars hc
  rw [Timestamp.digits?, if_pos (by simp [hdigits, paddedChars_ne_nil])]
  exact congrArg some (ofDigitChars_paddedChars width n)

end Layout

/-! ### The parts of a text -/

namespace Timestamp

open Layout (paddedChars)

/-- Three padded numbers between colons are a time of day. -/
theorem clock?_three (h m s : Nat) :
    clock? (paddedChars 2 h ++ ':' :: (paddedChars 2 m ++ ':' :: paddedChars 2 s))
      = some (h, m, s) := by
  have hpieces : Text.splitAt ':' (paddedChars 2 h ++ ':' :: (paddedChars 2 m ++ ':' ::
      paddedChars 2 s)) = [paddedChars 2 h, paddedChars 2 m, paddedChars 2 s] := by
    rw [Text.splitAt_append (Layout.not_mem_paddedChars rfl),
      Text.splitAt_append (Layout.not_mem_paddedChars rfl),
      Text.splitAt_of_not_mem (Layout.not_mem_paddedChars rfl)]
  simp [clock?, hpieces]

theorem clock?_two (h m : Nat) :
    clock? (paddedChars 2 h ++ ':' :: paddedChars 2 m) = some (h, m, 0) := by
  have hpieces : Text.splitAt ':' (paddedChars 2 h ++ ':' :: paddedChars 2 m)
      = [paddedChars 2 h, paddedChars 2 m] := by
    rw [Text.splitAt_append (Layout.not_mem_paddedChars rfl),
      Text.splitAt_of_not_mem (Layout.not_mem_paddedChars rfl)]
  simp [clock?, hpieces]

/-- An offset is a sign and hours and minutes, perhaps with seconds. -/
theorem toList_offsetText (s : Int) :
    (offsetText s).toList = (if s < 0 then '-' else '+') :: (paddedChars 2 (s.natAbs / 3600) ++
      ':' :: (paddedChars 2 (s.natAbs / 60 % 60) ++
        if s.natAbs % 60 = 0 then [] else ':' :: paddedChars 2 (s.natAbs % 60))) := by
  simp only [offsetText, String.toList_append, Layout.toList_padded]
  split <;> split <;> simp

/-- The time of day of an offset reads back as its size. -/
theorem clock?_offset (n : Nat) :
    clock? (paddedChars 2 (n / 3600) ++ ':' :: (paddedChars 2 (n / 60 % 60) ++
      if n % 60 = 0 then [] else ':' :: paddedChars 2 (n % 60)))
      = some (n / 3600, n / 60 % 60, n % 60) := by
  by_cases hn : n % 60 = 0
  · rw [if_pos hn, List.append_nil, clock?_two, hn]
  · rw [if_neg hn, clock?_three]

/-- An offset reads back. -/
theorem offset?_offsetText (s : Int) : offset? (offsetText s).toList = some (some s) := by
  have hsize : s.natAbs / 3600 * 3600 + s.natAbs / 60 % 60 * 60 + s.natAbs % 60 = s.natAbs := by
    omega
  rw [toList_offsetText]
  by_cases hs : s < 0
  · have hback : -(s.natAbs : Int) = s := by omega
    rw [if_pos hs, offset?, clock?_offset]
    · simp only [Option.bind_eq_bind, Option.bind_some, hsize, hback]
      rfl
    · simp
  · have hback : (s.natAbs : Int) = s := by omega
    rw [if_neg hs, offset?, clock?_offset]
    · simp only [Option.bind_eq_bind, Option.bind_some, hsize, hback]
      rfl
    · simp

/-- The text of an offset that may be unknown. -/
def offsetChars : Option Int → List Char
  | some s => (offsetText s).toList
  | none => []

theorem offset?_offsetChars (o : Option Int) : offset? (offsetChars o) = some o := by
  cases o with
  | none => rfl
  | some s => exact offset?_offsetText s

/-- An offset begins with a sign. -/
theorem head?_offsetChars {o : Option Int} {c : Char} (h : c ∈ (offsetChars o).head?) :
    c = '+' ∨ c = '-' := by
  cases o with
  | none => cases h
  | some s =>
    rw [offsetChars, toList_offsetText] at h
    by_cases hs : s < 0
    · exact .inr (by simpa [hs, eq_comm] using h)
    · exact .inl (by simpa [hs, eq_comm] using h)

/-! ### The whole text -/

/-- The characters of the time of day, without the fraction. -/
def clockChars (t : Timestamp) : List Char :=
  paddedChars 2 t.hour ++ ':' :: (paddedChars 2 t.minute ++ ':' :: paddedChars 2 t.second)

/-- The characters of the date. -/
def dateChars (t : Timestamp) : List Char :=
  paddedChars 4 t.year ++ '-' :: (paddedChars 2 t.month ++ '-' :: paddedChars 2 t.day)

/-- The fraction of a second, which is left out when it is zero. -/
def fractionChars (t : Timestamp) : List Char :=
  if t.micro = 0 then [] else '.' :: paddedChars 6 t.micro

theorem toList_toText (t : Timestamp) :
    t.toText.toList = t.dateChars ++ 'T' :: (t.clockChars ++
      (t.fractionChars ++ offsetChars t.offset)) := by
  have hfraction : (if t.micro = 0 then "" else "." ++ Layout.padded 6 t.micro).toList
      = t.fractionChars := by
    rw [fractionChars]
    split <;> simp
  rw [toText]
  simp only [String.toList_append, hfraction, Layout.toList_padded, dateChars, clockChars]
  cases t.offset <;> simp [offsetChars]

theorem daysIn_le (year month : Nat) : daysIn year month ≤ 31 := by
  unfold daysIn
  split
  · split <;> omega
  · split <;> omega

variable {t : Timestamp}

theorem Valid.length_dateChars (h : t.Valid) : t.dateChars.length = 10 := by
  have hday := daysIn_le t.year t.month
  have hyear : (paddedChars 4 t.year).length = 4 :=
    Layout.length_paddedChars (by omega) (show t.year < 10000 by have := h.year; omega)
  have hmonth : (paddedChars 2 t.month).length = 2 :=
    Layout.length_paddedChars (by omega) (show t.month < 100 by have := h.month; omega)
  have hdays : (paddedChars 2 t.day).length = 2 :=
    Layout.length_paddedChars (by omega) (show t.day < 100 by have := h.day; omega)
  simp [dateChars, hyear, hmonth, hdays]

/-- The date reads back. -/
theorem mapM_dateChars (t : Timestamp) :
    (Text.splitAt '-' t.dateChars).mapM digits? = some [t.year, t.month, t.day] := by
  rw [dateChars, Text.splitAt_append (Layout.not_mem_paddedChars rfl),
    Text.splitAt_append (Layout.not_mem_paddedChars rfl),
    Text.splitAt_of_not_mem (Layout.not_mem_paddedChars rfl)]
  simp

theorem isClock_of_mem_clockChars {c : Char} (h : c ∈ t.clockChars) : isClock c := by
  have hdigit : ∀ {n : Nat}, c ∈ paddedChars 2 n → isClock c := fun hc => by
    rw [isClock, Layout.isDigit_of_mem_paddedChars hc, Bool.true_or]
  simp only [clockChars, List.mem_append, List.mem_cons] at h
  rcases h with h | rfl | h | rfl | h
  · exact hdigit h
  · rfl
  · exact hdigit h
  · rfl
  · exact hdigit h

/-- What follows the time of day does not belong to it. -/
theorem split_clock (t : Timestamp) {rest : List Char}
    (hrest : ∀ c ∈ rest.head?, isClock c = false) :
    (t.clockChars ++ rest).takeWhile isClock = t.clockChars
      ∧ (t.clockChars ++ rest).dropWhile isClock = rest := by
  have hclock : ∀ c ∈ t.clockChars, isClock c := fun _ hc => isClock_of_mem_clockChars hc
  rw [List.takeWhile_append_of_pos hclock, List.dropWhile_append_of_pos hclock]
  cases rest with
  | nil => simp
  | cons c rest =>
    have hc : isClock c = false := hrest c rfl
    simp [hc]

/-- A fraction reads back, up to the offset. -/
theorem Valid.fraction?_fractionChars (h : t.Valid) :
    fraction? (t.fractionChars ++ offsetChars t.offset) = some (t.micro, offsetChars t.offset) := by
  rw [fractionChars]
  by_cases hmicro : t.micro = 0
  · rw [if_pos hmicro, List.nil_append, hmicro]
    -- an offset begins with a sign, so it is not taken for a fraction
    cases ho : offsetChars t.offset with
    | nil => rfl
    | cons c rest =>
      rcases head?_offsetChars (c := c) (by rw [ho]; rfl) with rfl | rfl <;> rfl
  · have hlength : (paddedChars 6 t.micro).length = 6 :=
      Layout.length_paddedChars (by omega) h.micro
    have hdigits : ∀ c ∈ paddedChars 6 t.micro, c.isDigit := fun _ hc =>
      Layout.isDigit_of_mem_paddedChars hc
    have hoffset : (offsetChars t.offset).takeWhile Char.isDigit = []
        ∧ (offsetChars t.offset).dropWhile Char.isDigit = offsetChars t.offset := by
      cases ho : offsetChars t.offset with
      | nil => exact ⟨rfl, rfl⟩
      | cons c rest =>
        rcases head?_offsetChars (c := c) (by rw [ho]; rfl) with rfl | rfl <;> exact ⟨rfl, rfl⟩
    have htake :
        (paddedChars 6 t.micro ++ List.replicate 6 '0').take 6 = paddedChars 6 t.micro := by
      rw [List.take_append_of_le_length (by omega), List.take_of_length_le (by omega)]
    rw [if_neg hmicro, List.cons_append, fraction?, List.takeWhile_append_of_pos hdigits,
      List.dropWhile_append_of_pos hdigits, hoffset.1, hoffset.2, List.append_nil, htake,
      Layout.digits?_paddedChars]
    rfl

/-- What follows the time of day begins with a point or a sign. -/
theorem not_isClock_of_mem_head? (t : Timestamp) {c : Char}
    (h : c ∈ (t.fractionChars ++ offsetChars t.offset).head?) : isClock c = false := by
  rw [fractionChars] at h
  split at h
  · rcases head?_offsetChars h with rfl | rfl <;> rfl
  · simp only [List.cons_append, List.head?_cons, Option.mem_def, Option.some.injEq] at h
    subst h
    rfl

/-- The text of a point in time that exists names its date, its time of day and its offset. -/
theorem Valid.parts?_toText (h : t.Valid) : parts? t.toText.toList = some t := by
  have hlength := h.length_dateChars
  have hhour : clock? t.clockChars = some (t.hour, t.minute, t.second) := clock?_three ..
  obtain ⟨hclock, hrest⟩ := t.split_clock fun _ hc => t.not_isClock_of_mem_head? hc
  rw [toList_toText, parts?, List.take_append_of_le_length (by omega),
    List.take_of_length_le (by omega), mapM_dateChars, List.drop_append_of_le_length (by omega),
    List.drop_of_length_le (by omega)]
  simp only [Option.bind_eq_bind, Option.bind_some, List.nil_append, hclock, hrest, hhour,
    h.fraction?_fractionChars, offset?_offsetChars]

/-- **The text of a point in time that exists reads back.** -/
theorem Valid.read?_toText (h : t.Valid) : read? t.toText = some t := by
  rw [read?, h.parts?_toText]
  simp [h]

example : read? "2024-02-30T00:00:00" = none := by decide

/-- The text of a point in time is not empty. -/
theorem toText_ne_empty (t : Timestamp) : t.toText ≠ "" := by
  intro h
  have hnil := congrArg String.toList h
  rw [toList_toText, dateChars] at hnil
  simp at hnil

end Timestamp

end Runbook
