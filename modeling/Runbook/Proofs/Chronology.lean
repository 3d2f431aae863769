import Runbook.Proofs.Dates
import Mathlib.Algebra.BigOperators.Intervals
import Mathlib.Algebra.Order.BigOperators.Group.Finset
import Mathlib.Data.String.Basic
import Mathlib.Order.Interval.Finset.Nat

/-!
# Points in time and their order

Points in universal time can be compared by their texts. The fields of the date and of the time of
day stand in the text from the greatest unit to the least, each padded to a width of its own, so the
first difference of two texts is a difference of the first field that differs, and numerals of one
width are in the order of their numbers. Only the fraction of a second may be missing, and then the
sign of the offset stands where the point would be; it comes before it.

What is earlier is said by the calendar: `instant t` counts the microseconds up to `t`, the days by
the lengths of the months.

* `Timestamp.toText_lt_iff`: texts are in the order of the fields.
* `Timestamp.instant_lt_of_fields_lt`: fields are in the order of time.
* `Timestamp.toText_le_iff`: so texts are in the order of time.
-/

namespace Runbook

/-! ### Lists in lexicographic order -/

namespace Text

/-- Behind beginnings of one length, what follows counts only if these are equal. -/
theorem append_lt_append_iff {α : Type} [LT α] {a a' b b' : List α} (h : a.length = a'.length) :
    a ++ b < a' ++ b' ↔ a < a' ∨ a = a' ∧ b < b' := by
  induction a generalizing a' with
  | nil =>
    obtain rfl := List.length_eq_zero_iff.mp h.symm
    simp
  | cons c a ih =>
    cases a' with
    | nil => exact absurd h nofun
    | cons c' a' =>
      rw [List.cons_append, List.cons_append, List.cons_lt_cons_iff, List.cons_lt_cons_iff,
        ih (Nat.succ.inj h), List.cons.injEq]
      tauto

variable {a a' b : List Char}

theorem cons_lt_cons_self (c : Char) : c :: a < c :: a' ↔ a < a' := by
  rw [List.cons_lt_cons_iff]
  simp

theorem ofDigitChars_cons_zero (c : Char) (a : List Char) :
    Nat.ofDigitChars 10 (c :: a) 0 =
      10 ^ a.length * (c.toNat - 48) + Nat.ofDigitChars 10 a 0 := by
  rw [Nat.ofDigitChars_cons, Nat.ofDigitChars_eq_ofDigitChars_zero]
  simp

/-- So many digits write a number below that power of ten. -/
theorem ofDigitChars_lt (ha : ∀ c ∈ a, c.isDigit) : Nat.ofDigitChars 10 a 0 < 10 ^ a.length := by
  induction a with
  | nil => simp
  | cons c a ih =>
    obtain ⟨hc, ha⟩ := List.forall_mem_cons.mp ha
    have hdigit : c.toNat - 48 ≤ 9 := by
      have := toNat_of_isDigit hc
      omega
    have hrest := ih ha
    have hscaled := Nat.mul_le_mul_left (10 ^ a.length) hdigit
    rw [ofDigitChars_cons_zero, List.length_cons, pow_succ]
    omega

/-- Numerals of one length are in the order of their numbers. -/
theorem lt_iff_ofDigitChars_lt (ha : ∀ c ∈ a, c.isDigit) (hb : ∀ c ∈ b, c.isDigit)
    (h : a.length = b.length) : a < b ↔ Nat.ofDigitChars 10 a 0 < Nat.ofDigitChars 10 b 0 := by
  induction a generalizing b with
  | nil =>
    obtain rfl := List.length_eq_zero_iff.mp h.symm
    simp
  | cons c a ih =>
    cases b with
    | nil => exact absurd h nofun
    | cons d b =>
      obtain ⟨hc, ha⟩ := List.forall_mem_cons.mp ha
      obtain ⟨hd, hb⟩ := List.forall_mem_cons.mp hb
      have hlength : a.length = b.length := Nat.succ.inj h
      have hca := ofDigitChars_lt ha
      have hdb := ofDigitChars_lt hb
      -- A digit that is greater by one outweighs all that follow.
      have hvalue : ∀ {c d : Char}, c.isDigit → d.isDigit → c < d →
          10 ^ b.length * (c.toNat - 48) + 10 ^ b.length ≤ 10 ^ b.length * (d.toNat - 48) := by
        intro c d hc hd hlt
        have hlt : c.toNat < d.toNat := hlt
        have hc := toNat_of_isDigit hc
        have hd := toNat_of_isDigit hd
        rw [← Nat.mul_succ]
        exact Nat.mul_le_mul_left _ (by omega)
      rw [List.cons_lt_cons_iff, ih ha hb hlength, ofDigitChars_cons_zero, ofDigitChars_cons_zero]
      rw [hlength] at hca ⊢
      rcases lt_trichotomy c d with hlt | rfl | hgt
      · have hstep := hvalue hc hd hlt
        exact iff_of_true (.inl hlt) (by omega)
      · simp
      · have hstep := hvalue hd hc hgt
        refine iff_of_false ?_ (by omega)
        rintro (hlt | ⟨rfl, -⟩)
        · exact absurd hlt (lt_asymm hgt)
        · exact absurd hgt (lt_irrefl c)

end Text

namespace Layout

variable {width n m : Nat} {s s' : List Char}

/-- Padded numbers are in their order. -/
theorem paddedChars_append_lt_iff (hwidth : 0 < width) (hn : n < pow10 width)
    (hm : m < pow10 width) :
    paddedChars width n ++ s < paddedChars width m ++ s' ↔ n < m ∨ n = m ∧ s < s' := by
  have hlength : (paddedChars width n).length = (paddedChars width m).length :=
    (length_paddedChars hwidth hn).trans (length_paddedChars hwidth hm).symm
  have heq : paddedChars width n = paddedChars width m ↔ n = m := by
    refine ⟨fun h => ?_, fun h => h ▸ rfl⟩
    rw [← ofDigitChars_paddedChars width n, h, ofDigitChars_paddedChars]
  rw [Text.append_lt_append_iff hlength, heq, Text.lt_iff_ofDigitChars_lt
    (fun _ hc => isDigit_of_mem_paddedChars hc) (fun _ hc => isDigit_of_mem_paddedChars hc) hlength,
    ofDigitChars_paddedChars, ofDigitChars_paddedChars]

end Layout

namespace Timestamp

open Layout (paddedChars)

variable {a b : Timestamp}

/-! ### The order of texts -/

/-- The fields of the date, the greatest unit first. -/
def date (t : Timestamp) : List Nat := [t.year, t.month, t.day]

/-- The fields of the time of day, the greatest unit first. -/
def timeOfDay (t : Timestamp) : List Nat := [t.hour, t.minute, t.second, t.micro]

def fields (t : Timestamp) : List Nat := t.date ++ t.timeOfDay

/-- A fraction of a second is left out when it is zero, and a plus sign comes before a point. -/
theorem fractionChars_append_lt_iff (ha : a.Valid) (hb : b.Valid) (s : List Char) :
    a.fractionChars ++ '+' :: s < b.fractionChars ++ '+' :: s ↔ a.micro < b.micro := by
  have hmicro : a.micro < pow10 6 := ha.micro
  have hmicro' : b.micro < pow10 6 := hb.micro
  unfold fractionChars
  by_cases hzero : a.micro = 0 <;> by_cases hzero' : b.micro = 0
  · simp [hzero, hzero']
  · rw [if_pos hzero, if_neg hzero']
    exact iff_of_true (.rel (by decide)) (by omega)
  · rw [if_neg hzero, if_pos hzero']
    refine iff_of_false (fun h => ?_) (by omega)
    rw [List.cons_append, List.nil_append, List.cons_lt_cons_iff] at h
    exact h.elim (absurd · (by decide)) fun h => absurd h.1 (by decide)
  · rw [if_neg hzero, if_neg hzero', List.cons_append, List.cons_append, Text.cons_lt_cons_self,
      Layout.paddedChars_append_lt_iff (by omega) hmicro hmicro']
    simp

/-- The fields of a date and a time of day that exist fit in their widths. -/
theorem Valid.lt_pow10 {t : Timestamp} (h : t.Valid) :
    t.year < pow10 4 ∧ t.month < pow10 2 ∧ t.day < pow10 2 ∧ t.hour < pow10 2 ∧
      t.minute < pow10 2 ∧ t.second < pow10 2 := by
  have hdays := daysIn_le t.year t.month
  obtain ⟨hyear, hmonth, hday, hhour, hminute, hsecond, -, -⟩ := h
  have hfour : pow10 4 = 10000 := rfl
  have htwo : pow10 2 = 100 := rfl
  omega

/-- The texts of points in universal time are in the order of their fields. -/
theorem toText_lt_iff (ha : a.Valid) (hb : b.Valid) (hao : a.offset = some 0)
    (hbo : b.offset = some 0) : a.toText < b.toText ↔ a.fields < b.fields := by
  obtain ⟨hyear, hmonth, hday, hhour, hminute, hsecond⟩ := ha.lt_pow10
  obtain ⟨hyear', hmonth', hday', hhour', hminute', hsecond'⟩ := hb.lt_pow10
  have hoffset : offsetChars (some 0) = '+' :: ['0', '0', ':', '0', '0'] := by decide
  rw [String.lt_iff_toList_lt, toList_toText, toList_toText, hao, hbo, hoffset]
  unfold dateChars clockChars
  simp only [List.append_assoc, List.cons_append]
  rw [Layout.paddedChars_append_lt_iff (by omega) hyear hyear', Text.cons_lt_cons_self,
    Layout.paddedChars_append_lt_iff (by omega) hmonth hmonth', Text.cons_lt_cons_self,
    Layout.paddedChars_append_lt_iff (by omega) hday hday', Text.cons_lt_cons_self,
    Layout.paddedChars_append_lt_iff (by omega) hhour hhour', Text.cons_lt_cons_self,
    Layout.paddedChars_append_lt_iff (by omega) hminute hminute', Text.cons_lt_cons_self,
    Layout.paddedChars_append_lt_iff (by omega) hsecond hsecond',
    fractionChars_append_lt_iff ha hb]
  simp only [fields, date, timeOfDay, List.cons_append, List.nil_append, List.cons_lt_cons_iff,
    List.not_lt_nil, and_false, or_false]

/-! ### The order of time -/

/-- The days of a year. -/
def daysOf (year : Nat) : Nat := ∑ month ∈ Finset.Ico 1 13, daysIn year month

/-- The number of a day, the first of January of the year one being that after all days of the
year zero. -/
def dayNumber (t : Timestamp) : Nat :=
  (∑ year ∈ Finset.range t.year, daysOf year) +
    (∑ month ∈ Finset.Ico 1 t.month, daysIn t.year month) + t.day

/-- The microseconds that have gone by in universal time. -/
def instant (t : Timestamp) : Int :=
  ((((t.dayNumber * 24 + t.hour) * 60 + t.minute) * 60 + t.second : Int) -
    t.offset.getD 0) * 1000000 + t.micro

example : ({ year := 4, month := 3, day := 1 } : Timestamp).instant -
    ({ year := 4, month := 2, day := 28 } : Timestamp).instant = 2 * 86400000000 := by
  decide +kernel

/-- What has gone by of a year, its current day included, is within its months up to that day. -/
theorem Valid.sum_daysIn_le {t : Timestamp} (h : t.Valid) {m : Nat} (hm : t.month < m) :
    (∑ month ∈ Finset.Ico 1 t.month, daysIn t.year month) + t.day ≤
      ∑ month ∈ Finset.Ico 1 m, daysIn t.year month := by
  have hsum := Finset.sum_Ico_succ_top h.month.1 (daysIn t.year)
  have hsubset : Finset.Ico 1 (t.month + 1) ⊆ Finset.Ico 1 m := Finset.Ico_subset_Ico_right hm
  have hle := Finset.sum_le_sum_of_subset (f := daysIn t.year) hsubset
  have := h.day
  omega

/-- A date whose fields come before those of another is earlier. -/
theorem dayNumber_lt (ha : a.Valid) (hb : b.Valid) (h : a.date < b.date) :
    a.dayNumber < b.dayNumber := by
  simp only [date, List.cons_lt_cons_iff, List.not_lt_nil, and_false, or_false] at h
  have hday := hb.day
  unfold dayNumber
  rcases h with hyear | ⟨hyear, hmonth | ⟨hmonth, hlt⟩⟩
  · have hyears := Finset.sum_range_succ daysOf a.year
    have hsubset : Finset.range (a.year + 1) ⊆ Finset.range b.year :=
      Finset.range_subset_range.mpr hyear
    have hle := Finset.sum_le_sum_of_subset (f := daysOf) hsubset
    have hrest := ha.sum_daysIn_le (m := 13) (by have := ha.month; omega)
    have hdays : daysOf a.year = ∑ month ∈ Finset.Ico 1 13, daysIn a.year month := rfl
    omega
  · have hrest := ha.sum_daysIn_le hmonth
    rw [hyear] at hrest ⊢
    omega
  · rw [hyear, hmonth]
    omega

/-- A point in universal time whose fields come before those of another is earlier. -/
theorem instant_lt_of_fields_lt (ha : a.Valid) (hb : b.Valid) (hao : a.offset = some 0)
    (hbo : b.offset = some 0) (h : a.fields < b.fields) : a.instant < b.instant := by
  have hahour := ha.hour
  have haminute := ha.minute
  have hasecond := ha.second
  have hamicro := ha.micro
  have hday : a.dayNumber < b.dayNumber ∨
      a.dayNumber = b.dayNumber ∧ a.timeOfDay < b.timeOfDay := by
    have hlength : a.date.length = b.date.length := rfl
    rcases (Text.append_lt_append_iff hlength).mp h with hdate | ⟨hdate, htime⟩
    · exact .inl (dayNumber_lt ha hb hdate)
    · obtain ⟨hyear, hmonth, hday⟩ : a.year = b.year ∧ a.month = b.month ∧ a.day = b.day := by
        simpa [date] using hdate
      exact .inr ⟨by rw [dayNumber, dayNumber, hyear, hmonth, hday], htime⟩
  simp only [timeOfDay, List.cons_lt_cons_iff, List.not_lt_nil, and_false, or_false] at hday
  simp only [instant, hao, hbo, Option.getD_some]
  omega

/-- **Texts of points in universal time are in the order of time.** -/
theorem toText_le_iff (ha : a.Valid) (hb : b.Valid) (hao : a.offset = some 0)
    (hbo : b.offset = some 0) : a.toText ≤ b.toText ↔ a.instant ≤ b.instant := by
  rw [← not_lt, ← not_lt, not_iff_not, toText_lt_iff hb ha hbo hao]
  refine ⟨instant_lt_of_fields_lt hb ha hbo hao, fun h => ?_⟩
  rcases lt_trichotomy b.fields a.fields with hlt | heq | hgt
  · exact hlt
  · have hsame : b = a := by
      cases a
      cases b
      simp_all [fields, date, timeOfDay]
    exact absurd (hsame ▸ h) (lt_irrefl _)
  · exact absurd h (lt_asymm (instant_lt_of_fields_lt ha hb hao hbo hgt))

end Timestamp

end Runbook
