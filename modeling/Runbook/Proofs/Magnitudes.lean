import Mathlib.Algebra.Order.Field.Power
import Mathlib.Data.Rat.Cast.Order
import Mathlib.Tactic.Linarith
import Mathlib.Tactic.NormNum
import Mathlib.Tactic.Positivity
import Mathlib.Tactic.Ring
import Runbook.Number.Duration

/-!
# Magnitudes of numbers

The finite numbers end below 2^1024. A quotient is rounded to the nearest of them as if the
exponents went on, and it is infinite when that would have taken an exponent that is not there. This
begins half a unit above the greatest number, at `Binary64.beyond`, because a half goes to the even
neighbour.

* `Binary64.ofRatio_eq_infinity_iff`: the quotients that are rounded to an infinity.
* `Binary64.ofInt?_eq_none_iff`, `Duration.seconds?_eq_none_iff`: the integers that no number is
  nearest to, and the milliseconds that there is no number of seconds for.
* `Binary64.toRat?_clampUnit`: what holding a number to the unit interval does to its value.
-/

namespace Runbook

/-! ### Powers of two -/

theorem pow2_eq (n : Nat) : pow2 n = 2 ^ n := rfl

/-! ### Quotients rounded to a whole number -/

section roundDiv

variable {n d m : Nat}

/-- Below a bound, a rounded quotient comes up to it at most. -/
theorem roundDiv_le_of_lt (h : n < m * d) : roundDiv n d ≤ m := by
  have hq : n / d < m := Nat.div_lt_of_lt_mul (by rwa [Nat.mul_comm])
  simp only [roundDiv]
  split_ifs <;> omega

/-- A quotient is rounded up to an even number from half below it on. -/
theorem le_roundDiv_iff (hd : 0 < d) (hm : m % 2 = 0) :
    m ≤ roundDiv n d ↔ 2 * (d * m) ≤ 2 * n + d := by
  have hn : d * (n / d) + n % d = n := Nat.div_add_mod n d
  have hr : n % d < d := Nat.mod_lt n hd
  simp only [roundDiv]
  generalize n / d = q at *
  generalize n % d = r at *
  rcases Nat.lt_trichotomy m (q + 1) with h | rfl | h
  · have hscaled : d * m ≤ d * q := Nat.mul_le_mul_left d (Nat.le_of_lt_succ h)
    split_ifs <;> omega
  · have hscaled : d * (q + 1) = d * q + d := Nat.mul_succ d q
    split_ifs <;> omega
  · have hscaled : d * (q + 2) ≤ d * m := Nat.mul_le_mul_left d h
    have htwo : d * (q + 2) = d * q + 2 * d := by ring
    split_ifs <;> omega

end roundDiv

namespace Binary64

/-! ### The scale of a quotient -/

section scale

variable {n d : Nat}

theorem scale_pos (hd : 0 < d) (e : Int) : 0 < (scale n d e).2 :=
  Nat.mul_pos hd (pow2_pos _)

/-- What scaling means for the quotient. -/
theorem scale_div (n d : Nat) (e : Int) :
    ((scale n d e).1 : ℚ) / (scale n d e).2 = n / d / 2 ^ e := by
  rcases Int.le_total 0 e with he | he
  · obtain ⟨k, rfl⟩ := Int.eq_ofNat_of_zero_le he
    simp [scale, pow2_eq, div_div]
  · obtain ⟨k, hk⟩ := Int.eq_ofNat_of_zero_le (Int.neg_nonneg_of_nonpos he)
    obtain rfl : e = -(k : Int) := by omega
    simp [scale, pow2_eq, mul_div_right_comm]

/-- The number `2 ^ k` in the scale of an exponent, against a quotient. -/
theorem pow_mul_scale_le_iff (hd : 0 < d) (k : Nat) (e : Int) :
    2 ^ k * (scale n d e).2 ≤ (scale n d e).1 ↔ (2 : ℚ) ^ (k + e) ≤ n / d := by
  have hb : (0 : ℚ) < (scale n d e).2 := by exact_mod_cast scale_pos hd e
  have he : (0 : ℚ) < 2 ^ e := by positivity
  rw [zpow_add₀ two_ne_zero, ← le_div_iff₀ he, ← scale_div, le_div_iff₀ hb, zpow_natCast]
  exact_mod_cast Iff.rfl

/-- A quotient lies between two powers of two that its logarithms tell. -/
theorem between_powers (hn : n ≠ 0) (hd : 0 < d) :
    (2 : ℚ) ^ ((n.log2 : Int) - d.log2 - 1) ≤ n / d ∧
      (n : ℚ) / d < 2 ^ ((n.log2 : Int) - d.log2 + 1) := by
  have hd' : (0 : ℚ) < d := by exact_mod_cast hd
  have hleast : (2 : ℚ) ^ n.log2 ≤ n := by exact_mod_cast Nat.log2_self_le hn
  have hgreatest : (n : ℚ) < 2 ^ (n.log2 + 1) := by exact_mod_cast Nat.lt_log2_self
  have hleast' : (2 : ℚ) ^ d.log2 ≤ d := by exact_mod_cast Nat.log2_self_le hd.ne'
  have hgreatest' : (d : ℚ) < 2 ^ (d.log2 + 1) := by exact_mod_cast Nat.lt_log2_self
  constructor
  · calc (2 : ℚ) ^ ((n.log2 : Int) - d.log2 - 1)
        = 2 ^ n.log2 / 2 ^ (d.log2 + 1) := by
          rw [sub_sub, zpow_sub₀ two_ne_zero]
          norm_cast
      _ ≤ n / d := by gcongr
  · calc (n : ℚ) / d < 2 ^ (n.log2 + 1) / 2 ^ d.log2 := by gcongr
      _ = 2 ^ ((n.log2 : Int) - d.log2 + 1) := by
          rw [sub_add_eq_add_sub, zpow_sub₀ two_ne_zero]
          norm_cast

/-- In the scale of its exponent, a quotient has at most 53 bits. -/
theorem lt_of_exponentFor (hn : n ≠ 0) (hd : 0 < d) :
    (n : ℚ) / d < 2 ^ (53 + exponentFor n d) := by
  have hone : (1 : ℚ) ≤ 2 := one_le_two
  have hlogs := (between_powers hn hd).2
  simp only [exponentFor]
  split_ifs with h
  · rw [pow2_eq, ← not_le, pow_mul_scale_le_iff hd, not_le] at h
    exact h.trans_le (zpow_le_zpow_right₀ hone (by omega))
  · exact hlogs.trans_le (zpow_le_zpow_right₀ hone (by omega))

/-- In the scale of its exponent, a quotient has at least 53 bits if it is not too small. -/
theorem le_of_exponentFor (hn : n ≠ 0) (hd : 0 < d) (h : minExponent < exponentFor n d) :
    (2 : ℚ) ^ (52 + exponentFor n d) ≤ n / d := by
  have hone : (1 : ℚ) ≤ 2 := one_le_two
  have hlogs := (between_powers hn hd).1
  simp only [exponentFor] at h ⊢
  split_ifs at h ⊢ with hscale
  · refine (zpow_le_zpow_right₀ hone ?_).trans hlogs
    omega
  · rw [pow2_eq, not_lt, pow_mul_scale_le_iff hd] at hscale
    refine (zpow_le_zpow_right₀ hone ?_).trans hscale
    omega

end scale

/-! ### Beyond the numbers -/

/-- The least magnitude that is beyond all numbers: it is half a unit above the greatest one, and
a half goes to the even neighbour, which is not there. -/
def beyond : Nat := (2 ^ 54 - 1) * pow2 970

section beyond

variable {negative : Bool} {n d : Nat}

theorem cast_beyond : (beyond : ℚ) = (2 ^ 54 - 1) * 2 ^ (970 : Int) := by
  rw [beyond, pow2_eq, Nat.cast_mul, Nat.cast_pow, ← zpow_natCast]
  congr 1
  norm_num

theorem pow_le_beyond : (2 : ℚ) ^ (53 + 970 : Int) ≤ beyond := by
  rw [cast_beyond, zpow_add₀ two_ne_zero]
  gcongr
  norm_num

theorem beyond_le_pow : (beyond : ℚ) ≤ 2 ^ (54 + 970 : Int) := by
  rw [cast_beyond, zpow_add₀ two_ne_zero]
  gcongr
  norm_num

theorem beyond_pos : 0 < beyond := by
  have hpos : (0 : ℚ) < beyond := lt_of_lt_of_le (by positivity) pow_le_beyond
  exact_mod_cast hpos

/-- A mantissa is rounded up to one more bit exactly from half a unit below it on. -/
theorem roundDiv_scale_eq_iff (hn : n ≠ 0) (hd : 0 < d) :
    roundDiv (scale n d (exponentFor n d)).1 (scale n d (exponentFor n d)).2 = pow2 53 ↔
      (2 ^ 54 - 1) * (2 : ℚ) ^ exponentFor n d ≤ 2 * (n / d) := by
  have hlt : ¬(2 : ℚ) ^ (((53 : Nat) : Int) + exponentFor n d) ≤ n / d :=
    not_le.mpr (lt_of_exponentFor hn hd)
  rw [← pow_mul_scale_le_iff hd, not_le] at hlt
  have hpos := scale_pos (n := n) hd (exponentFor n d)
  have hq : (0 : ℚ) < (scale n d (exponentFor n d)).2 := by exact_mod_cast hpos
  have he : (0 : ℚ) < 2 ^ exponentFor n d := by positivity
  rw [pow2_eq, ← (roundDiv_le_of_lt hlt).ge_iff_eq, le_roundDiv_iff hpos (by decide),
    ← le_div_iff₀ he, mul_div_assoc, ← scale_div, mul_div_assoc', le_div_iff₀ hq]
  norm_num only [pow_succ]
  norm_cast
  omega

/-- A quotient is beyond all numbers when its exponent is, or becomes so by a carry. -/
theorem beyond_le_iff (hn : n ≠ 0) (hd : 0 < d) :
    (beyond : ℚ) ≤ n / d ↔ maxExponent < exponentFor n d ∨ exponentFor n d = maxExponent ∧
      roundDiv (scale n d (exponentFor n d)).1 (scale n d (exponentFor n d)).2 = pow2 53 := by
  have hone : (1 : ℚ) ≤ 2 := one_le_two
  have hmax : maxExponent = 971 := rfl
  have hmin : minExponent = -1074 := rfl
  have hupper := lt_of_exponentFor hn hd
  have hlower := le_of_exponentFor hn hd
  rw [roundDiv_scale_eq_iff hn hd]
  generalize exponentFor n d = e at *
  rcases lt_trichotomy e maxExponent with he | rfl | he
  · have hbelow : (n : ℚ) / d < beyond :=
      hupper.trans_le ((zpow_le_zpow_right₀ hone (by omega)).trans pow_le_beyond)
    exact iff_of_false hbelow.not_ge (by omega)
  · have htwo : (2 : ℚ) ^ maxExponent = 2 * 2 ^ (970 : Int) := by
      rw [hmax, ← zpow_one_add₀ two_ne_zero]
      rfl
    rw [cast_beyond, htwo, mul_left_comm, mul_le_mul_iff_right₀ two_pos]
    simp
  · have habove : (beyond : ℚ) ≤ n / d :=
      (beyond_le_pow.trans (zpow_le_zpow_right₀ hone (by omega))).trans (hlower (by omega))
    exact iff_of_true habove (.inl he)

/-- The number nearest to a quotient is infinite exactly from that magnitude on. -/
theorem ofRatio_eq_infinity_iff (hd : 0 < d) :
    ofRatio negative n d = .infinity negative ↔ beyond * d ≤ n := by
  have hcast : beyond * d ≤ n ↔ (beyond : ℚ) ≤ n / d := by
    rw [le_div_iff₀ (by exact_mod_cast hd)]
    exact_mod_cast Iff.rfl
  by_cases hn : n = 0
  · have hpos : 0 < beyond * d := Nat.mul_pos beyond_pos hd
    rw [ofRatio, if_pos hn]
    exact iff_of_false nofun (by omega)
  rw [hcast, beyond_le_iff hn hd]
  simp only [ofRatio, if_neg hn]
  split_ifs with hcarry hlt hlt <;> simp <;> omega

theorem ofRatio_ne_nan : ofRatio negative n d ≠ .nan := by
  simp only [ofRatio, zero]
  split_ifs <;> exact nofun

/-- An infinity that is nearest to a quotient has its sign. -/
theorem eq_of_ofRatio {negative' : Bool} (h : ofRatio negative n d = .infinity negative') :
    negative' = negative := by
  simp only [ofRatio, zero] at h
  split_ifs at h <;> cases h <;> rfl

end beyond

/-- An integer has no nearest number exactly from that magnitude on. -/
theorem ofInt?_eq_none_iff {i : Int} : ofInt? i = none ↔ beyond ≤ i.natAbs := by
  have hiff : ofRatio (i < 0) i.natAbs 1 = .infinity (i < 0) ↔ beyond * 1 ≤ i.natAbs :=
    ofRatio_eq_infinity_iff Nat.one_pos
  rw [Nat.mul_one] at hiff
  rw [← hiff, ofInt?]
  split
  · rename_i h
    obtain rfl := eq_of_ofRatio h
    simpa using h
  · rename_i h
    simpa using h _

theorem ofInt?_ne_nan {i : Int} : ofInt? i ≠ some .nan := by
  unfold ofInt?
  split
  · exact nofun
  · rename_i x h
    exact fun hx => ofRatio_ne_nan (Option.some.inj hx)

/-- A rational has no nearest number exactly from that magnitude on. -/
theorem exists_ofRat_eq_infinity_iff {q : ℚ} :
    (∃ negative, ofRat q = .infinity negative) ↔ (beyond : ℚ) ≤ |q| := by
  have habs : |q| = (q.num.natAbs : ℚ) / q.den := by
    rw [Rat.abs_def, Rat.divInt_eq_div, Int.cast_natCast, Int.cast_natCast]
  rw [habs, le_div_iff₀ (by exact_mod_cast q.den_pos)]
  have hiff : ofRat q = .infinity (q.num < 0) ↔ beyond * q.den ≤ q.num.natAbs :=
    ofRatio_eq_infinity_iff q.den_pos
  constructor
  · rintro ⟨negative, h⟩
    obtain rfl := eq_of_ofRatio h
    exact_mod_cast hiff.mp h
  · intro h
    exact ⟨_, hiff.mpr (by exact_mod_cast h)⟩

/-! ### Numbers held to the unit interval -/

theorem toRat?_zero (negative : Bool) : (zero negative).toRat? = some 0 := by
  simp [toRat?, zero]

theorem toRat?_one : one.toRat? = some 1 := by decide +kernel

/-- Numbers that have values are in the order of these. -/
theorem lt_iff {x y : Binary64} {p q : ℚ} (hp : x.toRat? = some p) (hq : y.toRat? = some q) :
    lt x y = true ↔ p < q := by
  cases x <;> cases hp
  cases y <;> cases hq
  simp [lt, toRat?]

/-- Holding a number to the unit interval takes its value to the nearest one there. -/
theorem toRat?_clampUnit {x : Binary64} {q : ℚ} (h : x.toRat? = some q) :
    x.clampUnit.toRat? = some (max 0 (min q 1)) := by
  simp only [clampUnit]
  rcases lt_or_ge q 0 with hq | hq
  · have hbelow : lt x (zero false) = true := (lt_iff h (toRat?_zero false)).mpr hq
    have hzero : ¬lt one (zero false) = true := by
      rw [lt_iff toRat?_one (toRat?_zero false)]
      norm_num
    rw [if_pos hbelow, if_neg hzero, toRat?_zero, min_eq_left (by linarith), max_eq_left hq.le]
  have hbelow : ¬lt x (zero false) = true := by
    rw [lt_iff h (toRat?_zero false)]
    exact hq.not_gt
  rw [if_neg hbelow]
  split_ifs with hone
  · rw [lt_iff toRat?_one h] at hone
    rw [toRat?_one, min_eq_right hone.le, max_eq_right zero_le_one]
  · rw [lt_iff toRat?_one h, not_lt] at hone
    rw [h, min_eq_left hone, max_eq_right hq]

theorem clampUnit_infinity (negative : Bool) :
    (infinity negative).clampUnit = if negative then zero false else one := by
  cases negative <;> decide +kernel

/-- Every number is taken to one from zero to one, unless it is not a number. -/
theorem exists_toRat?_clampUnit {x : Binary64} (hx : x ≠ .nan) :
    ∃ q, x.clampUnit.toRat? = some q ∧ 0 ≤ q ∧ q ≤ 1 := by
  cases x with
  | nan => exact absurd rfl hx
  | infinity negative =>
    rw [clampUnit_infinity]
    cases negative
    · exact ⟨1, toRat?_one, zero_le_one, le_rfl⟩
    · exact ⟨0, toRat?_zero false, le_rfl, zero_le_one⟩
  | finite negative m e =>
    exact ⟨_, toRat?_clampUnit rfl, le_max_left _ _, max_le zero_le_one (min_le_right _ _)⟩

theorem clampUnit_nan : clampUnit .nan = .nan := by decide

end Binary64

namespace Duration

/-- There is no number of seconds for so many milliseconds exactly when it is beyond all
numbers. -/
theorem seconds?_eq_none_iff {ms : Nat} :
    seconds? ms = none ↔ 1000 * Binary64.beyond ≤ ms := by
  have hiff := Binary64.exists_ofRat_eq_infinity_iff (q := (ms : ℚ) / 1000)
  rw [abs_of_nonneg (by positivity), le_div_iff₀ (by norm_num)] at hiff
  rw [seconds?, Nat.mul_comm]
  trans ((Binary64.beyond : ℚ) * 1000 ≤ ms)
  · rw [← hiff]
    split
    · rename_i h
      simp [h]
    · rename_i h
      simpa using h
  · exact_mod_cast Iff.rfl

end Duration

end Runbook
