import Mathlib.Data.Nat.Prime.Basic
import Runbook.Proofs.Chances
import Runbook.Proofs.Steps

/-!
# Prime loop indices

A step may be kept to prime loop indices, or kept away from them. Whether an index is prime is found
by trial division: two is tried, and then the odd numbers from three up to the square root, which is
tried, too. This is enough. The least divisor above one of a number that is not prime is no greater
than its square root, and an even divisor would have shown at two.

* `Condition.noOddDivisor_iff`: the numbers that trial division tries.
* `Condition.isPrimeNat_iff`: it finds the prime natural numbers.
* `Condition.Indivisible n`: nothing strictly between one and the integer divides it.
* `Condition.ByPrimality config n skip`: whether a step is skipped goes by the primality of the loop
  index, if the step has no other condition.
* `Loop.prime_condition_exact`: what trial division finds, when the condition holds, and which steps
  it skips.
-/

namespace Runbook

namespace Condition

/-! ### Trial division -/

/-- Trial division tries `d`, `d + 2` and so on up to the square root, which may be the last one. -/
theorem noOddDivisor_iff {n d : Nat} :
    noOddDivisor n d = true ↔ ∀ k, d + 2 * k ≤ n.sqrt → ¬d + 2 * k ∣ n := by
  fun_induction noOddDivisor n d with
  | case1 d hle hmod =>
    exact iff_of_false nofun fun h => h 0 (Nat.le_sqrt.mpr hle) (Nat.dvd_of_mod_eq_zero hmod)
  | case2 d hle hmod _ ih =>
    -- What is tried from `d + 2` on is what is tried from `d` on, but for `d` itself.
    have hnext (k : Nat) : d + 2 * (k + 1) = d + 2 + 2 * k := by omega
    rw [ih]
    refine ⟨fun h k => ?_, fun h k => hnext k ▸ h (k + 1)⟩
    cases k with
    | zero => exact fun _ hdvd => hmod (Nat.mod_eq_zero_of_dvd hdvd)
    | succ k => exact hnext k ▸ h k
  | case3 d hlt =>
    exact iff_of_true rfl fun k hk => absurd (Nat.le_sqrt.mp (by omega)) hlt

/-- Trial division finds the prime natural numbers. -/
theorem isPrimeNat_iff {n : Nat} : isPrimeNat n = true ↔ n.Prime := by
  rw [Nat.prime_def_le_sqrt]
  unfold isPrimeNat
  split_ifs with hsmall hfour heven
  · exact iff_of_false nofun fun h => absurd h.1 (by omega)
  · have hsqrt : n.sqrt < 2 := Nat.sqrt_lt.mpr hfour
    exact iff_of_true rfl ⟨by omega, fun m hm hle => absurd (hm.trans hle) (by omega)⟩
  · have hsqrt : 2 ≤ n.sqrt := Nat.le_sqrt.mpr (Nat.le_of_not_lt hfour)
    exact iff_of_false nofun fun h => h.2 2 le_rfl hsqrt (Nat.dvd_of_mod_eq_zero heven)
  · rw [noOddDivisor_iff]
    refine ⟨fun h => ⟨by omega, fun m hm hle hdvd => ?_⟩, fun h k => h.2 (3 + 2 * k) (by omega)⟩
    -- The number is odd, and so is what divides it.
    have hodd : m % 2 = 1 := by
      by_contra hm
      exact heven (Nat.mod_eq_zero_of_dvd ((Nat.dvd_of_mod_eq_zero (by omega)).trans hdvd))
    obtain ⟨k, rfl⟩ : ∃ k, m = 3 + 2 * k := ⟨(m - 3) / 2, by omega⟩
    exact h k hle hdvd

example : (List.range 50).filter isPrimeNat =
    [2, 3, 5, 7, 11, 13, 17, 19, 23, 29, 31, 37, 41, 43, 47] := by decide +kernel

/-- An integer is at least two, and no integer strictly between one and itself divides it. -/
def Indivisible (n : Int) : Prop := 2 ≤ n ∧ ¬∃ d : Int, 1 < d ∧ d < n ∧ d ∣ n

theorem indivisible_natCast_iff {n : Nat} : Indivisible n ↔ n.Prime := by
  rw [Nat.prime_def_lt']
  refine and_congr (by omega) ⟨fun h m hm hlt hdvd => h ?_, fun h => ?_⟩
  · exact ⟨m, by omega, by omega, Int.natCast_dvd_natCast.mpr hdvd⟩
  · rintro ⟨d, hd, hlt, hdvd⟩
    lift d to Nat using by omega
    exact h d (by omega) (by omega) (Int.natCast_dvd_natCast.mp hdvd)

/-- Trial division finds the integers that are prime. -/
theorem isPrime_iff {n : Int} : isPrime n = true ↔ Indivisible n := by
  unfold isPrime
  rcases lt_or_ge n 0 with hneg | hnonneg
  · rw [decide_eq_false (not_le.mpr hneg), Bool.false_and]
    exact iff_of_false nofun fun h => absurd h.1 (by omega)
  · lift n to Nat using hnonneg
    rw [decide_eq_true (Int.natCast_nonneg n), Bool.true_and, Int.toNat_natCast, isPrimeNat_iff,
      indivisible_natCast_iff]

/-! ### The condition -/

/-- The condition that the loop index is prime. -/
abbrev primeIndex : Json := .text "loop_index_is_prime"

/-- The condition holds for the loop indices that are prime, whatever the chance. -/
theorem holds_primeIndex_iff {n : Int} {p : Binary64} {draws : List Binary64} :
    (holds primeIndex n p draws).1 = true ↔ Indivisible n := isPrime_iff

theorem meets_primeIndex_iff {n : Int} {p x : Binary64} :
    Meets n p x primeIndex ↔ Indivisible n := by
  simp [Meets, isPrime_iff]

/-- A step has no other condition than to be skipped for prime loop indices. -/
structure SkipsPrimes (config : Fields) : Prop where
  skip : stated? config "skip_condition" = some primeIndex
  runOnly : stated? config "run_only_condition" = none

/-- A step has no other condition than to run for prime loop indices only. -/
structure KeepsToPrimes (config : Fields) : Prop where
  skip : stated? config "skip_condition" = none
  runOnly : stated? config "run_only_condition" = some primeIndex

/-- Whether a step is skipped goes by the primality of the loop index, if the step has no other
condition. -/
structure ByPrimality (config : Fields) (n : Int) (skip : Bool) : Prop where
  skips_iff : SkipsPrimes config → (skip = true ↔ Indivisible n)
  keeps_iff : KeepsToPrimes config → (skip = true ↔ ¬Indivisible n)

theorem byPrimality_of_skips {config : Fields} {n : Int} {skip : Bool} {p : Binary64}
    {draws : List Binary64} (h : skip = true ↔ Skips config n p draws) :
    ByPrimality config n skip where
  skips_iff hskips := by simp [h, Skips, hskips.skip, hskips.runOnly, meets_primeIndex_iff]
  keeps_iff hkeeps := by simp [h, Skips, hkeeps.skip, hkeeps.runOnly, meets_primeIndex_iff]

/-- A step whose chance is known is decided on, and a condition on primes is heeded. -/
theorem exists_byPrimality {config : Fields} (h : ¬Oversized (chanceField config)) (n : Int)
    (draws : List Binary64) :
    ∃ decision, decideSkip config n draws = .ok decision ∧
      ByPrimality config n decision.skip := by
  obtain ⟨p, log, hp, -⟩ := exists_probability h
  obtain ⟨decision, hdecision, hskip⟩ := decideSkip_of_probability hp n draws
  exact ⟨decision, hdecision, byPrimality_of_skips hskip⟩

/-- A condition on primes is heeded whenever it has been decided. -/
theorem byPrimality_of_decideSkip {config : Fields} {n : Int} {draws : List Binary64}
    {decision : Decision} (h : decideSkip config n draws = .ok decision) :
    ByPrimality config n decision.skip := by
  have hsized : ¬Oversized (chanceField config) := fun hlarge => by
    rw [decideSkip_of_oversized hlarge] at h
    cases h
  obtain ⟨decision', hdecision, hprimality⟩ := exists_byPrimality hsized n draws
  obtain rfl : decision' = decision := Except.ok.inj (hdecision.symm.trans h)
  exact hprimality

end Condition

namespace Loop

open Condition

/-! ### Steps -/

/-- A step that a loop index gets past has been decided on, and it leaves the marks of that. -/
theorem marks_runStep {r : Runner} (hregistry : r.registry.Proper) {ctx : LoopContext} {step : Step}
    {s s' : LoopState} {t : List Deed} (h : (runStep r ctx step).Ends s t (.ok ()) s') :
    ∃ skip, Told ctx.loopIndex t step skip ∧ marks t = planned ctx.loopIndex [(step, skip)] := by
  rcases ends_runStep h with ⟨c, -, hr⟩ | ⟨t', rfl, ⟨e, -, hr⟩ | ⟨hdecides, -⟩ |
    ⟨t₁, t₂, t₃, s₁, s₂, rfl, hdecides, hannounce, hacts⟩⟩
  · cases hr
  · cases hr
  · exact ⟨true, hdecides.told.append_left [_], hdecides.marks⟩
  · obtain ⟨-, hdone, -⟩ := hacts.outcome hregistry (List.mem_singleton_self step) fun _ => id
    refine ⟨false, (hdecides.told.append_right _).append_left [_], ?_⟩
    rw [hdecides.marks_announced hannounce, hdone rfl, planned_cons]
    exact (List.append_nil _).symm

theorem Told.byPrimality {n : Int} {t : List Deed} {step : Step} {skip : Bool}
    (h : Told n t step skip) : ByPrimality step.config n skip := by
  obtain ⟨-, -, _, decision, -, hdecision, rfl⟩ := h
  exact byPrimality_of_decideSkip hdecision

/-- **Prime loop indices.** Trial division finds that an integer is prime exactly when it is at
least two and no integer strictly between one and itself divides it. So the condition that the loop
index is prime holds for just these loop indices, whatever the chance and the drawn numbers, of
which it takes none. A step with this condition alone is decided on, unless its chance is an integer
that is beyond all numbers: if the condition is one to skip the step, it is skipped for the prime
loop indices, and if it is one to run the step, for the others. A loop index that gets past the step
has announced it and dispatched its actions just when it was not to be skipped. -/
theorem prime_condition_exact (n : Int) :
    (isPrime n = true ↔ 2 ≤ n ∧ ¬∃ d : Int, 1 < d ∧ d < n ∧ d ∣ n) ∧
    (∀ p draws, ((holds primeIndex n p draws).1 = true ↔ Indivisible n) ∧
      (holds primeIndex n p draws).2 = draws) ∧
    (∀ config draws, ¬Oversized (chanceField config) →
      ∃ decision, decideSkip config n draws = .ok decision ∧
        ByPrimality config n decision.skip) ∧
    ∀ (r : Runner) (ctx : LoopContext) (step : Step) (s s' : LoopState) (t : List Deed),
      r.registry.Proper → ctx.loopIndex = n → (runStep r ctx step).Ends s t (.ok ()) s' →
      ∃ skip, ByPrimality step.config n skip ∧ marks t = planned n [(step, skip)] := by
  refine ⟨isPrime_iff, fun p draws => ⟨holds_primeIndex_iff, rfl⟩,
    fun config draws h => exists_byPrimality h n draws, ?_⟩
  rintro r ctx step s s' t hregistry rfl h
  obtain ⟨skip, htold, hmarks⟩ := marks_runStep hregistry h
  exact ⟨skip, htold.byPrimality, hmarks⟩

/-! ### A step at a square -/

open Rehearsal

/-- A step that is kept to prime loop indices. -/
def primeStep : Step :=
  { id := "s0", name := "Step 0", config := [("run_only_condition", primeIndex)] }

theorem keepsToPrimes_primeStep : KeepsToPrimes primeStep.config := ⟨rfl, rfl⟩

theorem decideSkip_primeStep (n : Int) (draws : List Binary64) :
    decideSkip primeStep.config n draws = .ok ⟨!isPrime n, draws, []⟩ := rfl

/-- A loop index that is not prime gets past the step unless it is asked to stop. -/
theorem ends_runStep_primeStep {r : Runner} {ctx : LoopContext} (s : LoopState)
    (chance : Runbook.Chance) (h : ¬Indivisible ctx.loopIndex) :
    (runStep r ctx primeStep).Ends s [.call .cancellation none, .call .chance chance,
      .call (.setChance chance) ()] (.ok ()) s := by
  have hskipped : (isSkipped ctx primeStep).Ends s
      [.call .chance chance, .call (.setChance chance) ()] (.ok true) s := by
    refine Act.ends_ask_bind_iff.mpr ⟨chance, _, rfl, ?_⟩
    rw [decideSkip_primeStep, Bool.eq_false_iff.mpr (mt isPrime_iff.mp h)]
    exact .call (.refl _)
  refine Act.ends_bind_iff.mpr (.inl ⟨[_], (), s, _, rfl, ?_, ?_⟩)
  · exact Act.ends_checkpoint_iff.mpr ⟨rfl, .inl ⟨rfl, rfl⟩⟩
  · exact Act.ends_bind_iff.mpr (.inl ⟨_, true, s, [], (List.append_nil _).symm, hskipped,
      Act.ends_pure_iff.mpr ⟨rfl, rfl, rfl⟩⟩)

/-- The context of loop index forty-nine. -/
def squareContext : LoopContext := { runId := "run-1", loopIndex := 49, data := sampleData }

/-- Between one and forty-nine only the square root divides it. Trial division finds it, and at this
loop index the step is skipped: it is neither announced nor are its actions dispatched. -/
theorem square_passed_over : isPrime 49 = false ∧
    (∃ decision, decideSkip primeStep.config 49 [] = .ok decision ∧ decision.skip = true) ∧
    ∃ t, (runStep sampleRunner squareContext primeStep).Ends {} t (.ok ()) {} ∧
      marks t = [] := by
  have hsquare : ¬Indivisible 49 := fun h => h.2 ⟨7, by decide, by decide, 7, rfl⟩
  obtain ⟨hprime, -, hdecides, hsteps⟩ := prime_condition_exact 49
  refine ⟨Bool.eq_false_iff.mpr (mt hprime.mp hsquare), ?_, ?_⟩
  · obtain ⟨decision, hdecision, hskip⟩ := hdecides primeStep.config [] nofun
    exact ⟨decision, hdecision, (hskip.keeps_iff keepsToPrimes_primeStep).mpr hsquare⟩
  · have hends : (runStep sampleRunner squareContext primeStep).Ends {} _ (.ok ()) {} :=
      ends_runStep_primeStep {} {} hsquare
    obtain ⟨skip, hskip, hmarks⟩ := hsteps _ _ _ _ _ _ Catalogue.registry_proper rfl hends
    rw [(hskip.keeps_iff keepsToPrimes_primeStep).mpr hsquare] at hmarks
    exact ⟨_, hends, hmarks⟩

end Loop

end Runbook
