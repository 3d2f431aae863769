import Runbook.Condition.Loop
import Runbook.Proofs.Magnitudes
import Runbook.Proofs.Refusals

/-!
# Chances

A step may be skipped at random, with a chance that one of its fields states. The field can hold
any value. A number is held to the range from zero to one, and so is a numeral; anything else leaves
the chance at one half. Two values slip through. An integer that is beyond all numbers has no number
to be held to the range and raises a fault, even if nothing is left to chance. And what is not a
number passes the range, since it is neither below zero nor above one.

* `Numeral.decimal?_eq_nan_iff`: the texts that read as not-a-number are the word for it.
* `Condition.Chance value p`: a field with this value comes to the chance `p`.
* `Condition.Skips config loopIndex p draws`: the conditions of a step skip it at a chance.
* `Condition.skipping`: every step is decided by its conditions at the chance of its field, unless
  the field is an integer that is beyond all numbers.
-/

namespace Runbook

/-! ### Texts that say not-a-number -/

namespace Numeral

open Text

/-- The characters of a text without the white space around them, digits of any script in ASCII. -/
def bare (s : String) : List Char :=
  trimBoth (· == ' ') (toAscii (s.toList.map fun c => if isSpace c then ' ' else c))

/-- A text says that it is not a number: the word for it, behind a sign or none. -/
def SaysNan (s : String) : Prop := isWord "nan" (takeSign (bare s)).2 = true

instance (s : String) : Decidable (SaysNan s) := inferInstanceAs (Decidable (_ = true))

theorem toLower_of_isDigit {c : Char} (h : c.isDigit = true) : c.toLower = c := by
  simp only [Char.isDigit, Bool.and_eq_true, decide_eq_true_eq, ge_iff_le] at h
  unfold Char.toLower
  split
  · rename_i hupper
    exact absurd (UInt32.le_trans hupper.1 h.2) (by decide)
  · rfl

/-- The word for not-a-number has neither digits nor underscores. -/
theorem plain_of_isWord_nan {cs : List Char} (h : isWord "nan" (takeSign cs).2 = true) :
    ∀ c ∈ cs, c.isDigit = false ∧ c ≠ '_' := by
  have hbody {body : List Char} (h : isWord "nan" body = true) :
      ∀ c ∈ body, c.isDigit = false ∧ c ≠ '_' := by
    intro c hc
    have hletter : c.toLower ∈ "nan".toList :=
      beq_iff_eq.mp h ▸ List.mem_map_of_mem hc
    have hletters : ∀ c ∈ "nan".toList, c.isDigit = false := by simp
    constructor
    · by_contra hdigit
      rw [Bool.not_eq_false] at hdigit
      rw [toLower_of_isDigit hdigit] at hletter
      exact absurd hdigit (by simp [hletters c hletter])
    · rintro rfl
      exact absurd hletter (by decide)
  unfold takeSign at h
  split at h
  · exact List.forall_mem_cons.mpr ⟨by decide, hbody h⟩
  · exact List.forall_mem_cons.mpr ⟨by decide, hbody h⟩
  · exact hbody h

/-- Without a digit there is no underscore to drop. -/
theorem eq_of_dropUnderscores_go {cs ds : List Char} (hds : ∀ c ∈ ds, c.isDigit = false)
    (h : dropUnderscores.go false cs = some ds) : ds = cs := by
  induction cs generalizing ds with
  | nil => exact (Option.some.inj h).symm
  | cons c cs ih =>
    unfold dropUnderscores.go at h
    split at h
    · contradiction
    · simp at h
    · rename_i hcons
      obtain ⟨rfl, rfl⟩ := List.cons.inj hcons
      obtain ⟨ds, hrest, rfl⟩ := Option.map_eq_some_iff.mp h
      rw [hds _ List.mem_cons_self] at hrest
      rw [ih (fun c hc => hds c (List.mem_cons_of_mem _ hc)) hrest]

theorem ofDecimal_ne_nan (negative : Bool) (digits : Nat) (exponent : Int) :
    Binary64.ofDecimal negative digits exponent ≠ .nan := by
  simp only [Binary64.ofDecimal, Binary64.zero]
  split_ifs with hzero hlarge hsmall
  · exact Binary64.noConfusion
  · exact Binary64.noConfusion
  · exact Binary64.noConfusion
  · exact Binary64.ofRatio_ne_nan

/-- A decimal numeral reads as not-a-number only when it is the word for it. -/
theorem plainDecimal?_eq_nan_iff {cs : List Char} :
    plainDecimal? cs = some .nan ↔ isWord "nan" (takeSign cs).2 = true := by
  unfold plainDecimal?
  split
  rename_i negative body hsign
  simp only [hsign]
  split_ifs with hinf hnan hempty
  · refine iff_of_false nofun fun hnan => ?_
    rw [isWord, isWord, beq_iff_eq.mp hnan] at hinf
    exact absurd hinf (by decide)
  · exact iff_of_true rfl hnan
  · exact iff_of_false nofun hnan
  · refine iff_of_false (fun h => ?_) hnan
    obtain ⟨e, -, he⟩ := Option.map_eq_some_iff.mp h
    exact ofDecimal_ne_nan _ _ _ he

/-- A free decimal numeral reads as not-a-number exactly when it says so. -/
theorem decimal?_eq_nan_iff {s : String} : decimal? s = some .nan ↔ SaysNan s := by
  rw [decimal?, SaysNan, ← bare]
  constructor
  · intro h
    obtain ⟨ds, hds, hnan⟩ := Option.bind_eq_some_iff.mp h
    rw [plainDecimal?_eq_nan_iff] at hnan
    rwa [← eq_of_dropUnderscores_go (fun c hc => (plain_of_isWord_nan hnan c hc).1) hds]
  · intro hnan
    have hunderscore : '_' ∉ bare s := fun hmem => (plain_of_isWord_nan hnan _ hmem).2 rfl
    rw [dropUnderscores_of_not_mem hunderscore]
    exact plainDecimal?_eq_nan_iff.mpr hnan

end Numeral

namespace Condition

/-! ### The chance that a field states -/

/-- The field is an integer that is beyond all numbers. -/
def Oversized (value : Json) : Prop := ∃ i, value = .int i ∧ Binary64.beyond ≤ i.natAbs

/-- The field says that it is not a number. -/
def SaysNan (value : Json) : Prop :=
  value = .float .nan ∨ ∃ s, value = .text s ∧ Numeral.SaysNan s

/-- The fault of an integer that is beyond all numbers. -/
def tooLarge : Fault := ⟨.overflow, "int too large to convert to float"⟩

theorem number?_of_oversized {value : Json} (h : Oversized value) :
    number? value = .error tooLarge := by
  obtain ⟨i, rfl, hi⟩ := h
  rw [number?, Binary64.ofInt?_eq_none_iff.mpr hi]
  rfl

/-- A field is read unless it is an integer that is beyond all numbers. -/
theorem exists_number?_of_not_oversized {value : Json} (h : ¬Oversized value) :
    ∃ x?, number? value = .ok x? ∧ (x? = some .nan ↔ SaysNan value) := by
  cases value with
  | int i =>
    cases hx : Binary64.ofInt? i with
    | none => exact absurd ⟨i, rfl, Binary64.ofInt?_eq_none_iff.mp hx⟩ h
    | some x =>
      have hnan : some x ≠ some .nan := hx ▸ Binary64.ofInt?_ne_nan
      exact ⟨some x, by rw [number?, hx], by simpa [SaysNan] using hnan⟩
  | text s => exact ⟨_, rfl, by simp [SaysNan, Numeral.decimal?_eq_nan_iff]⟩
  | float x => exact ⟨_, rfl, by simp [SaysNan]⟩
  | bool b => exact ⟨_, rfl, by cases b <;> simp [SaysNan, Binary64.one, Binary64.zero]⟩
  | _ => exact ⟨_, rfl, by simp [SaysNan]⟩

/-- The chance that a field comes to. -/
structure Chance (value : Json) (p : Binary64) : Prop where
  /-- One half, when the field is null or empty or cannot be read. -/
  half_of_unreadable : value = .null ∨ value = .text "" ∨ number? value = .ok none → p = .half
  /-- What is stated is held between zero and one. -/
  clamped : ∀ x q, number? value = .ok (some x) → x.toRat? = some q →
    p.toRat? = some (max 0 (min q 1))
  /-- It lies between zero and one, unless the field says that it is not a number; -/
  mem_unit : ¬SaysNan value → ∃ q, p.toRat? = some q ∧ 0 ≤ q ∧ q ≤ 1
  /-- then neither is the chance. -/
  nan_of_saysNan : SaysNan value → p = .nan

theorem toRat?_half : Binary64.half.toRat? = some (1 / 2) := by decide +kernel

/-- A field that states no number leaves it at one half. -/
theorem chance_half {value : Json} (h : number? value = .ok none) (hnan : ¬SaysNan value) :
    Chance value .half where
  half_of_unreadable _ := rfl
  clamped x q hx := by rw [h] at hx; cases hx
  mem_unit _ := ⟨1 / 2, toRat?_half, by norm_num, by norm_num⟩
  nan_of_saysNan h := absurd h hnan

theorem chance_clampUnit {value : Json} {x : Binary64} (h : number? value = .ok (some x))
    (hnan : x = .nan ↔ SaysNan value) : Chance value x.clampUnit where
  half_of_unreadable hvalue := by
    rcases hvalue with rfl | rfl | hnone
    · cases h
    · cases h
    · rw [h] at hnone
      cases hnone
  clamped y q hy hq := by
    rw [h] at hy
    cases hy
    exact Binary64.toRat?_clampUnit hq
  mem_unit hvalue := Binary64.exists_toRat?_clampUnit (mt hnan.mp hvalue)
  nan_of_saysNan hvalue := by rw [hnan.mpr hvalue, Binary64.clampUnit_nan]

/-- A field comes to a chance, unless it is an integer that is beyond all numbers. -/
theorem exists_probability {value : Json} (h : ¬Oversized value) :
    ∃ p log, probability value = .ok (p, log) ∧ Chance value p := by
  obtain ⟨x?, hx, hnan⟩ := exists_number?_of_not_oversized h
  unfold probability
  split
  · exact ⟨_, _, rfl, chance_half rfl (by simp [SaysNan])⟩
  · have hnone : number? (.text "") = .ok none := rfl
    obtain rfl : none = x? := Except.ok.inj (hnone.symm.trans hx)
    exact ⟨_, _, rfl, chance_half hnone (by simp [← hnan])⟩
  · cases x? with
    | none => exact ⟨_, _, by rw [hx]; rfl, chance_half hx (by simp [← hnan])⟩
    | some x => exact ⟨_, _, by rw [hx]; rfl, chance_clampUnit hx (by simp [← hnan])⟩

theorem probability_of_oversized {value : Json} (h : Oversized value) :
    probability value = .error tooLarge := by
  have hnumber := number?_of_oversized h
  obtain ⟨i, rfl, -⟩ := h
  simp only [probability, hnumber]
  rfl

/-! ### The decision -/

/-- A condition holds for a loop index, a random one when the number `x` is below the chance. -/
def Meets (loopIndex : Int) (p x : Binary64) (condition : Json) : Prop :=
  condition = .text "loop_index_is_even" ∧ loopIndex % 2 = 0 ∨
  condition = .text "loop_index_is_odd" ∧ loopIndex % 2 = 1 ∨
  condition = .text "loop_index_is_prime" ∧ isPrime loopIndex = true ∨
  condition = .text "random" ∧ x.lt p = true

/-- The numbers that are left when a condition has been evaluated. -/
def left (condition : Json) (draws : List Binary64) : List Binary64 :=
  match condition with
  | .text "random" => (draw draws).2
  | _ => draws

theorem holds_iff {loopIndex : Int} {p : Binary64} {draws : List Binary64} {condition : Json} :
    (holds condition loopIndex p draws).1 = true ↔
      Meets loopIndex p (draw draws).1 condition := by
  unfold holds Meets
  split <;> simp_all

theorem holds_snd (loopIndex : Int) (p : Binary64) (draws : List Binary64) (condition : Json) :
    (holds condition loopIndex p draws).2 = left condition draws := by
  unfold holds
  split
  · rfl
  · rfl
  · rfl
  · rfl
  · rename_i hrandom
    unfold left
    split
    · exact absurd rfl hrandom
    · rfl

/-- The conditions of a step skip it for a loop index, at a chance: the one to skip holds, or else
the one to run, which goes on with the numbers that are left, does not. -/
def Skips (config : Fields) (loopIndex : Int) (p : Binary64) (draws : List Binary64) : Prop :=
  (∃ c, stated? config "skip_condition" = some c ∧ Meets loopIndex p (draw draws).1 c) ∨
  ∃ c, stated? config "run_only_condition" = some c ∧
    ¬Meets loopIndex p (draw ((stated? config "skip_condition").elim draws (left · draws))).1 c

/-- The field of a step that states its chance. -/
abbrev chanceField (config : Fields) : Json := (Fields.get? config "probability").getD .null

/-- A step whose chance is known is skipped as its conditions say. -/
theorem decideSkip_of_probability {config : Fields} {p : Binary64} {log : List LogRecord}
    (h : probability (chanceField config) = .ok (p, log)) (loopIndex : Int)
    (draws : List Binary64) :
    ∃ decision, decideSkip config loopIndex draws = .ok decision ∧
      (decision.skip = true ↔ Skips config loopIndex p draws) := by
  unfold decideSkip
  split
  · rename_i hempty
    obtain rfl := List.isEmpty_iff.mp hempty
    exact ⟨_, rfl, by simp [Skips, stated?, Fields.get?]⟩
  · simp only [h]
    unfold Skips
    cases hskip : stated? config "skip_condition" with
    | none =>
      cases hrun : stated? config "run_only_condition" with
      | none => exact ⟨_, rfl, by simp⟩
      | some c => exact ⟨_, rfl, by simp [← holds_iff]⟩
    | some c =>
      rw [Option.elim_some, ← holds_snd loopIndex p]
      by_cases hholds : (holds c loopIndex p draws).1 = true
      · refine ⟨⟨true, (holds c loopIndex p draws).2, log⟩, ?_, ?_⟩
        · simp only [bind, Except.bind, hholds, if_true]
          rfl
        · exact iff_of_true rfl (.inl ⟨c, rfl, holds_iff.mp hholds⟩)
      · have hmeets := mt holds_iff.mpr hholds
        cases hrun : stated? config "run_only_condition" with
        | none =>
          refine ⟨⟨false, (holds c loopIndex p draws).2, log⟩, ?_, by simp [hmeets]⟩
          simp only [bind, Except.bind, hholds]
          rfl
        | some c' =>
          let skip := !(holds c' loopIndex p (holds c loopIndex p draws).2).1
          refine ⟨⟨skip, (holds c' loopIndex p (holds c loopIndex p draws).2).2, log⟩, ?_, ?_⟩
          · simp only [bind, Except.bind, hholds]
            rfl
          · simp [skip, hholds, ← holds_iff]

/-- A step with a chance that is beyond all numbers is not decided, whatever its conditions. -/
theorem decideSkip_of_oversized {config : Fields} (h : Oversized (chanceField config))
    (loopIndex : Int) (draws : List Binary64) :
    decideSkip config loopIndex draws = .error tooLarge := by
  have hne : ¬List.isEmpty config = true := by
    rintro hempty
    obtain rfl := List.isEmpty_iff.mp hempty
    obtain ⟨i, hi, -⟩ := h
    cases hi
  simp only [decideSkip, if_neg hne, probability_of_oversized h]
  rfl

/-- **Skipping.** For every step, loop index and list of drawn numbers it is decided whether the
step is skipped, and a random condition goes by a chance from zero to one, which is one half when
none is stated or what is stated cannot be read. There are two exceptions. An integer that is beyond
all numbers raises a fault, and a chance that says that it is not a number is none: no number is
below it. -/
theorem skipping (config : Fields) (loopIndex : Int) (draws : List Binary64) :
    (decideSkip config loopIndex draws = .error tooLarge ↔ Oversized (chanceField config)) ∧
    (¬Oversized (chanceField config) → ∃ decision p,
      decideSkip config loopIndex draws = .ok decision ∧ Chance (chanceField config) p ∧
        (decision.skip = true ↔ Skips config loopIndex p draws)) := by
  have hdecided (h : ¬Oversized (chanceField config)) : ∃ decision p,
      decideSkip config loopIndex draws = .ok decision ∧ Chance (chanceField config) p ∧
        (decision.skip = true ↔ Skips config loopIndex p draws) := by
    obtain ⟨p, log, hp, hchance⟩ := exists_probability h
    obtain ⟨decision, hdecision, hskip⟩ := decideSkip_of_probability hp loopIndex draws
    exact ⟨decision, p, hdecision, hchance, hskip⟩
  refine ⟨⟨fun herror => ?_, fun h => decideSkip_of_oversized h loopIndex draws⟩, hdecided⟩
  by_contra h
  obtain ⟨decision, -, hdecision, -⟩ := hdecided h
  rw [hdecision] at herror
  cases herror

/-- A chance of 10^399 raises a fault, though no condition is stated, and the word `nan` is passed
on as a chance. -/
theorem chance_beyond_numbers :
    (¬∃ decision, decideSkip [("probability", .int (10 ^ 399 : Nat))] 0 [] = .ok decision) ∧
      probability (.text "nan") = .ok (.nan, []) := by
  have hlarge : Oversized (chanceField [("probability", .int (10 ^ 399 : Nat))]) :=
    ⟨_, rfl, by decide +kernel⟩
  refine ⟨?_, rfl⟩
  rw [decideSkip_of_oversized hlarge]
  exact nofun

end Condition

end Runbook
