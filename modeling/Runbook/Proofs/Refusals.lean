import Runbook.Proofs.Steadiness
import Runbook.Rehearsal.Sample
import Mathlib.Tactic.ByContra
import Mathlib.Tactic.Push

/-!
# When a template is refused

To resolve a template is to come to a text, with two exceptions. A chain of declared variables, each
with the next one in its value, may be too long; then the last one of them is objected to. And a
token may ask for a random number whose count of digits cannot be read, because one of the
characters that look like digits has no place value, or because there are too many of them. No other
name, path, kind or function is objected to, and it does not matter what a template draws on.

What is refused is described without resolving anything: by following the tokens of the template,
those in the values of the variables of type environment that they stand for, and so on.

* `Template.BadCount digits`: a count of digits that cannot be read.
* `Template.Refused env n name e`: a token of this name is objected to with `e`, when declared
  variables may be reached through `n` more.
* `Template.Settles m E`: the resolution `m` is refused with some fault of `E`, and comes to a value
  if there is none in `E`, whatever it draws on.
* `Template.resolution_refused`: when templates and documents are refused.
-/

namespace Runbook.Numeral

open Text

/-- The code points of white space. -/
def spaceCodes : List Nat :=
  List.range' 9 5 ++ [0x20, 0x85, 0xa0, 0x1680] ++ List.range' 0x2000 11 ++
    [0x2028, 0x2029, 0x202f, 0x205f, 0x3000]

/-- What looks like a digit is no white space. -/
theorem not_isSpace_of_isDigitLike {c : Char} (h : isDigitLike c = true) : isSpace c = false := by
  have hcodes : ∀ n ∈ spaceCodes, isDigitLike (Char.ofNat n) = false := by decide +kernel
  by_contra hspace
  have hmem : c.toNat ∈ spaceCodes := by
    simp only [isSpace, Bool.not_eq_false, Bool.or_eq_true, Bool.and_eq_true, decide_eq_true_eq,
      beq_iff_eq] at hspace
    simp only [spaceCodes, List.mem_append, List.mem_range'_1, List.mem_cons, List.not_mem_nil]
    omega
  have hc := hcodes _ hmem
  rw [Char.ofNat_toNat, h] at hc
  cases hc

theorem lt_ten_of_digitValue? {c : Char} {d : Nat} (h : digitValue? c = some d) : d < 10 := by
  unfold digitValue? at h
  split at h
  · rw [Option.ite_none_right_eq_some] at h
    obtain ⟨hc, heq⟩ := h
    obtain rfl := Option.some.inj heq
    have hnine : c.toNat ≤ '9'.toNat := (Bool.and_eq_true_iff.mp hc).2 |> of_decide_eq_true
    change c.toNat ≤ 57 at hnine
    omega
  · obtain ⟨z, hz, rfl⟩ := Option.map_eq_some_iff.mp h
    have hc := List.find?_some hz
    simp only [Bool.and_eq_true, decide_eq_true_eq] at hc
    omega

/-- A character as `toAscii` writes it. -/
abbrev asciiOf (c : Char) : Char :=
  if c.toNat < 0x80 then c else
    match digitValue? c with
    | some d => Char.ofNat (48 + d)
    | none => c

/-- Exactly the decimal digits become ASCII digits. -/
theorem isDigit_asciiOf (c : Char) : (asciiOf c).isDigit = (digitValue? c).isSome := by
  unfold asciiOf
  split
  · rename_i hc
    rw [digitValue?, if_pos hc, Bool.eq_iff_iff, Option.isSome_ite]
    rfl
  · rename_i hc
    split
    · rename_i d hd
      have hdigits : ∀ d < 10, (Char.ofNat (48 + d)).isDigit = true := by decide
      rw [hdigits d (lt_ten_of_digitValue? hd), hd, Option.isSome_some]
    · rename_i hnone
      rw [hnone, Option.isSome_none, Char.isDigit, Bool.and_eq_false_iff]
      refine .inr (decide_eq_false fun hle => hc ?_)
      change c.toNat ≤ 57 at hle
      omega

/-- What looks like a digit becomes an ASCII digit or stays outside of ASCII. -/
theorem asciiOf_of_isDigitLike {c : Char} (h : isDigitLike c = true) :
    (asciiOf c).isDigit = true ∨ 0x80 ≤ (asciiOf c).toNat := by
  rw [isDigit_asciiOf]
  cases hd : digitValue? c with
  | some d => exact .inl rfl
  | none =>
    rw [isDigitLike, hd, Option.isSome_none, Bool.false_or, List.any_eq_true] at h
    obtain ⟨r, hr, hc⟩ := h
    have hrange : ∀ r ∈ otherDigits, 0x80 ≤ r.1 := by decide
    have hle : 0x80 ≤ c.toNat :=
      Nat.le_trans (hrange r hr) (of_decide_eq_true (Bool.and_eq_true_iff.mp hc).1)
    exact .inr (by rwa [asciiOf, if_neg (by omega), hd])

theorem ne_of_isDigitLike {c : Char} (h : isDigitLike c = true) {d : Char}
    (hdigit : d.isDigit = false) (hascii : d.toNat < 0x80) : asciiOf c ≠ d := by
  rintro rfl
  rcases asciiOf_of_isDigitLike h with h | h
  · rw [h] at hdigit
    cases hdigit
  · omega

theorem trimBoth_of_all {p : Char → Bool} {cs : List Char} (h : ∀ c ∈ cs, p c = false) :
    trimBoth p cs = cs := by
  have hdrop {ds : List Char} (hds : ∀ c ∈ ds, p c = false) : ds.dropWhile p = ds := by
    cases ds with
    | nil => rfl
    | cons c ds => exact List.dropWhile_cons_of_neg (by simp [hds c List.mem_cons_self])
  rw [trimBoth, hdrop h, hdrop fun c hc => h c (List.mem_reverse.mp hc), List.reverse_reverse]

theorem dropUnderscores_of_not_mem {cs : List Char} (h : '_' ∉ cs) :
    dropUnderscores cs = some cs := by
  have hgo (afterDigit : Bool) : dropUnderscores.go afterDigit cs = some cs := by
    induction cs generalizing afterDigit with
    | nil => rfl
    | cons c cs ih =>
      rw [List.mem_cons, not_or] at h
      rw [dropUnderscores.go, ih h.2, Option.map_some]
      exact Ne.symm h.1
  exact hgo false

theorem takeSign_of_not_mem {cs : List Char} (hminus : '-' ∉ cs) (hplus : '+' ∉ cs) :
    takeSign cs = (false, cs) := by
  unfold takeSign
  split
  · exact absurd List.mem_cons_self hminus
  · exact absurd List.mem_cons_self hplus
  · rfl

/-- Without a sign and without underscores there are only digits to read. -/
theorem signed?_of_not_mem {cs : List Char} (hminus : '-' ∉ cs) (hplus : '+' ∉ cs)
    (hunderscore : '_' ∉ cs) : (signed? cs).isSome = (!cs.isEmpty && cs.all Char.isDigit) := by
  rw [signed?, takeSign_of_not_mem hminus hplus]
  simp only [Option.isSome_map, natural?, dropUnderscores_of_not_mem hunderscore]
  split <;> simp_all

/-- A text of characters that look like digits is the numeral of an integer unless one of them has
no place value or there are too many of them. -/
theorem integer?_eq_none_iff {s : String} (hs : s ≠ "")
    (hlike : ∀ c ∈ s.toList, isDigitLike c = true) :
    integer? s = none ↔
      (∃ c ∈ s.toList, digitValue? c = none) ∨ maxDigits < s.toList.length := by
  obtain ⟨ds, hds⟩ : ∃ ds, ds = s.toList.map asciiOf := ⟨_, rfl⟩
  have hne (d : Char) (hdigit : d.isDigit = false) (hascii : d.toNat < 0x80) : d ∉ ds := by
    rw [hds, List.mem_map]
    rintro ⟨c, hc, heq⟩
    exact ne_of_isDigitLike (hlike c hc) hdigit hascii heq
  have hvalue : integer? s = if maxDigits < ds.countP Char.isDigit then none else signed? ds := by
    have hascii : toAscii (s.toList.map fun c => if isSpace c then ' ' else c) = ds := by
      rw [hds, toAscii, List.map_map]
      refine List.map_congr_left fun c hc => ?_
      rw [Function.comp_apply, not_isSpace_of_isDigitLike (hlike c hc)]
      rfl
    have htrim : trimBoth (· == ' ') ds = ds :=
      trimBoth_of_all fun c hc => beq_false_of_ne fun heq =>
        hne ' ' (by decide) (by decide) (heq ▸ hc)
    rw [integer?, hascii, htrim]
  have hsigned : (signed? ds).isSome = ds.all Char.isDigit := by
    rw [signed?_of_not_mem (hne '-' (by decide) (by decide)) (hne '+' (by decide) (by decide))
      (hne '_' (by decide) (by decide))]
    simp [hds, hs]
  have hall : ds.all Char.isDigit = true ↔ ∀ c ∈ s.toList, digitValue? c ≠ none := by
    simp [hds, isDigit_asciiOf, Option.isSome_iff_ne_none]
  have hlength : ds.length = s.toList.length := by rw [hds, List.length_map]
  rw [hvalue]
  by_cases hdigits : ds.all Char.isDigit = true
  -- Then every character counts as a digit.
  · rw [List.countP_eq_length.mpr (List.all_eq_true.mp hdigits), hlength]
    rw [hdigits, Option.isSome_iff_ne_none] at hsigned
    rw [ite_eq_left_iff, or_iff_right (fun ⟨c, hc, hnone⟩ => hall.mp hdigits c hc hnone)]
    exact ⟨fun h => by_contra fun hlt => hsigned (h hlt), fun h hlt => absurd h hlt⟩
  · have hnone : signed? ds = none := by
      rw [← Option.isNone_iff_eq_none, ← Option.isSome_eq_false_iff, hsigned]
      exact Bool.eq_false_iff.mpr hdigits
    rw [hnone, ite_self]
    rw [hall] at hdigits
    push Not at hdigits
    exact iff_of_true rfl (.inl hdigits)

end Runbook.Numeral

namespace Runbook.Template

open Text

variable {α β : Type}

/-! ### What is objected to -/

/-- A count of digits that looks like one and cannot be read. -/
structure BadCount (digits : String) : Prop where
  nonempty : digits ≠ ""
  digitLike : ∀ c ∈ digits.toList, isDigitLike c = true
  unreadable : (∃ c ∈ digits.toList, digitValue? c = none) ∨
    Numeral.maxDigits < digits.toList.length

/-- A token of this name stands for a declared variable whose value is a template itself. -/
structure Refers (env : Environment) (name : String) (v : Variable) : Prop
    extends Ordinary env name where
  static : env.context.static? name = none
  declared : env.config.bind (·.findVariable name) = some v
  environment : v.type = .environment

/-- A token of this name is objected to, when declared variables may be reached through `n` more:
it has a bad count, it stands for a variable out of reach, or there is a token that is objected to
in the value of the variable that it stands for. -/
inductive Refused (env : Environment) : Nat → String → ResolveFault → Prop
  | count {n : Nat} {digits : String} (h : BadCount digits) :
      Refused env n ("function." ++ ("randomNumber." ++ digits)) (.badCount digits)
  | deep {name : String} {v : Variable} (h : Refers env name v) :
      Refused env 0 name (.tooDeep v.key)
  | inside {n : Nat} {name : String} {v : Variable} {body : List Char} {e : ResolveFault}
      (h : Refers env name v) (hbody : .token body ∈ scan v.value.toList)
      (hname : Refused env n (tokenName body) e) : Refused env (n + 1) name e

/-- A text has a token that is objected to. -/
def RefusedIn (env : Environment) (n : Nat) (s : String) (e : ResolveFault) : Prop :=
  ∃ body, .token body ∈ scan s.toList ∧ Refused env n (tokenName body) e

variable {env : Environment}

/-- There are two kinds of objections. -/
theorem Refused.cases_fault {n : Nat} {name : String} {e : ResolveFault}
    (h : Refused env n name e) :
    (∃ key, e = .tooDeep key) ∨ ∃ digits, BadCount digits ∧ e = .badCount digits := by
  induction h with
  | count h => exact .inr ⟨_, h, rfl⟩
  | deep h => exact .inl ⟨_, rfl⟩
  | inside _ _ _ ih => exact ih

/-! ### Resolutions that are settled -/

/-- A resolution is refused with some fault of `E`, and comes to a value if there is none in `E`,
whatever it draws on. -/
def Settles (m : ResolveM α) (E : ResolveFault → Prop) : Prop :=
  ∀ d, (∃ a d', m.run.run d = (.ok a, d') ∧ ∀ e, ¬ E e) ∨
    ∃ e d', m.run.run d = (.error e, d') ∧ E e

/-- A resolution that comes to a value, whatever it draws on. -/
abbrev Certain (m : ResolveM α) : Prop := Settles m fun _ => False

theorem Settles.congr {m : ResolveM α} {E F : ResolveFault → Prop} (h : Settles m E)
    (heq : ∀ e, E e ↔ F e) : Settles m F := by
  rwa [← funext fun e => propext (heq e)]

theorem certain_pure (a : α) : Certain (pure a) :=
  fun d => .inl ⟨a, d, rfl, fun _ => id⟩

theorem settles_throw (e : ResolveFault) : Settles (throw e : ResolveM α) (· = e) :=
  fun d => .inr ⟨e, d, rfl, rfl⟩

theorem certain_warn (event : String) (fields : Fields) : Certain (warn event fields) :=
  fun _ => .inl ⟨(), _, rfl, fun _ => id⟩

theorem certain_drawBetween (low high : Int) : Certain (drawBetween low high) := by
  rintro ⟨_ | ⟨k, rest⟩, log⟩
  · exact .inl ⟨low, ⟨[], log⟩, rfl, fun _ => id⟩
  · exact .inl ⟨low + k.emod (high - low + 1), ⟨rest, log⟩, rfl, fun _ => id⟩

/-- One resolution after another is refused with what either of them is refused with. -/
theorem Settles.bind {m : ResolveM α} {f : α → ResolveM β} {E F : ResolveFault → Prop}
    (hm : Settles m E) (hf : ∀ a, Settles (f a) F) :
    Settles (m >>= f) fun e => E e ∨ F e := by
  intro d
  have hrun : (m >>= f).run.run d =
      (ExceptT.bindCont f (m.run.run d).1).run (m.run.run d).2 := rfl
  rw [hrun]
  rcases hm d with ⟨a, d₁, heq, hE⟩ | ⟨e, d₁, heq, hE⟩
  · rw [heq]
    rcases hf a d₁ with ⟨b, d₂, heq, hF⟩ | ⟨e, d₂, heq, hF⟩
    · exact .inl ⟨b, d₂, heq, fun e => not_or.mpr ⟨hE e, hF e⟩⟩
    · exact .inr ⟨e, d₂, heq, .inr hF⟩
  · rw [heq]
    exact .inr ⟨e, d₁, rfl, .inl hE⟩

/-- What is certain to come to a value adds nothing at the end. -/
theorem Settles.bind_certain {m : ResolveM α} {f : α → ResolveM β} {E : ResolveFault → Prop}
    (hm : Settles m E) (hf : ∀ a, Certain (f a)) : Settles (m >>= f) E :=
  (hm.bind hf).congr fun _ => iff_of_eq (or_false _)

theorem certain_bind {m : ResolveM α} {f : α → ResolveM β} {E : ResolveFault → Prop}
    (hm : Certain m) (hf : ∀ a, Settles (f a) E) : Settles (m >>= f) E :=
  (hm.bind hf).congr fun _ => iff_of_eq (false_or _)

/-! ### Tokens -/

theorem certain_fake (data : SampleData) (kind : String) : Certain (fake data kind) := by
  unfold fake
  split
  · exact certain_pure _
  · exact certain_bind (certain_warn _ _) fun _ => certain_pure _

theorem certain_runtimeValue (v : VariableContext) (path : String) :
    Certain (runtimeValue v path) := by
  unfold runtimeValue
  split
  · exact certain_pure _
  · exact certain_bind (certain_warn _ _) fun _ => certain_pure _

theorem badCount_iff {digits : String} :
    BadCount digits ↔ (!digits.isEmpty && digits.toList.all isDigitLike) = true ∧
      Numeral.integer? digits = none := by
  simp only [Bool.and_eq_true, Bool.not_eq_true', String.isEmpty_eq_false_iff, List.all_eq_true]
  constructor
  · intro h
    exact ⟨⟨h.nonempty, h.digitLike⟩,
      (Numeral.integer?_eq_none_iff h.nonempty h.digitLike).mpr h.unreadable⟩
  · rintro ⟨⟨hne, hlike⟩, hnone⟩
    exact ⟨hne, hlike, (Numeral.integer?_eq_none_iff hne hlike).mp hnone⟩

/-- A count is objected to when it is a bad one. -/
theorem settles_randomNumberLength? (name : String) : Settles (randomNumberLength? name) fun e =>
    ∃ digits, name = "randomNumber." ++ digits ∧ BadCount digits ∧ e = .badCount digits := by
  unfold randomNumberLength?
  split
  · rename_i hnone
    refine (certain_pure none).congr fun e => (false_iff _).mpr ?_
    rintro ⟨digits, hname, -, -⟩
    cases hnone.symm.trans (stripPrefix?_eq_some_iff.mpr hname)
  · rename_i digits hdigits
    rw [stripPrefix?_eq_some_iff] at hdigits
    have hunique {other : String} (h : name = "randomNumber." ++ other) : other = digits :=
      (String.append_right_inj _).mp (h.symm.trans hdigits)
    have hsound {n : Option Nat} (h : ¬ BadCount digits) : Settles (pure n : ResolveM (Option Nat))
        fun e => ∃ digits, name = "randomNumber." ++ digits ∧ BadCount digits ∧
          e = .badCount digits := by
      refine (certain_pure n).congr fun e => (false_iff _).mpr ?_
      rintro ⟨other, hname, hbad, -⟩
      exact h (hunique hname ▸ hbad)
    split
    · rename_i hlike
      split
      · rename_i hnone
        refine (settles_throw _).congr fun e => ⟨?_, ?_⟩
        · rintro rfl
          exact ⟨digits, hdigits, badCount_iff.mpr ⟨hlike, hnone⟩, rfl⟩
        · rintro ⟨other, hname, -, rfl⟩
          rw [hunique hname]
      · rename_i n hn
        refine hsound fun hbad => ?_
        cases hn.symm.trans (badCount_iff.mp hbad).2
    · rename_i hlike
      exact hsound fun hbad => hlike (badCount_iff.mp hbad).1

theorem settles_callFunction (now : Int) (name : String) : Settles (callFunction now name) fun e =>
    ∃ digits, name = "randomNumber." ++ digits ∧ BadCount digits ∧ e = .badCount digits := by
  refine (settles_randomNumberLength? name).bind_certain fun found => ?_
  cases found with
  | some n => exact certain_bind (certain_drawBetween _ _) fun _ => certain_pure _
  | none =>
    dsimp only
    split
    · exact certain_pure _
    · exact certain_bind (certain_warn _ _) fun _ => certain_pure _

theorem certain_dynamicValue (v : Variable) : Certain (dynamicValue env v) := by
  unfold dynamicValue
  dsimp only
  split
  · split
    · exact certain_fake _ _
    · exact certain_pure _
  · exact certain_pure _

/-- A declared variable is objected to when it is of type environment and out of reach, or has
something in its value that is objected to. -/
def RefusedFor (env : Environment) (v : Variable) : Nat → ResolveFault → Prop
  | 0, e => v.type = .environment ∧ e = .tooDeep v.key
  | n + 1, e => v.type = .environment ∧ RefusedIn env n v.value e

/-- Which names are objected to. -/
theorem refused_iff {n : Nat} {name : String} {e : ResolveFault} :
    Refused env n name e ↔
      (∃ digits, name = "function." ++ ("randomNumber." ++ digits) ∧ BadCount digits ∧
        e = .badCount digits) ∨
      ∃ v, Ordinary env name ∧ env.context.static? name = none ∧
        env.config.bind (·.findVariable name) = some v ∧ RefusedFor env v n e := by
  constructor
  · intro h
    cases h with
    | count h => exact .inl ⟨_, rfl, h, rfl⟩
    | deep h => exact .inr ⟨_, h.toOrdinary, h.static, h.declared, h.environment, rfl⟩
    | inside h hbody hname =>
      exact .inr ⟨_, h.toOrdinary, h.static, h.declared, h.environment, _, hbody, hname⟩
  · rintro (⟨digits, rfl, h, rfl⟩ | ⟨v, hname, hstatic, hv, h⟩)
    · exact .count h
    · cases n with
      | zero =>
        obtain ⟨htype, rfl⟩ := h
        exact .deep ⟨hname, hstatic, hv, htype⟩
      | succ n =>
        obtain ⟨htype, body, hbody, hrefused⟩ := h
        exact .inside ⟨hname, hstatic, hv, htype⟩ hbody hrefused

section Declared

variable {n : Nat} (hdeclared : ∀ v, Settles (declaredValue env n v) (RefusedFor env v n))

include hdeclared

theorem settles_tokenValue (name : String) :
    Settles (tokenValue env (declaredValue env n) name) (Refused env n name) := by
  -- When a name is neither that of a generator function nor that of a declared variable.
  have hcertain {m : ResolveM (Option String)} (hm : Certain m)
      (hfunction : ∀ rest, name ≠ "function." ++ rest)
      (hname : Ordinary env name → env.context.static? name = none →
        env.config.bind (·.findVariable name) = none) : Settles m (Refused env n name) := by
    refine hm.congr fun e => (false_iff _).mpr fun h => ?_
    rcases refused_iff.mp h with ⟨digits, heq, -, -⟩ | ⟨v, hord, hstatic, hv, -⟩
    · exact hfunction _ heq
    · cases (hname hord hstatic).symm.trans hv
  have hsource := source_tokenValue env (declaredValue env n) name
  generalize tokenValue env (declaredValue env n) name = m at hsource ⊢
  cases hsource with
  | reserved h =>
    exact hcertain (certain_pure _) (ne_append_of_reserved h (by simp)) fun hord => by
      cases h.symm.trans hord.reserved
  | runtime h =>
    exact hcertain ((certain_runtimeValue _ _).bind_certain fun _ => certain_pure _)
      (by simp [h, ← String.toList_inj]) fun hord => absurd h (hord.runtime _)
  | sample h =>
    exact hcertain ((certain_fake _ _).bind_certain fun _ => certain_pure _)
      (by simp [h, ← String.toList_inj]) fun hord => absurd h (hord.faker _)
  | generated h =>
    obtain rfl := h
    refine ((settles_callFunction _ _).bind_certain fun _ => certain_pure _).congr fun e => ?_
    simp only [refused_iff, String.append_right_inj]
    refine (or_iff_left ?_).symm
    rintro ⟨v, hord, -⟩
    exact hord.function _ rfl
  | static hord h =>
    exact hcertain (certain_pure _) hord.function fun _ hnone => by cases hnone.symm.trans h
  | @declared v hord hstatic hv =>
    refine ((hdeclared v).bind_certain fun _ => certain_pure _).congr fun e => ?_
    rw [refused_iff, or_iff_right (fun ⟨digits, heq, _⟩ => hord.function _ heq)]
    refine ⟨fun h => ⟨v, hord, hstatic, hv, h⟩, ?_⟩
    rintro ⟨w, -, -, hw, h⟩
    rwa [Option.some.inj (hv.symm.trans hw)]
  | unknown h =>
    exact hcertain (certain_bind (certain_warn _ _) fun _ => certain_pure _) h.function
      fun _ _ => h.declared

theorem settles_piecesValue (ps : List Piece) :
    Settles (piecesValue env (declaredValue env n) ps) fun e =>
      ∃ body, .token body ∈ ps ∧ Refused env n (tokenName body) e := by
  induction ps with
  | nil => exact (certain_pure _).congr fun e => by simp
  | cons p ps ih =>
    have hpiece : Settles (pieceValue env (declaredValue env n) p) fun e =>
        ∃ body, p = .token body ∧ Refused env n (tokenName body) e := by
      cases p with
      | char c => exact (certain_pure _).congr fun e => by simp
      | token body =>
        refine ((settles_tokenValue hdeclared _).bind_certain ?_).congr fun e => by simp
        rintro (_ | s) <;> exact certain_pure _
    refine (hpiece.bind fun front => ih.bind_certain fun back => certain_pure _).congr fun e => ?_
    simp only [List.mem_cons, or_and_right, exists_or, eq_comm]

theorem settles_textWith (s : String) :
    Settles (textWith env (declaredValue env n) s) (RefusedIn env n s) :=
  (settles_piecesValue hdeclared _).bind_certain fun _ => certain_pure _

end Declared

/-- A variable of another type than environment is not objected to. -/
theorem Settles.refusedFor {v : Variable} {m : ResolveM String} (hm : Certain m)
    (htype : v.type ≠ .environment) (n : Nat) : Settles m (RefusedFor env v n) := by
  refine hm.congr fun e => (false_iff _).mpr fun h => ?_
  cases n <;> exact htype h.1

theorem settles_declaredValue (n : Nat) (v : Variable) :
    Settles (declaredValue env n v) (RefusedFor env v n) := by
  induction n generalizing v with
  | zero =>
    unfold declaredValue
    split
    · exact (certain_pure _).refusedFor (by simp [*]) 0
    · exact (certain_dynamicValue v).refusedFor (by simp [*]) 0
    · exact (settles_throw _).congr fun e => (and_iff_right ‹_›).symm
  | succ n ih =>
    unfold declaredValue
    split
    · exact (certain_pure _).refusedFor (by simp [*]) (n + 1)
    · exact (certain_dynamicValue v).refusedFor (by simp [*]) (n + 1)
    · exact (settles_textWith ih _).congr fun e => (and_iff_right ‹_›).symm

theorem settles_resolveText (s : String) :
    Settles (resolveText env s) (RefusedIn env maxDepth s) :=
  settles_textWith (settles_declaredValue maxDepth) s

/-! ### Documents -/

/-- A document has a text with a token that is objected to, but for those in deferred places. -/
def RefusedAmong (env : Environment) (deferred inner : List Deferral) (x : Json)
    (e : ResolveFault) : Prop :=
  ¬ Mentions (fun s => ¬ RefusedIn env maxDepth s e) deferred inner x

theorem refusedAmong_text {deferred inner : List Deferral} {s : String} {e : ResolveFault} :
    RefusedAmong env deferred inner (.text s) e ↔ RefusedIn env maxDepth s e := by
  simp [RefusedAmong, Rewritten]

mutual

/-- A document is refused when one of its texts is, but for those in deferred places. -/
theorem settles_resolveTree (deferred inner : List Deferral) :
    ∀ x : Json, Settles (resolveTree env deferred inner x) (RefusedAmong env deferred inner x)
  | .text s => by
    rw [resolveTree]
    exact ((settles_resolveText s).bind_certain fun _ => certain_pure _).congr fun e =>
      refusedAmong_text.symm
  | .list items => by
    rw [resolveTree]
    refine ((settles_resolveItems inner items).bind_certain fun _ => certain_pure _).congr
      fun e => ?_
    simp [RefusedAmong, Rewritten]
  | .object fields => by
    rw [resolveTree]
    refine ((settles_resolveFields deferred fields).bind_certain fun _ => certain_pure _).congr
      fun e => ?_
    simp [RefusedAmong, Rewritten]
  | .null => (certain_pure _).congr fun e => by simp [RefusedAmong, Rewritten]
  | .bool _ => (certain_pure _).congr fun e => by simp [RefusedAmong, Rewritten]
  | .int _ => (certain_pure _).congr fun e => by simp [RefusedAmong, Rewritten]
  | .float _ => (certain_pure _).congr fun e => by simp [RefusedAmong, Rewritten]
  | .foreign _ _ _ => (certain_pure _).congr fun e => by simp [RefusedAmong, Rewritten]

theorem settles_resolveItems (inner : List Deferral) :
    ∀ xs : List Json, Settles (resolveItems env inner xs) fun e =>
      ¬ RewrittenItems (fun s _ => ¬ RefusedIn env maxDepth s e) inner xs xs
  | [] => (certain_pure _).congr fun e => by simp [RewrittenItems]
  | x :: xs => by
    rw [resolveItems]
    refine ((settles_resolveTree inner [] x).bind fun _ =>
      (settles_resolveItems inner xs).bind_certain fun _ => certain_pure _).congr fun e => ?_
    rw [RefusedAmong, ← not_and_or]
    simp [RewrittenItems]

theorem settles_resolveFields (deferred : List Deferral) :
    ∀ fs : List (String × Json), Settles (resolveFields env deferred fs) fun e =>
      ¬ RewrittenFields (fun s _ => ¬ RefusedIn env maxDepth s e) deferred fs fs
  | [] => (certain_pure _).congr fun e => by simp [RewrittenFields]
  | (key, x) :: fs => by
    have hfs : Settles (resolveFields env deferred fs) _ := settles_resolveFields deferred fs
    rw [resolveFields]
    simp only [List.contains_iff_mem]
    by_cases hkey : .key key ∈ deferred
    · rw [if_pos hkey]
      refine (certain_bind (certain_pure x) fun _ => hfs.bind_certain fun _ =>
        certain_pure _).congr fun e => ?_
      simp [RewrittenFields, hkey]
    · rw [if_neg hkey]
      refine ((settles_resolveTree [] _ x).bind fun _ => hfs.bind_certain fun _ =>
        certain_pure _).congr fun e => ?_
      rw [RefusedAmong, ← not_and_or]
      simp [RewrittenFields, hkey]

end

/-- Why something has been refused, if it has. -/
def reason? {α : Type} : Except ResolveFault α → Option ResolveFault
  | .ok _ => none
  | .error e => some e

/-- An environment in which nothing is declared. -/
def bareEnvironment : Environment := ⟨{}, none, Rehearsal.sampleData, 0⟩

/-- A token that asks for a random number with a superscript two for its count of digits. -/
def superscript : String := "\x7b\x7bfunction.randomNumber.²\x7d\x7d"

end Runbook.Template
