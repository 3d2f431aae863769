import Runbook.Json.Reader
import Runbook.Json.Writer

/-!
# Documents and their JSON texts

A document reads back from its JSON text. The argument follows the writer. An escaped character
reads back as that character, a code unit at a time where it has no letter of its own; so does a
string, up to its closing quote. The numeral of a whole number ends where the next delimiter stands.
Inside a list or an object the reader takes one step for each item, and `value_chars` puts these
steps together along the document, with fuel counted by the characters.

Decimal numbers are left out: that their shortest numeral reads back is a fact about rounding.
-/

namespace Runbook

/-! ### Hexadecimal digits -/

namespace Text

theorem hexValue?_hexDigit {n : Nat} (h : n < 16) : hexValue? (hexDigit n) = some n := by
  have hall : ∀ n < 16, hexValue? (hexDigit n) = some n := by decide
  exact hall n h

/-- The digits of a number that fits read back. -/
theorem hexNumber?_hexChars {width n : Nat} (h : n < Nat.pow 16 width) :
    hexNumber? (hexChars width n) = some n := by
  induction width generalizing n with
  | zero =>
    have hn : n = 0 := Nat.lt_one_iff.mp h
    subst hn
    rfl
  | succ width ih =>
    have hfirst : n / 16 < Nat.pow 16 width := Nat.div_lt_of_lt_mul (Nat.mul_comm 16 _ ▸ h)
    have hlast : hexValue? (hexDigit (n % 16)) = some (n % 16) :=
      hexValue?_hexDigit (Nat.mod_lt _ (by omega))
    have hdigits := ih hfirst
    rw [hexNumber?] at hdigits ⊢
    rw [hexChars, List.foldlM_append, hdigits]
    simp [hlast]
    omega

theorem length_hexChars (width n : Nat) : (hexChars width n).length = width := by
  induction width generalizing n with
  | zero => rfl
  | succ width ih => rw [hexChars, List.length_append, ih, List.length_singleton]

end Text

namespace Json

open Text

/-! ### Strings -/

/-- The characters of a JSON string after its opening quote. -/
def bodyChars (cs : List Char) : List Char := cs.flatMap escapeChar ++ ['"']

theorem toList_foldl_push (cs : List Char) (s : String) :
    (cs.foldl String.push s).toList = s.toList ++ cs := by
  induction cs generalizing s with
  | nil => simp
  | cons c cs ih => rw [List.foldl_cons, ih, String.toList_push, List.append_assoc]; rfl

theorem toList_writeString (out s : String) :
    (writeString out s).toList = out.toList ++ '"' :: bodyChars s.toList := by
  have hbody : ∀ (cs : List Char) (acc : String),
      (cs.foldl (fun acc c => (escapeChar c).foldl String.push acc) acc).toList
        = acc.toList ++ cs.flatMap escapeChar := by
    intro cs
    induction cs with
    | nil => simp
    | cons c cs ih =>
      intro acc
      rw [List.foldl_cons, ih, toList_foldl_push, List.flatMap_cons, List.append_assoc]
  rw [writeString, String.toList_push, hbody, String.toList_push, bodyChars]
  simp

/-- The escape of a code unit reads back, when a character follows. -/
theorem codeUnit_hexChars {n : Nat} (hn : n < 0x10000) (place : List Char) {rest : List Char}
    (hrest : rest ≠ []) : codeUnit place (hexChars 4 n ++ rest) = .ok (n, rest) := by
  have hlength := length_hexChars 4 n
  have hpositive := List.length_pos_iff.mpr hrest
  rw [codeUnit, if_neg (by rw [List.length_append]; omega),
    List.take_append_of_le_length (by omega), List.take_of_length_le (by omega),
    hexNumber?_hexChars hn, List.drop_append_of_le_length (by omega),
    List.drop_of_length_le (by omega)]
  rfl

/-- No character is half of a pair. -/
theorem not_half (c : Char) : isHighUnit c.toNat = false ∧ isLowUnit c.toNat = false := by
  have hvalid : c.toNat < 0xd800 ∨ 0xdfff < c.toNat ∧ c.toNat < 0x110000 := c.valid
  simp only [isHighUnit, isLowUnit, Bool.and_eq_false_iff, decide_eq_false_iff_not]
  omega

/-- The escape of a character of the first plane reads back. -/
theorem escape_unit {c : Char} (h : c.toNat < 0x10000) (start : Nat) {rest : List Char}
    (hrest : rest ≠ []) : escape start ('u' :: hexChars 4 c.toNat ++ rest) = .ok (c, rest) := by
  obtain ⟨hhigh, hlow⟩ := not_half c
  have hchar : charOfUnit c.toNat = c := by simp [charOfUnit, hhigh, hlow]
  simp only [List.cons_append, escape]
  rw [codeUnit_hexChars h _ hrest]
  simp [Except.bind, bind, hhigh, hchar]

/-- The second half of a pair is found. -/
theorem lowUnit_escapeUnit {low : Nat} (hlow : isLowUnit low) {rest : List Char}
    (hrest : rest ≠ []) : lowUnit (escapeUnit low ++ rest) = .ok (some (low, rest)) := by
  have hlength := length_hexChars 4 low
  have hpositive := List.length_pos_iff.mpr hrest
  have hfits : low < 0x10000 := by
    simp only [isLowUnit, Bool.and_eq_true, decide_eq_true_eq] at hlow
    omega
  have hlong : ¬ ('\\' :: 'u' :: (hexChars 4 low ++ rest)).length < 7 := by
    simp only [List.length_cons, List.length_append]
    omega
  rw [escapeUnit, List.cons_append, List.cons_append, lowUnit, if_neg hlong,
    List.take_append_of_le_length (by omega), List.take_of_length_le (by omega),
    hexNumber?_hexChars hfits, List.drop_append_of_le_length (by omega),
    List.drop_of_length_le (by omega)]
  simp [hlow]

/-- Two escapes that are a pair read back as one character. -/
theorem escape_pair {high low : Nat} (hhigh : isHighUnit high) (hlow : isLowUnit low) (start : Nat)
    {rest : List Char} (hrest : rest ≠ []) :
    escape start ('u' :: hexChars 4 high ++ (escapeUnit low ++ rest))
      = .ok (charOfPair high low, rest) := by
  have hfits : high < 0x10000 := by
    simp only [isHighUnit, Bool.and_eq_true, decide_eq_true_eq] at hhigh
    omega
  simp only [List.cons_append, escape]
  rw [codeUnit_hexChars hfits _ (by simp [escapeUnit])]
  simp [Except.bind, bind, hhigh, lowUnit_escapeUnit hlow hrest]

/-- The pair of a character beyond the first plane. -/
theorem pair_of_char {c : Char} (h : ¬ c.toNat < 0x10000) :
    isHighUnit (0xd800 + (c.toNat - 0x10000) / 0x400)
      ∧ isLowUnit (0xdc00 + (c.toNat - 0x10000) % 0x400)
      ∧ charOfPair (0xd800 + (c.toNat - 0x10000) / 0x400)
          (0xdc00 + (c.toNat - 0x10000) % 0x400) = c := by
  have hvalid : c.toNat < 0xd800 ∨ 0xdfff < c.toNat ∧ c.toNat < 0x110000 := c.valid
  refine ⟨?_, ?_, ?_⟩
  · simp only [isHighUnit, Bool.and_eq_true, decide_eq_true_eq]
    omega
  · simp only [isLowUnit, Bool.and_eq_true, decide_eq_true_eq]
    omega
  · have hnumber : 0x10000 + (0xd800 + (c.toNat - 0x10000) / 0x400 - 0xd800) * 0x400
        + (0xdc00 + (c.toNat - 0x10000) % 0x400 - 0xdc00) = c.toNat := by omega
    rw [charOfPair, hnumber, Char.ofNat_toNat]

/-- **An escaped character reads back.** -/
theorem stringBody_escapeChar (start fuel : Nat) (done : List Char) (c : Char) {rest : List Char}
    (hrest : rest ≠ []) :
    stringBody start (fuel + 1) done (escapeChar c ++ rest)
      = stringBody start fuel (c :: done) rest := by
  have hescaped : ∀ {cs : List Char}, escape start (cs ++ rest) = .ok (c, rest) →
      stringBody start (fuel + 1) done ('\\' :: cs ++ rest)
        = stringBody start fuel (c :: done) rest := by
    intro cs hcs
    simp only [List.cons_append, stringBody, hcs]
  have hcontrol : ∀ n, c.toNat = n → c = Char.ofNat n := fun n hn => by
    rw [← hn, Char.ofNat_toNat]
  -- one case for each form of escape, in the order of the writer
  unfold escapeChar
  split
  next hc => cases eq_of_beq hc; exact hescaped (by simp [escape])
  split
  next hc => cases eq_of_beq hc; exact hescaped (by simp [escape])
  split
  next hc => cases eq_of_beq hc; exact hescaped (by simp [escape])
  split
  next hc => cases eq_of_beq hc; exact hescaped (by simp [escape])
  split
  next hc => cases eq_of_beq hc; exact hescaped (by simp [escape])
  split
  next hc => cases hcontrol 8 (eq_of_beq hc); exact hescaped (by simp [escape])
  split
  next hc => cases hcontrol 12 (eq_of_beq hc); exact hescaped (by simp [escape])
  split
  next hquote hslash _ _ _ _ _ hplain =>
    have hc : ¬ c.toNat < 0x20 := by
      simp only [Bool.and_eq_true, decide_eq_true_eq] at hplain
      omega
    simp only [beq_iff_eq] at hquote hslash
    rw [List.cons_append, List.nil_append, stringBody, if_neg hc]
    · exact hquote
    · exact hslash
  split
  next hfirst => exact hescaped (escape_unit hfirst start hrest)
  next hbeyond =>
    obtain ⟨hhigh, hlow, hpair⟩ := pair_of_char hbeyond
    have hread := escape_pair hhigh hlow start hrest
    rw [hpair, ← List.append_assoc] at hread
    exact hescaped hread

/-- The characters of a string read back, up to the closing quote. -/
theorem stringBody_bodyChars (start : Nat) {fuel : Nat} {cs : List Char} (h : cs.length < fuel)
    (done rest : List Char) :
    stringBody start fuel done (bodyChars cs ++ rest)
      = .ok (String.ofList (done.reverse ++ cs), rest) := by
  induction cs generalizing fuel done with
  | nil =>
    obtain ⟨fuel, rfl⟩ : ∃ k, fuel = k + 1 := ⟨fuel - 1, by omega⟩
    simp [bodyChars, stringBody]
  | cons c cs ih =>
    obtain ⟨fuel, rfl⟩ : ∃ k, fuel = k + 1 := ⟨fuel - 1, by omega⟩
    have hmore : bodyChars cs ++ rest ≠ [] := by simp [bodyChars]
    have hcons : bodyChars (c :: cs) ++ rest = escapeChar c ++ (bodyChars cs ++ rest) := by
      simp [bodyChars]
    rw [List.length_cons] at h
    rw [hcons, stringBody_escapeChar start fuel done c hmore, ih (by omega)]
    simp

theorem escapeChar_ne_nil (c : Char) : escapeChar c ≠ [] := by
  unfold escapeChar
  repeat' split
  all_goals simp [escapeUnit]

theorem length_lt_bodyChars (cs : List Char) : cs.length < (bodyChars cs).length := by
  induction cs with
  | nil => simp [bodyChars]
  | cons c cs ih =>
    have hc := List.length_pos_iff.mpr (escapeChar_ne_nil c)
    simp only [bodyChars, List.flatMap_cons, List.length_append, List.length_cons] at ih ⊢
    omega

/-- **A string reads back.** -/
theorem string_bodyChars (s : String) (rest : List Char) :
    string (bodyChars s.toList ++ rest) = .ok (s, rest) := by
  have hlength := length_lt_bodyChars s.toList
  rw [string, stringBody_bodyChars _ (by rw [List.length_append]; omega)]
  simp

/-! ### Words and whole numbers -/

/-- What may follow a numeral. -/
def Delimited (rest : List Char) : Prop :=
  ∀ c ∈ rest.head?, c.isDigit = false ∧ c ≠ '.' ∧ c ≠ 'e' ∧ c ≠ 'E'

theorem exponentPart_of_delimited {rest : List Char} (h : Delimited rest) :
    exponentPart rest = none := by
  cases rest with
  | nil => rfl
  | cons c cs =>
    obtain ⟨-, -, hlower, hupper⟩ := h c rfl
    rw [exponentPart, if_neg (by simp [hlower, hupper])]

/-- A number above zero is written without a leading zero. -/
theorem head_toDigits {n : Nat} (h : 0 < n) :
    ∃ d ds, Nat.toDigits 10 n = d :: ds ∧ d ≠ '0' := by
  induction n using Nat.strongRecOn with
  | ind n ih =>
    by_cases hn : n < 10
    · rw [Nat.toDigits_of_lt_base hn]
      refine ⟨_, [], rfl, ?_⟩
      rw [Ne, Nat.digitChar_eq_zero]
      omega
    · obtain ⟨d, ds, hds, hd⟩ := ih (n / 10) (by omega) (by omega)
      rw [Nat.toDigits_of_base_le (by omega) (by omega), hds]
      exact ⟨d, _, rfl, hd⟩

/-- The integer part of a numeral is what the writer wrote of it. -/
theorem wholeDigits_toDigits (n : Nat) {rest : List Char} (h : Delimited rest) :
    wholeDigits (Nat.toDigits 10 n ++ rest) = Nat.toDigits 10 n := by
  have hdigits : ∀ c ∈ Nat.toDigits 10 n, c.isDigit := fun c hc =>
    Nat.isDigit_of_mem_toDigits (by omega) (by omega) hc
  have hrest : rest.takeWhile Char.isDigit = [] := by
    cases rest with
    | nil => rfl
    | cons c cs => simp [(h c rfl).1]
  by_cases hn : n = 0
  · subst hn
    rfl
  · obtain ⟨d, ds, hds, hd⟩ := head_toDigits (Nat.pos_of_ne_zero hn)
    rw [hds] at hdigits ⊢
    unfold wholeDigits
    split
    next heq => exact absurd (List.head_eq_of_cons_eq heq) hd
    next => rw [List.takeWhile_append_of_pos hdigits, hrest, List.append_nil]

theorem fractionDigits_of_delimited {rest : List Char} (h : Delimited rest) :
    fractionDigits rest = [] := by
  unfold fractionDigits
  split
  next => exact absurd rfl (h _ rfl).2.1
  next => rfl

/-- A number begins with a digit. -/
theorem exists_digit (n : Nat) : ∃ d ds, Nat.toDigits 10 n = d :: ds ∧ d.isDigit := by
  obtain ⟨d, ds, hds⟩ := List.exists_cons_of_ne_nil (Nat.toDigits_ne_nil (n := n) (b := 10))
  have hd : d.isDigit := Nat.isDigit_of_mem_toDigits (b := 10) (n := n) (by omega) (by omega)
    (by rw [hds]; exact List.mem_cons_self)
  exact ⟨d, ds, hds, hd⟩

theorem ne_of_isDigit {c d : Char} (hd : d.isDigit) (hc : c.isDigit = false) : d ≠ c := by
  rintro rfl
  rw [hd] at hc
  cases hc

/-- The numeral of a whole number reads back. -/
theorem number?_of_takeMinus {cs rest : List Char} {negative : Bool} {n : Nat}
    (h : Delimited rest) (hsign : takeMinus cs = (negative, Nat.toDigits 10 n ++ rest)) :
    number? cs = some (.int (if negative then -(n : Int) else n), rest) := by
  have hvalue : Numeral.valueOf (Nat.toDigits 10 n) = n := Nat.ofDigitChars_ten_toDigits
  unfold number?
  rw [hsign]
  simp [wholeDigits_toDigits n h, fractionDigits_of_delimited h, exponentPart_of_delimited h,
    hvalue]

/-- The text of a whole number is its digits, after a minus sign when it is below zero. -/
theorem toList_toString_int (i : Int) :
    (toString i).toList = if i < 0 then '-' :: Nat.toDigits 10 i.natAbs
      else Nat.toDigits 10 i.natAbs := by
  cases i with
  | ofNat n => simp [toString, Int.repr]
  | negSucc n => simp [toString, Int.repr, Int.negSucc_lt_zero]

theorem number?_int (i : Int) {rest : List Char} (h : Delimited rest) :
    number? ((toString i).toList ++ rest) = some (.int i, rest) := by
  rw [toList_toString_int]
  by_cases hi : i < 0
  · have hback : -(i.natAbs : Int) = i := by omega
    have hsign : takeMinus ('-' :: Nat.toDigits 10 i.natAbs ++ rest)
        = (true, Nat.toDigits 10 i.natAbs ++ rest) := rfl
    rw [if_pos hi, number?_of_takeMinus h hsign, if_pos rfl, hback]
  · have hback : (i.natAbs : Int) = i := by omega
    have hsign : takeMinus (Nat.toDigits 10 i.natAbs ++ rest)
        = (false, Nat.toDigits 10 i.natAbs ++ rest) := by
      obtain ⟨d, ds, hds, hd⟩ := exists_digit i.natAbs
      rw [hds, List.cons_append]
      unfold takeMinus
      split
      next heq => exact absurd (List.head_eq_of_cons_eq heq) (ne_of_isDigit hd rfl)
      next => rfl
    rw [if_neg hi, number?_of_takeMinus h hsign, if_neg (by simp), hback]

/-- No word begins like the numeral of a whole number. -/
theorem words_int (i : Int) (rest : List Char) :
    (words.findSome? fun w =>
      (word? w.1 ((toString i).toList ++ rest)).map fun rest => (w.2, rest)) = none := by
  obtain ⟨d, ds, hds, hd⟩ := exists_digit i.natAbs
  have hne : ∀ {c : Char}, c.isDigit = false → c ≠ d := fun hc => Ne.symm (ne_of_isDigit hd hc)
  rw [toList_toString_int, hds]
  split
  · simp [words, word?, hne (c := 'I') rfl]
  · simp [words, word?, hne (c := 'n') rfl, hne (c := 't') rfl, hne (c := 'f') rfl,
      hne (c := 'N') rfl, hne (c := 'I') rfl, hne (c := '-') rfl]

theorem atom_int (i : Int) {rest : List Char} (h : Delimited rest) :
    atom ((toString i).toList ++ rest) = .ok (.int i, rest) := by
  rw [atom, words_int, number?_int i h]

/-! ### Documents -/

mutual

/-- A document that its JSON text determines without rounding: it holds no decimal number and no
value of another format, and no object has a key twice. -/
def Plain : Json → Prop
  | .float _ | .foreign _ _ _ => False
  | .list items => PlainItems items
  | .object fields => (fields.map Prod.fst).Nodup ∧ PlainFields fields
  | _ => True

def PlainItems : List Json → Prop
  | [] => True
  | x :: rest => Plain x ∧ PlainItems rest

def PlainFields : List (String × Json) → Prop
  | [] => True
  | (_, x) :: rest => Plain x ∧ PlainFields rest

end

mutual

def decidePlain : (x : Json) → Decidable (Plain x)
  | .float _ | .foreign _ _ _ => .isFalse id
  | .list items => decidePlainItems items
  | .object fields =>
    have := decidePlainFields fields
    inferInstanceAs (Decidable ((fields.map Prod.fst).Nodup ∧ PlainFields fields))
  | .null | .bool _ | .int _ | .text _ => .isTrue trivial

def decidePlainItems : (items : List Json) → Decidable (PlainItems items)
  | [] => .isTrue trivial
  | x :: rest =>
    have := decidePlain x
    have := decidePlainItems rest
    inferInstanceAs (Decidable (Plain x ∧ PlainItems rest))

def decidePlainFields : (fields : List (String × Json)) → Decidable (PlainFields fields)
  | [] => .isTrue trivial
  | (_, x) :: rest =>
    have := decidePlain x
    have := decidePlainFields rest
    inferInstanceAs (Decidable (Plain x ∧ PlainFields rest))

end

instance : DecidablePred PlainItems := decidePlainItems

mutual

/-- The characters of a document as JSON text. -/
def chars : Json → List Char
  | .null => "null".toList
  | .bool b => (if b then "true" else "false").toList
  | .int i => (toString i).toList
  | .float x => (numberText x).toList
  | .text s => '"' :: bodyChars s.toList
  | .list items => '[' :: (itemsChars items ++ [']'])
  | .object fields => '\x7b' :: (fieldsChars fields ++ ['\x7d'])
  | .foreign _ _ alone => '"' :: bodyChars alone.toList

def itemsChars : List Json → List Char
  | [] => []
  | [x] => chars x
  | x :: rest => chars x ++ ',' :: ' ' :: itemsChars rest

def fieldsChars : List (String × Json) → List Char
  | [] => []
  | [(k, x)] => '"' :: (bodyChars k.toList ++ ':' :: ' ' :: chars x)
  | (k, x) :: rest =>
    '"' :: (bodyChars k.toList ++ ':' :: ' ' :: (chars x ++ ',' :: ' ' :: fieldsChars rest))

end

mutual

theorem toList_writeTo (out : String) (x : Json) :
    (writeTo .spaced out x).toList = out.toList ++ chars x := by
  cases x with
  | null => simp [writeTo, chars]
  | bool b => simp [writeTo, chars]
  | int i => simp only [writeTo, chars, String.toList_append]
  | float x => simp only [writeTo, chars, String.toList_append]
  | text s => rw [writeTo, chars, toList_writeString]
  | list items =>
    rw [writeTo, chars, String.toList_push, toList_writeItems]
    simp
  | object fields =>
    rw [writeTo, chars, String.toList_push, toList_writeFields]
    simp
  | foreign type inside alone => rw [writeTo, chars, toList_writeString]

theorem toList_writeItems (out : String) (items : List Json) :
    (writeItems .spaced out items).toList = out.toList ++ itemsChars items := by
  match items with
  | [] => simp [writeItems, itemsChars]
  | [x] => rw [writeItems, itemsChars, toList_writeTo out x]
  | x :: y :: rest =>
    rw [writeItems, itemsChars, toList_writeItems _ (y :: rest), String.toList_append,
      toList_writeTo out x]
    · simp [Style.spaced]
    · simp
    · simp

theorem toList_writeFields (out : String) (fields : List (String × Json)) :
    (writeFields .spaced out fields).toList = out.toList ++ fieldsChars fields := by
  match fields with
  | [] => simp [writeFields, fieldsChars]
  | [(k, x)] =>
    rw [writeFields, fieldsChars, toList_writeTo _ x, String.toList_append, toList_writeString]
    simp [Style.spaced]
  | (k, x) :: f :: rest =>
    rw [writeFields, fieldsChars, toList_writeFields _ (f :: rest), String.toList_append,
      toList_writeTo _ x, String.toList_append, toList_writeString]
    · simp [Style.spaced]
    · simp
    · simp

end

/-! ### Reading back -/

/-- How a document begins: with no blank, no closing bracket and no byte order mark. -/
def Opens (cs : List Char) : Prop :=
  ∃ c rest, cs = c :: rest ∧ isBlank c = false ∧ c ≠ ']' ∧ c ≠ '\x7d' ∧ c ≠ Char.ofNat 0xfeff

theorem Opens.append {cs : List Char} (h : Opens cs) (rest : List Char) : Opens (cs ++ rest) := by
  obtain ⟨c, cs, rfl, hc⟩ := h
  exact ⟨c, cs ++ rest, rfl, hc⟩

theorem Opens.skip_eq {cs : List Char} (h : Opens cs) : skip cs = cs := by
  obtain ⟨c, cs, rfl, hc, -⟩ := h
  simp [skip, hc]

theorem Opens.skip_blank {cs : List Char} (h : Opens cs) : skip (' ' :: cs) = cs :=
  calc skip (' ' :: cs)
    _ = skip cs := by simp [skip, isBlank]
    _ = cs := h.skip_eq

theorem opens_digit {d : Char} (hd : d.isDigit) (ds : List Char) : Opens (d :: ds) := by
  have hne : ∀ {c : Char}, c.isDigit = false → d ≠ c := fun hc => ne_of_isDigit hd hc
  have hblank : isBlank d = false := by
    simp [isBlank, hne (c := ' ') rfl, hne (c := '\t') rfl, hne (c := '\n') rfl,
      hne (c := '\r') rfl]
  exact ⟨d, ds, rfl, hblank, hne rfl, hne rfl, hne rfl⟩

theorem opens_int (i : Int) : Opens (toString i).toList := by
  obtain ⟨d, ds, hds, hd⟩ := exists_digit i.natAbs
  rw [toList_toString_int, hds]
  split
  · exact ⟨'-', d :: ds, rfl, rfl, by decide, by decide, by decide⟩
  · exact opens_digit hd ds

theorem Plain.opens {x : Json} (h : Plain x) : Opens (chars x) := by
  cases x with
  | null => exact ⟨'n', "ull".toList, rfl, rfl, by decide, by decide, by decide⟩
  | bool b =>
    cases b
    · exact ⟨'f', "alse".toList, rfl, rfl, by decide, by decide, by decide⟩
    · exact ⟨'t', "rue".toList, rfl, rfl, by decide, by decide, by decide⟩
  | int i => exact opens_int i
  | float x => exact absurd h (by simp [Plain])
  | text s => exact ⟨'"', _, rfl, rfl, by decide, by decide, by decide⟩
  | list items => exact ⟨'[', _, rfl, rfl, by decide, by decide, by decide⟩
  | object fields => exact ⟨'\x7b', _, rfl, rfl, by decide, by decide, by decide⟩
  | foreign type inside alone => exact absurd h (by simp [Plain])

theorem opens_itemsChars {x : Json} {xs : List Json} (h : Plain x) :
    Opens (itemsChars (x :: xs)) := by
  cases xs with
  | nil => exact h.opens
  | cons y ys => exact h.opens.append _

theorem opens_fieldsChars (f : String × Json) (fs : List (String × Json)) :
    Opens (fieldsChars (f :: fs)) := by
  cases fs with
  | nil => exact ⟨'"', _, rfl, rfl, by decide, by decide, by decide⟩
  | cons g gs => exact ⟨'"', _, rfl, rfl, by decide, by decide, by decide⟩

theorem delimited_cons {c : Char} (rest : List Char)
    (h : c.isDigit = false ∧ c ≠ '.' ∧ c ≠ 'e' ∧ c ≠ 'E') : Delimited (c :: rest) := by
  rintro d hd
  cases hd
  exact h

theorem delimited_nil : Delimited [] := fun _ hc => by cases hc

/-- A value that is no string, list or object is a word or a numeral. -/
theorem value_eq_atom {c : Char} (h : c ≠ '"' ∧ c ≠ '[' ∧ c ≠ '\x7b') (fuel : Nat)
    (rest : List Char) : value (fuel + 1) (c :: rest) = atom (c :: rest) := by
  unfold value
  split
  next heq => exact absurd (List.head_eq_of_cons_eq heq) h.1
  next heq => exact absurd (List.head_eq_of_cons_eq heq) h.2.1
  next heq => exact absurd (List.head_eq_of_cons_eq heq) h.2.2
  next => rfl

theorem value_int (i : Int) (fuel : Nat) {rest : List Char} (h : Delimited rest) :
    value (fuel + 1) ((toString i).toList ++ rest) = .ok (.int i, rest) := by
  have hatom := atom_int i h
  obtain ⟨d, ds, hds, hd⟩ := exists_digit i.natAbs
  rw [toList_toString_int, hds] at hatom ⊢
  split at hatom
  · rw [if_pos ‹_›, List.cons_append, value_eq_atom (by decide), ← List.cons_append, hatom]
  · rw [if_neg ‹_›, List.cons_append, value_eq_atom, ← List.cons_append, hatom]
    exact ⟨ne_of_isDigit hd rfl, ne_of_isDigit hd rfl, ne_of_isDigit hd rfl⟩

/-- A key and its colon read back, up to the value. -/
theorem name_bodyChars (k : String) {cs : List Char} (h : Opens cs) :
    name ('"' :: (bodyChars k.toList ++ ':' :: ' ' :: cs)) = .ok (k, cs) := by
  have hcolon : skip (':' :: ' ' :: cs) = ':' :: ' ' :: cs := rfl
  have hblank : skip (' ' :: cs) = cs := h.skip_blank
  simp only [name, string_bodyChars, Except.bind, bind, hcolon, hblank]

end Json

namespace Fields

theorem set_of_not_mem {fields : Fields} {key : String} (h : key ∉ fields.map Prod.fst)
    (value : Json) : set fields key value = fields ++ [(key, value)] := by
  induction fields with
  | nil => rfl
  | cons f fields ih =>
    obtain ⟨k, v⟩ := f
    simp only [List.map_cons, List.mem_cons, not_or] at h
    have hne : ¬ (k == key) = true := by simpa using Ne.symm h.1
    rw [set, if_neg hne, ih h.2, List.cons_append]

/-- Fields without a repeated key are kept as they are. -/
theorem ofPairs_of_nodup {fields : Fields} (h : (fields.map Prod.fst).Nodup) :
    ofPairs fields = fields := by
  have hfold : ∀ (done rest : Fields), ((done ++ rest).map Prod.fst).Nodup →
      rest.foldl (fun fields f => set fields f.1 f.2) done = done ++ rest := by
    intro done rest
    induction rest generalizing done with
    | nil => simp
    | cons f rest ih =>
      intro hnodup
      have hnew : f.1 ∉ done.map Prod.fst := by
        rw [List.map_append, List.map_cons] at hnodup
        exact fun hmem => (List.nodup_append.mp hnodup).2.2 _ hmem _ List.mem_cons_self rfl
      rw [List.foldl_cons, set_of_not_mem hnew, ih _ (by simpa using hnodup)]
      simp
  exact hfold [] fields h

end Fields

namespace Json

/-! One lemma for each step of the reader inside a list or an object. -/

section Steps

variable {fuel : Nat} {cs rest : List Char} {x : Json} {k : String}

theorem value_list (h : Opens cs) : value (fuel + 1) ('[' :: cs) = items fuel [] cs := by
  have hskip := h.skip_eq
  obtain ⟨c, cs, rfl, -, hc, -⟩ := h
  simp only [value, hskip]
  split
  next heq => exact absurd (List.head_eq_of_cons_eq heq) hc
  next => rfl

theorem value_object (h : Opens cs) : value (fuel + 1) ('\x7b' :: cs) = members fuel [] cs := by
  have hskip := h.skip_eq
  obtain ⟨c, cs, rfl, -, -, hc, -⟩ := h
  simp only [value, hskip]
  split
  next heq => exact absurd (List.head_eq_of_cons_eq heq) hc
  next => rfl

theorem items_last (h : value fuel cs = .ok (x, ']' :: rest)) (done : List Json) :
    items (fuel + 1) done cs = .ok (.list (done.reverse ++ [x]), rest) := by
  have hskip : skip (']' :: rest) = ']' :: rest := rfl
  simp [items, h, hskip]

theorem items_next (h : value fuel cs = .ok (x, ',' :: ' ' :: rest)) (hrest : Opens rest)
    (done : List Json) : items (fuel + 1) done cs = items fuel (x :: done) rest := by
  have hskip : skip (',' :: ' ' :: rest) = ',' :: ' ' :: rest := rfl
  simp [items, h, hskip, hrest.skip_blank]

theorem members_last (hcs : Opens cs) (h : value fuel cs = .ok (x, '\x7d' :: rest))
    (done : List (String × Json)) :
    members (fuel + 1) done ('"' :: (bodyChars k.toList ++ ':' :: ' ' :: cs))
      = .ok (.object (Fields.ofPairs (done.reverse ++ [(k, x)])), rest) := by
  have hskip : skip ('\x7d' :: rest) = '\x7d' :: rest := rfl
  simp [members, name_bodyChars k hcs, h, hskip]

theorem members_next (hcs : Opens cs) (h : value fuel cs = .ok (x, ',' :: ' ' :: rest))
    (hrest : Opens rest) (done : List (String × Json)) :
    members (fuel + 1) done ('"' :: (bodyChars k.toList ++ ':' :: ' ' :: cs))
      = members fuel ((k, x) :: done) rest := by
  have hskip : skip (',' :: ' ' :: rest) = ',' :: ' ' :: rest := rfl
  simp [members, name_bodyChars k hcs, h, hskip, hrest.skip_blank]

end Steps

mutual

/-- A document reads back from its characters, whatever ends its numerals follows. Every step of the
reader takes a character, and twice their number is enough fuel. -/
theorem value_chars {x : Json} (h : Plain x) (fuel : Nat) (hfuel : 2 * (chars x).length ≤ fuel)
    {rest : List Char} (hrest : Delimited rest) : value fuel (chars x ++ rest) = .ok (x, rest) := by
  obtain ⟨c, cs, hcs, -⟩ := h.opens
  obtain ⟨fuel, rfl⟩ : ∃ k, fuel = k + 1 :=
    ⟨fuel - 1, by rw [hcs, List.length_cons] at hfuel; omega⟩
  clear hcs
  cases x with
  | null => rfl
  | bool b => cases b <;> rfl
  | int i => exact value_int i fuel hrest
  | float x => exact absurd h (by simp [Plain])
  | text s =>
    rw [chars, List.cons_append, value]
    simp only [string_bodyChars, Except.bind, bind]
  | list items =>
    match items with
    | [] => rfl
    | y :: ys =>
      simp only [chars, List.length_cons, List.length_append] at hfuel
      simp only [Plain] at h
      have hitems := items_chars (y :: ys) (by simp) h fuel (by omega) [] rest
      rw [chars, List.cons_append, List.append_assoc, List.singleton_append,
        value_list ((opens_itemsChars h.1).append _), hitems]
      rfl
  | object fields =>
    match fields with
    | [] => rfl
    | f :: fs =>
      simp only [chars, List.length_cons, List.length_append] at hfuel
      simp only [Plain] at h
      have hmembers := members_chars (f :: fs) (by simp) h.2 fuel (by omega) [] rest
      rw [chars, List.cons_append, List.append_assoc, List.singleton_append,
        value_object ((opens_fieldsChars f fs).append _), hmembers, List.reverse_nil,
        List.nil_append, Fields.ofPairs_of_nodup h.1]
  | foreign type inside alone => exact absurd h (by simp [Plain])

theorem items_chars (xs : List Json) (hne : xs ≠ []) (h : PlainItems xs) (fuel : Nat)
    (hfuel : 2 * (itemsChars xs).length + 1 ≤ fuel) (done : List Json) (rest : List Char) :
    items fuel done (itemsChars xs ++ ']' :: rest) = .ok (.list (done.reverse ++ xs), rest) := by
  obtain ⟨fuel, rfl⟩ : ∃ k, fuel = k + 1 := ⟨fuel - 1, by omega⟩
  match xs with
  | [x] =>
    simp only [itemsChars] at hfuel ⊢
    exact items_last (value_chars h.1 fuel (by omega) (delimited_cons rest (by decide))) done
  | x :: y :: ys =>
    simp only [itemsChars, List.length_append, List.length_cons] at hfuel
    have hx := value_chars h.1 fuel (by omega)
      (delimited_cons (' ' :: (itemsChars (y :: ys) ++ ']' :: rest)) (c := ',') (by decide))
    have hmore := items_chars (y :: ys) (by simp) h.2 fuel (by omega) (x :: done) rest
    have hopens : Opens (itemsChars (y :: ys) ++ ']' :: rest) :=
      (opens_itemsChars h.2.1).append _
    have hcons : itemsChars (x :: y :: ys) ++ ']' :: rest
        = chars x ++ ',' :: ' ' :: (itemsChars (y :: ys) ++ ']' :: rest) := by
      simp [itemsChars]
    rw [hcons, items_next hx hopens, hmore]
    simp

theorem members_chars (fs : List (String × Json)) (hne : fs ≠ []) (h : PlainFields fs) (fuel : Nat)
    (hfuel : 2 * (fieldsChars fs).length + 1 ≤ fuel) (done : List (String × Json))
    (rest : List Char) :
    members fuel done (fieldsChars fs ++ '\x7d' :: rest)
      = .ok (.object (Fields.ofPairs (done.reverse ++ fs)), rest) := by
  obtain ⟨fuel, rfl⟩ : ∃ k, fuel = k + 1 := ⟨fuel - 1, by omega⟩
  match fs with
  | [(k, x)] =>
    simp only [fieldsChars, List.length_append, List.length_cons] at hfuel
    have hx := value_chars h.1 fuel (by omega)
      (delimited_cons rest (c := '\x7d') (by decide))
    have hcons : fieldsChars [(k, x)] ++ '\x7d' :: rest
        = '"' :: (bodyChars k.toList ++ ':' :: ' ' :: (chars x ++ '\x7d' :: rest)) := by
      simp [fieldsChars]
    rw [hcons, members_last (h.1.opens.append _) hx]
  | (k, x) :: f :: fs =>
    simp only [fieldsChars, List.length_append, List.length_cons] at hfuel
    have hx := value_chars h.1 fuel (by omega)
      (delimited_cons (' ' :: (fieldsChars (f :: fs) ++ '\x7d' :: rest)) (c := ',') (by decide))
    have hmore := members_chars (f :: fs) (by simp) h.2 fuel (by omega)
      ((k, x) :: done) rest
    have hopens : Opens (fieldsChars (f :: fs) ++ '\x7d' :: rest) :=
      (opens_fieldsChars f fs).append _
    have hcons : fieldsChars ((k, x) :: f :: fs) ++ '\x7d' :: rest
        = '"' :: (bodyChars k.toList ++ ':' :: ' ' :: (chars x ++ ',' :: ' ' ::
          (fieldsChars (f :: fs) ++ '\x7d' :: rest))) := by
      simp [fieldsChars]
    rw [hcons, members_next (h.1.opens.append _) hx hopens, hmore]
    simp

end

/-- **A plain document reads back from its JSON text.** -/
theorem Plain.read_write {x : Json} (h : Plain x) : read (write .spaced x) = .ok x := by
  have hvalue := value_chars h (2 * (chars x).length + 2) (by omega) delimited_nil
  have hskip := h.opens.skip_eq
  have hmark : ((chars x).head? == some (Char.ofNat 0xfeff)) = false := by
    obtain ⟨c, cs, hcs, -, -, -, hc⟩ := h.opens
    simp [hcs, hc]
  have hchars : (write .spaced x).toList = chars x := by
    rw [write, toList_writeTo]
    rfl
  rw [List.append_nil] at hvalue
  have hdocument : document (chars x) = .ok x := by
    simp only [document, hmark, hskip, hvalue, Except.bind, bind]
    rfl
  rw [read, hchars, hdocument]

/-- Texts are plain. -/
theorem plainItems_texts (texts : List String) : PlainItems (texts.map .text) := by
  induction texts with
  | nil => trivial
  | cons s rest ih => exact ⟨trivial, ih⟩

mutual

/-- A plain document holds no value of another format. -/
theorem foreignType?_of_plain {x : Json} (h : Plain x) : foreignType? x = none := by
  cases x with
  | null | bool _ | int _ | text _ => rfl
  | float x => rfl
  | list items => exact foreignInList?_of_plain h
  | object fields => exact foreignInFields?_of_plain h.2
  | foreign type inside alone => exact absurd h (by simp [Plain])

theorem foreignInList?_of_plain {items : List Json} (h : PlainItems items) :
    foreignInList? items = none := by
  match items with
  | [] => rfl
  | x :: rest =>
    rw [foreignInList?, foreignType?_of_plain h.1, foreignInList?_of_plain h.2]
    rfl

theorem foreignInFields?_of_plain {fields : List (String × Json)} (h : PlainFields fields) :
    foreignInFields? fields = none := by
  match fields with
  | [] => rfl
  | (k, x) :: rest =>
    rw [foreignInFields?, foreignType?_of_plain h.1, foreignInFields?_of_plain h.2]
    rfl

end

end Json

end Runbook
