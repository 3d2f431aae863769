import Runbook.Json.Path
import Runbook.Proofs.Addresses
import Runbook.Proofs.Dates
import Runbook.Proofs.Refusals
import Mathlib.Algebra.Group.Nat.Defs
import Mathlib.Data.List.TakeWhile

/-!
# Paths that spell addresses

A path is written segment by segment, and an index either joins the segment of the key before it or
makes a segment of its own. Whichever way an address is written, its path is cut into the same
segments again, a segment leads one or two steps down, and so the whole path leads to the node at
the address, or nowhere if there is none.

An index may have as many digits as the numeral of an integer; a list with more items than such
indices would not fit in any memory, so this is no restriction, and it is named `Json.Indexable`.

* `Path.Spells path a`: the path is a way to write the address `a`.
* `Path.overriding nearer farther`: the variables of both scopes as one object.
* `Path.paths_navigate`: what is found along a path, from a document and from named variables.
-/

namespace Runbook

namespace Text

/-- Texts without the separator are the pieces of what they make with it in between. -/
theorem splitAt_intercalate {sep : Char} {ps : List (List Char)} (hne : ps ≠ [])
    (h : ∀ p ∈ ps, sep ∉ p) : splitAt sep ([sep].intercalate ps) = ps := by
  induction ps with
  | nil => exact absurd rfl hne
  | cons p ps ih =>
    have hp : sep ∉ p := h p List.mem_cons_self
    cases ps with
    | nil => rw [List.intercalate_singleton, splitAt_of_not_mem hp]
    | cons q qs =>
      have hrest := ih (List.cons_ne_nil q qs) fun p hp => h p (List.mem_cons_of_mem _ hp)
      rw [List.intercalate_cons_cons, List.append_assoc, List.singleton_append,
        splitAt_append hp, hrest]

theorem pieces_intercalate {ss : List String} (hne : ss ≠ []) (h : ∀ s ∈ ss, '.' ∉ s.toList) :
    pieces '.' (".".intercalate ss) = ss := by
  have hsplit : splitAt '.' (['.'].intercalate (ss.map String.toList)) = ss.map String.toList :=
    splitAt_intercalate (by simpa using hne) (by simpa using h)
  rw [pieces, String.toList_intercalate]
  refine (congrArg _ hsplit).trans ?_
  simp [Function.comp_def]

end Text

namespace Numeral

open Text

theorem not_isBlank_of_isDigit {c : Char} (h : c.isDigit = true) : isBlank c = false := by
  have hcode := toNat_of_isDigit h
  simp only [isBlank, isSpace, Bool.or_eq_false_iff, Bool.and_eq_false_iff,
    decide_eq_false_iff_not, beq_eq_false_iff_ne]
  omega

/-- ASCII digits are the numeral of an integer unless there are too many of them. -/
theorem integer?_of_digits {ds : List Char} (hne : ds ≠ []) (h : ∀ c ∈ ds, c.isDigit = true) :
    integer? (String.ofList ds) =
      if maxDigits < ds.length then none else some (valueOf ds : Int) := by
  have hnot (d : Char) (hd : d.isDigit = false) : d ∉ ds := fun hmem => by
    rw [h d hmem] at hd
    cases hd
  have hspaces : (ds.map fun c => if isSpace c then ' ' else c) = ds := by
    refine (List.map_congr_left fun c hc => ?_).trans (List.map_id ds)
    have hspace : isSpace c = false := (Bool.or_eq_false_iff.mp (not_isBlank_of_isDigit (h c hc))).1
    rw [hspace]
    rfl
  have hascii : toAscii ds = ds := by
    refine (List.map_congr_left fun c hc => ?_).trans (List.map_id ds)
    have hcode := toNat_of_isDigit (h c hc)
    exact if_pos (by omega)
  have htrim : trimBoth (· == ' ') ds = ds :=
    trimBoth_of_all fun c hc => beq_false_of_ne fun heq => hnot ' ' (by decide) (heq ▸ hc)
  have hsigned : signed? ds = some (valueOf ds : Int) := by
    rw [signed?, takeSign_of_not_mem (hnot '-' (by decide)) (hnot '+' (by decide))]
    simp [natural?, dropUnderscores_of_not_mem (hnot '_' (by decide)), hne, List.all_eq_true.mpr h]
  rw [integer?, String.toList_ofList, hspaces, hascii, htrim, List.countP_eq_length.mpr h, hsigned]

/-- A written number reads back unless it has too many digits. -/
theorem integer?_trim_toString (n : Nat) :
    integer? (trim (toString n)) = if n < 10 ^ maxDigits then some (n : Int) else none := by
  have hdigits : ∀ c ∈ Nat.toDigits 10 n, c.isDigit = true := fun c hc =>
    Nat.isDigit_of_mem_toDigits (by omega) (by omega) hc
  have hlist : (toString n).toList = Nat.toDigits 10 n := by simp
  have htrim : trim (toString n) = String.ofList (Nat.toDigits 10 n) := by
    rw [trim, hlist, trimBoth_of_all fun c hc => not_isBlank_of_isDigit (hdigits c hc)]
  have hvalue : valueOf (Nat.toDigits 10 n) = n := Nat.ofDigitChars_ten_toDigits
  have hlength : (Nat.toDigits 10 n).length ≤ maxDigits ↔ n < 10 ^ maxDigits :=
    Nat.length_toDigits_le_iff (by omega) (by decide)
  rw [htrim, integer?_of_digits Nat.toDigits_ne_nil hdigits, hvalue]
  by_cases hn : n < 10 ^ maxDigits
  · rw [if_pos hn, if_neg (Nat.not_lt.mpr (hlength.mpr hn))]
  · rw [if_neg hn, if_pos (Nat.not_le.mp (mt hlength.mp hn))]

end Numeral

/-! ### Lists that can be indexed -/

/-- No list in the document has more items than there are indices that can be written. -/
def Json.Indexable (x : Json) : Prop :=
  ∀ a items, x.node? a = some (.list items) → items.length ≤ 10 ^ Numeral.maxDigits

namespace Json

theorem Indexable.child {x y : Json} {s : Step} (hx : x.Indexable) (hy : x.child? s = some y) :
    y.Indexable := by
  intro a items ha
  refine hx (s :: a) items ?_
  rw [node?_cons, hy]
  exact ha

theorem indexable_of_children {x : Json}
    (hlist : ∀ items, x = .list items → items.length ≤ 10 ^ Numeral.maxDigits)
    (hchild : ∀ s y, x.child? s = some y → y.Indexable) : x.Indexable := by
  rintro (_ | ⟨s, a⟩) items ha
  · exact hlist items (Option.some.inj ha)
  · rw [node?_cons] at ha
    obtain ⟨y, hy, ha⟩ := Option.bind_eq_some_iff.mp ha
    exact hchild s y hy a items ha

theorem indexable_list {items : List Json} (hlength : items.length ≤ 10 ^ Numeral.maxDigits)
    (h : ∀ x ∈ items, x.Indexable) : (list items).Indexable := by
  refine indexable_of_children (fun items' heq => ?_) fun s y hy => ?_
  · cases heq
    exact hlength
  · cases s with
    | key name => cases hy
    | item i => exact h y (List.mem_of_getElem? hy)

theorem indexable_object {fields : Fields} (h : ∀ f ∈ fields, f.2.Indexable) :
    (object fields).Indexable := by
  refine indexable_of_children (fun items heq => by cases heq) fun s y hy => ?_
  cases s with
  | key name =>
    obtain ⟨f, hf, rfl⟩ := Option.map_eq_some_iff.mp hy
    exact h f (List.mem_of_find?_eq_some hf)
  | item i => cases hy

end Json

namespace Path

open Json (Address)

/-! ### Spellings -/

/-- A text that can be written as a key: it is not empty and has no points and no brackets. -/
structure IsKey (name : String) : Prop where
  nonempty : name ≠ ""
  point : '.' ∉ name.toList
  opening : '[' ∉ name.toList
  closing : ']' ∉ name.toList

/-- An index, written after a name. -/
def indexed (name : String) (i : Nat) : String := name ++ "[" ++ toString i ++ "]"

/-- The segments are a way to write the address: a key makes a segment of its own, by itself or with
the index after it, and so does an index that is not attached to a key. -/
inductive Written : Address → List String → Prop
  | nil : Written [] []
  | key {name : String} {a : Address} {ss : List String} (h : IsKey name) (rest : Written a ss) :
      Written (.key name :: a) (name :: ss)
  | attached {name : String} {i : Nat} {a : Address} {ss : List String} (h : IsKey name)
      (rest : Written a ss) : Written (.key name :: .item i :: a) (indexed name i :: ss)
  | index {i : Nat} {a : Address} {ss : List String} (rest : Written a ss) :
      Written (.item i :: a) (indexed "" i :: ss)

/-- The path is a way to write the address. -/
def Spells (path : String) (a : Address) : Prop :=
  ∃ ss, ss ≠ [] ∧ Written a ss ∧ path = ".".intercalate ss

theorem toList_indexed (name : String) (i : Nat) :
    (indexed name i).toList = name.toList ++ '[' :: (Nat.toDigits 10 i ++ [']']) := by
  simp [indexed]

theorem indexed_ne_empty (name : String) (i : Nat) : indexed name i ≠ "" := by
  intro h
  have hlist := toList_indexed name i
  rw [h] at hlist
  simp at hlist

theorem isDigit_of_mem_toDigits {c : Char} {i : Nat} (h : c ∈ Nat.toDigits 10 i) :
    c.isDigit = true :=
  Nat.isDigit_of_mem_toDigits (by omega) (by omega) h

theorem point_not_mem_indexed {name : String} (h : '.' ∉ name.toList) (i : Nat) :
    '.' ∉ (indexed name i).toList := by
  have hdigits : '.' ∉ Nat.toDigits 10 i := fun hmem => by
    cases isDigit_of_mem_toDigits hmem
  rw [toList_indexed]
  simp [h, hdigits]

/-- Each segment can be told from the next, and none is empty. -/
theorem Written.segments {a : Address} {ss : List String} (h : Written a ss) :
    ∀ s ∈ ss, s ≠ "" ∧ '.' ∉ s.toList := by
  have hempty : '.' ∉ "".toList := by simp
  induction h with
  | nil => simp
  | key h _ ih => exact List.forall_mem_cons.mpr ⟨⟨h.nonempty, h.point⟩, ih⟩
  | attached h _ ih =>
    exact List.forall_mem_cons.mpr ⟨⟨indexed_ne_empty _ _, point_not_mem_indexed h.point _⟩, ih⟩
  | index _ ih =>
    exact List.forall_mem_cons.mpr ⟨⟨indexed_ne_empty _ _, point_not_mem_indexed hempty _⟩, ih⟩

/-- A path is cut into the segments that it was written with. -/
theorem pieces_of_written {a : Address} {ss : List String} (hne : ss ≠ []) (h : Written a ss) :
    Text.pieces '.' (".".intercalate ss) = ss :=
  Text.pieces_intercalate hne fun s hs => (h.segments s hs).2

theorem intercalate_ne_empty {a : Address} {ss : List String} (hne : ss ≠ []) (h : Written a ss) :
    ".".intercalate ss ≠ "" := by
  intro hempty
  have hpieces := pieces_of_written hne h
  rw [hempty] at hpieces
  exact (h.segments "" (hpieces ▸ List.mem_singleton_self _)).1 rfl

/-- The addresses that can be written are those of keys that can. -/
theorem exists_spells_iff {a : Address} :
    (∃ path, Spells path a) ↔ a ≠ [] ∧ ∀ name, .key name ∈ a → IsKey name := by
  constructor
  · rintro ⟨path, ss, hne, hwritten, -⟩
    constructor
    · rintro rfl
      cases hwritten
      exact hne rfl
    · clear hne
      intro name hname
      induction hwritten with
      | nil => cases hname
      | key h _ ih =>
        rcases List.mem_cons.mp hname with heq | hname
        · cases heq
          exact h
        · exact ih hname
      | attached h _ ih =>
        rcases List.mem_cons.mp hname with heq | hname
        · cases heq
          exact h
        · exact ih (by simpa using hname)
      | index _ ih => exact ih (by simpa using hname)
  · rintro ⟨hne, hkeys⟩
    -- Each index may make a segment of its own.
    have hwritten : ∃ ss, ss.length = a.length ∧ Written a ss := by
      clear hne
      induction a with
      | nil => exact ⟨[], rfl, .nil⟩
      | cons s a ih =>
        obtain ⟨ss, hlength, hrest⟩ := ih fun name hname =>
          hkeys name (List.mem_cons_of_mem _ hname)
        cases s with
        | key name =>
          exact ⟨name :: ss, congrArg _ hlength, .key (hkeys name List.mem_cons_self) hrest⟩
        | item i => exact ⟨indexed "" i :: ss, congrArg _ hlength, .index hrest⟩
    obtain ⟨ss, hlength, hwritten⟩ := hwritten
    refine ⟨_, ss, ?_, hwritten, rfl⟩
    rwa [← List.length_pos_iff, hlength, List.length_pos_iff]

/-! ### Segments -/

theorem isPlain_of_not_mem {cs : List Char} (hopening : '[' ∉ cs) (hclosing : ']' ∉ cs) :
    ∀ c ∈ cs, isPlain c = true := by
  intro c hc
  have ho : c ≠ '[' := fun heq => hopening (heq ▸ hc)
  have hc : c ≠ ']' := fun heq => hclosing (heq ▸ hc)
  simp [isPlain, ho, hc]

/-- A key has no index. -/
theorem indexed?_key {name : String} (h : IsKey name) : indexed? name = none := by
  have hplain := isPlain_of_not_mem h.opening h.closing
  have hdrop : name.toList.dropWhile isPlain = [] := List.dropWhile_eq_nil_iff.mpr hplain
  unfold indexed?
  simp only [hdrop]

/-- The name and the index are read as they were written. -/
theorem indexed?_indexed {name : String} (hopening : '[' ∉ name.toList)
    (hclosing : ']' ∉ name.toList) (i : Nat) :
    indexed? (indexed name i) = some (name, toString i) := by
  have hname := isPlain_of_not_mem hopening hclosing
  have hdigits : ∀ c ∈ Nat.toDigits 10 i, isPlain c = true :=
    isPlain_of_not_mem (fun h => by cases isDigit_of_mem_toDigits h)
      (fun h => by cases isDigit_of_mem_toDigits h)
  have hstop (c : Char) (hc : isPlain c = false) (cs ds : List Char)
      (hcs : ∀ c ∈ cs, isPlain c = true) :
      (cs ++ c :: ds).dropWhile isPlain = c :: ds ∧ (cs ++ c :: ds).takeWhile isPlain = cs := by
    rw [List.dropWhile_append_of_pos hcs, List.takeWhile_append_of_pos hcs]
    simp [hc]
  unfold indexed?
  simp only [toList_indexed, (hstop '[' (by decide) _ _ hname).1,
    (hstop '[' (by decide) _ _ hname).2, (hstop ']' (by decide) _ [] hdigits).1,
    (hstop ']' (by decide) _ [] hdigits).2]
  simp [Nat.repr]

/-! ### Walks -/

/-- An attempt that goes on where another one has led. -/
theorem toOption_bind {ε α β : Type} (e : Except ε α) (f : α → Except ε β) :
    (e >>= f).toOption = e.toOption.bind fun a => (f a).toOption := by
  cases e <;> rfl

/-- An index leads to the item of a list. -/
theorem toOption_item {x : Json} (hx : x.Indexable) (name : String) (i : Nat) :
    (item x name (toString i)).toOption = x.child? (.item i) := by
  cases x with
  | list items =>
    have hlength : items.length ≤ 10 ^ Numeral.maxDigits := hx [] items rfl
    have hchild : Json.child? (.list items) (.item i) = items[i]? := rfl
    rw [hchild]
    simp only [item, Numeral.integer?_trim_toString]
    by_cases hi : i < 10 ^ Numeral.maxDigits
    · rw [if_pos hi]
      simp only [Int.toNat_natCast]
      rw [if_neg (by omega)]
      cases items[i]? <;> rfl
    -- Such an index cannot be read, and there is no such item.
    · rw [if_neg hi, List.getElem?_eq_none (by omega)]
      rfl
  | _ => rfl

section Step

variable {segment name index : String}

/-- A segment without an index leads to the value under a key. -/
theorem toOption_step_of_key (h : indexed? segment = none) (x : Json) :
    (step x segment).toOption = x.child? (.key segment) := by
  cases x with
  | object fields =>
    have hchild : Json.child? (.object fields) (.key segment) = Fields.get? fields segment := rfl
    simp only [step, h, hchild]
    cases Fields.get? fields segment <;> rfl
  | _ =>
    simp only [step, h]
    rfl

/-- A segment with a name and an index leads to an item of what is under the name. -/
theorem toOption_step_of_attached (h : indexed? segment = some (name, index)) (hname : name ≠ "")
    (x : Json) : (step x segment).toOption =
      (x.child? (.key name)).bind fun y => (item y name index).toOption := by
  have hempty : name.isEmpty = false := String.isEmpty_eq_false_iff.mpr hname
  cases x with
  | object fields =>
    have hchild : Json.child? (.object fields) (.key name) = Fields.get? fields name := rfl
    simp only [step, h, hchild, hempty]
    cases Fields.get? fields name <;> rfl
  | _ =>
    simp only [step, h, hempty]
    rfl

/-- A segment with an index and without a name leads to an item. -/
theorem toOption_step_of_index (h : indexed? segment = some ("", index)) (x : Json) :
    (step x segment).toOption = (item x "" index).toOption := by
  have hempty : "".isEmpty = true := rfl
  cases x with
  | null => rfl
  | _ => simp only [step, h, hempty, if_true]

end Step

theorem toOption_walk_cons (s : String) (ss : List String) (x : Json) :
    (walk x (s :: ss)).toOption = (step x s).toOption.bind fun y => (walk y ss).toOption := by
  rw [walk, List.foldlM_cons, toOption_bind]
  rfl

/-- A walk along written steps leads to the node at their address. -/
theorem toOption_walk {a : Address} {ss : List String} (h : Written a ss) {x : Json}
    (hx : x.Indexable) : (walk x ss).toOption = x.node? a := by
  have hchild {x : Json} (hx : x.Indexable) {s : Json.Step} {f g : Json → Option Json}
      (hfg : ∀ y : Json, y.Indexable → f y = g y) : (x.child? s).bind f = (x.child? s).bind g := by
    cases hy : x.child? s with
    | none => rfl
    | some y => exact hfg y (hx.child hy)
  -- One segment may stand for two steps, so the induction is on how the address is written.
  induction h generalizing x with
  | nil => rfl
  | key h _ ih =>
    rw [toOption_walk_cons, toOption_step_of_key (indexed?_key h), Json.node?_cons]
    exact hchild hx fun y hy => ih hy
  | attached h _ ih =>
    rw [toOption_walk_cons, toOption_step_of_attached (indexed?_indexed h.opening h.closing _)
      h.nonempty, Option.bind_assoc, Json.node?_cons]
    refine hchild hx fun y hy => ?_
    rw [toOption_item hy, Json.node?_cons]
    exact hchild hy fun z hz => ih hz
  | index _ ih =>
    rw [toOption_walk_cons, toOption_step_of_index (indexed?_indexed (by simp) (by simp) _),
      toOption_item hx, Json.node?_cons]
    exact hchild hx fun y hy => ih hy

/-! ### Named variables -/

/-- The variables of the nearer scope, and those of the farther one under other names. -/
def overriding (nearer farther : Fields) : Fields :=
  nearer ++ farther.filter fun f => !Fields.has nearer f.1

theorem get?_overriding (nearer farther : Fields) (name : String) :
    Fields.get? (overriding nearer farther) name =
      (Fields.get? nearer name).orElse fun _ => Fields.get? farther name := by
  rw [Fields.get?, overriding, List.find?_append, Fields.get?, Fields.get?]
  cases hnearer : nearer.find? fun f => f.1 == name with
  | some f => rfl
  | none =>
    -- No field of this name is left out.
    have hkept (f : String × Json) : decide ((!Fields.has nearer f.1) = true ∧
        (f.1 == name) = true) = (f.1 == name) := by
      by_cases hf : f.1 = name
      · have hhas : Fields.has nearer name = false := by
          rw [Fields.has, List.any_eq_false]
          exact List.find?_eq_none.mp hnearer
        simp [hf, hhas]
      · simp [hf]
    rw [List.find?_filter]
    simp only [hkept]
    rfl

/-- Named variables are looked up like fields of the object that they make. A bare index at the
beginning is an exception: it is a name to the one and an index to the other. -/
theorem toOption_lookup {path base : String} {rest : List String}
    (hpieces : Text.pieces '.' path = base :: rest) (hpath : path ≠ "")
    (hbase : ∀ index, indexed? base ≠ some ("", index)) (nearer farther : Fields) :
    (lookup nearer farther path).toOption =
      ((Json.object (overriding nearer farther)).at? path).toOption := by
  have hchild (name : String) :
      Json.child? (.object (overriding nearer farther)) (.key name) =
        (Fields.get? nearer name).orElse fun _ => Fields.get? farther name :=
    get?_overriding nearer farther name
  have hat : ((Json.object (overriding nearer farther)).at? path).toOption =
      (step (.object (overriding nearer farther)) base).toOption.bind
        fun y => (walk y rest).toOption := by
    rw [Json.at?, if_neg (by simpa using hpath), hpieces, toOption_walk_cons]
  rw [hat]
  cases hindex : indexed? base with
  | none =>
    rw [toOption_step_of_key hindex, hchild]
    simp only [lookup, hpieces, hindex]
    generalize (Fields.get? nearer base).orElse (fun _ => Fields.get? farther base) = value?
    cases value? <;> rfl
  | some parts =>
    obtain ⟨name, index⟩ := parts
    have hname : name ≠ "" := fun heq => hbase index (heq ▸ hindex)
    rw [toOption_step_of_attached hindex hname, hchild, Option.bind_assoc]
    simp only [lookup, hpieces, hindex]
    generalize (Fields.get? nearer name).orElse (fun _ => Fields.get? farther name) = value?
    cases value? with
    | none => rfl
    | some x => exact toOption_bind (item x name index) fun y => walk y rest

/-- A segment that has an index and no name begins with the opening bracket. -/
theorem head?_of_index {segment index : String} (h : indexed? segment = some ("", index)) :
    segment.toList.head? = some '[' := by
  unfold indexed? at h
  dsimp only at h
  split at h
  · rename_i rest hdrop
    split at h
    -- The name is what comes before the first bracket.
    · have htake : segment.toList.takeWhile isPlain = [] := by
        have hname : String.ofList (segment.toList.takeWhile isPlain) = "" :=
          congrArg Prod.fst (Option.some.inj h)
        simpa using hname
      rw [← List.takeWhile_append_dropWhile (p := isPlain) (l := segment.toList), htake, hdrop]
      rfl
    · cases h
  · cases h

/-- A path begins as its first segment does, unless this one is empty. -/
theorem head?_of_pieces {path base : String} {rest : List String} {c : Char}
    (hpieces : Text.pieces '.' path = base :: rest) (hbase : base.toList.head? = some c) :
    path.toList.head? = some c := by
  obtain ⟨p, ps, hsplit, rfl, -⟩ := List.map_eq_cons_iff.mp hpieces
  rw [String.toList_ofList] at hbase
  obtain ⟨p, rfl⟩ := List.head?_eq_some_iff.mp hbase
  rw [← Text.joinWith_splitAt '.' path.toList, hsplit]
  cases ps <;> rfl

/-- **Paths navigate.** Along a path that spells an address there is the node at this address, if
there is one, and an error otherwise. A path that begins with a key finds the same among named
variables as in the object that they make, the nearer scope overriding the farther one. -/
theorem paths_navigate (path : String) :
    (∀ a, Spells path a → ∀ x : Json, x.Indexable → (x.at? path).toOption = x.node? a) ∧
    (path ≠ "" → path.toList.head? ≠ some '[' → ∀ nearer farther : Fields,
      (lookup nearer farther path).toOption =
        ((Json.object (overriding nearer farther)).at? path).toOption) := by
  constructor
  · rintro a ⟨ss, hne, hwritten, rfl⟩ x hx
    have hempty := intercalate_ne_empty hne hwritten
    rw [Json.at?, if_neg (by simpa using hempty), pieces_of_written hne hwritten,
      toOption_walk hwritten hx]
  · intro hempty hhead nearer farther
    cases hpieces : Text.pieces '.' path with
    | nil => exact absurd (List.map_eq_nil_iff.mp hpieces) (Text.splitAt_ne_nil _ _)
    | cons base rest =>
      refine toOption_lookup hpieces hempty (fun index hindex => ?_) nearer farther
      exact hhead (head?_of_pieces hpieces (head?_of_index hindex))

/-- A document with a list of numbers under a key. -/
def itemsDocument : Json := .object [("items", .list [.int 6, .int 7])]

theorem indexable_itemsDocument : itemsDocument.Indexable := by
  have hint (i : Int) : (Json.int i).Indexable :=
    Json.indexable_of_children (fun items heq => by cases heq) fun s y hy => by cases hy
  have hlength : 2 ≤ 10 ^ Numeral.maxDigits :=
    Nat.le_trans (by decide : 2 ≤ Numeral.maxDigits) (Nat.le_of_lt (Nat.lt_pow_self (by omega)))
  have hlist : (Json.list [.int 6, .int 7]).Indexable :=
    Json.indexable_list hlength (by simp [hint])
  exact Json.indexable_object (by simpa using hlist)

/-- The second item of the list, in a document and in a variable of the farther scope. -/
theorem paths_navigate_items :
    Spells "items[1]" [.key "items", .item 1] ∧ itemsDocument.Indexable ∧
    (itemsDocument.at? "items[1]").toOption = some (.int 7) ∧
    (lookup [("id", .null)] itemsDocument.fields "items[1]").toOption =
      ((Json.object (overriding [("id", .null)] itemsDocument.fields)).at? "items[1]").toOption := by
  have hkey : IsKey "items" := ⟨by decide, by decide, by decide, by decide⟩
  have hspells : Spells "items[1]" [.key "items", .item 1] :=
    ⟨[indexed "items" 1], by simp, .attached hkey .nil, by decide⟩
  obtain ⟨hat, hlookup⟩ := paths_navigate "items[1]"
  exact ⟨hspells, indexable_itemsDocument, hat _ hspells itemsDocument indexable_itemsDocument,
    hlookup (by decide) (by decide) _ _⟩

end Path

end Runbook
