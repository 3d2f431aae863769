import Mathlib
import Runbook.Proofs.Weights
import Runbook.Yaml.Document

/-!
# Values that do not exist

A text that cannot be read as YAML is refused as such. It is another matter when a scalar, by its
form or by its tag, is said to have a value that does not exist, for then reading ends with the
fault of making that value. Cutting the text into tokens and building the tree of nodes never make
values; the one fault that they know is that of an escape which tells a code beyond all characters.
So every other fault comes from a scalar of the tree.

* `Yaml.Reads m`: a program refuses only what cannot be read.
* `Yaml.reads_document`, `Yaml.Cut.reads_all`: building the tree and cutting the text do so.
* `Yaml.Node.scalars n`: the scalars of a tree with their tags.
* `Yaml.Promises text f`: a text promises a value that does not exist.
* `Yaml.promises_of_valueless`: the fault of such a value comes from a text that promises it.
-/

set_option mvcgen.warning false

namespace Runbook.Yaml

open Std.Do

/-- A refusal of what cannot be read: it is malformed, or it tells a code beyond all characters. -/
inductive Unread : Refusal → Prop
  | malformed : Unread .malformed
  | code {n : Nat} (h : 0x10ffff < n) : Unread (.valueless (Scan.codeFault n))

/-- A program that refuses only what cannot be read. -/
abbrev Reads {σ α : Type} (m : StateT σ (Except Refusal) α) : Prop :=
  ⦃⌜True⌝⦄ m ⦃post⟨fun _ _ => ⌜True⌝, fun e => ⌜Unread e⌝⟩⦄

theorem reads_iff {σ α : Type} {m : StateT σ (Except Refusal) α} :
    Reads m ↔ ∀ s e, m.run s = .error e → Unread e := by
  constructor
  · intro h s e he
    have hs : (wp⟦m.run s⟧ post⟨fun _ => ⌜True⌝, fun e => ⌜Unread e⌝⟩).down := h s trivial
    rw [he] at hs
    exact hs
  · intro h s _
    show (wp⟦m.run s⟧ post⟨fun _ => ⌜True⌝, fun e => ⌜Unread e⌝⟩).down
    cases hm : m.run s with
    | ok a => trivial
    | error e => exact h s e hm

theorem reads_throw {σ α : Type} {e : Refusal} (h : Unread e) :
    Reads (throw e : StateT σ (Except Refusal) α) := by
  rw [reads_iff]
  rintro s _ ⟨⟩
  exact h

/-! ### Tokens -/

namespace Scan

variable (breaks text : List Char) (n : Nat)

@[spec]
theorem reads_malformed {α : Type} : Reads (malformed : Scan α) := reads_throw .malformed

@[spec]
theorem reads_expect (b : Bool) : Reads (expect b) := by mvcgen [expect]

@[spec]
theorem reads_peek : Reads (peek n) := by mvcgen [peek]

@[spec]
theorem reads_skip : Reads (skip n) := by mvcgen [skip]

@[spec]
theorem reads_takeWhile (p : Char → Bool) : Reads (takeWhile p) := by mvcgen [takeWhile]

@[spec]
theorem reads_lineBreak : Reads lineBreak := by mvcgen [lineBreak]

@[spec]
theorem reads_restOfLine : Reads restOfLine := by mvcgen [restOfLine]

@[spec]
theorem reads_bound : Reads bound := by mvcgen [bound]

@[spec]
theorem reads_toNextToken (crossed : Bool) : Reads (toNextToken crossed n) := by
  induction n generalizing crossed with
  | zero => mvcgen [toNextToken]
  | succ n ih => mvcgen [toNextToken, ih]

@[spec]
theorem reads_anchorName : Reads anchorName := by mvcgen [anchorName]

@[spec]
theorem reads_tagRest : Reads tagRest := by mvcgen [tagRest]

@[spec]
theorem reads_tagHandle : Reads tagHandle := by mvcgen [tagHandle]

@[spec]
theorem reads_tag : Reads tag := by mvcgen [tag]

@[spec]
theorem reads_directive : Reads directive := by mvcgen [directive]

@[spec]
theorem reads_hint : Reads hint? := by mvcgen [hint?]

@[spec]
theorem reads_chomping : Reads chomping? := by mvcgen [chomping?]

@[spec]
theorem reads_blockHeader : Reads blockHeader := by mvcgen [blockHeader]

@[spec]
theorem reads_leadingBreaks (deepest : Nat) : Reads (leadingBreaks breaks deepest n) := by
  induction n generalizing breaks deepest with
  | zero => mvcgen [leadingBreaks]
  | succ n ih => mvcgen [leadingBreaks, ih]

@[spec]
theorem reads_indentTo (column : Nat) : Reads (indentTo column) := by mvcgen [indentTo]

@[spec]
theorem reads_innerBreaks (column : Nat) : Reads (innerBreaks column breaks n) := by
  induction n generalizing breaks with
  | zero => mvcgen [innerBreaks]
  | succ n ih => mvcgen [innerBreaks, ih]

@[spec]
theorem reads_blockLines (isFolded : Bool) (column : Nat) :
    Reads (blockLines isFolded column text breaks n) := by
  induction n generalizing text breaks with
  | zero => mvcgen [blockLines]
  | succ n ih => mvcgen [blockLines, ih]

@[spec]
theorem reads_blockScalar (isFolded : Bool) (indent : Int) :
    Reads (blockScalar isFolded indent) := by mvcgen [blockScalar]

@[spec]
theorem reads_quotedBreaks : Reads (quotedBreaks breaks n) := by
  induction n generalizing breaks with
  | zero => mvcgen [quotedBreaks]
  | succ n ih => mvcgen [quotedBreaks, ih]

@[spec]
theorem reads_expectCode : Reads (expectCode n) := by
  unfold expectCode
  split
  · mvcgen
  · exact reads_throw (.code (by omega))

@[spec]
theorem reads_escaped : Reads escaped := by mvcgen [escaped]

@[spec]
theorem reads_quotedBlanks : Reads quotedBlanks := by mvcgen [quotedBlanks]

@[spec]
theorem reads_quotedBody (quote : Char) : Reads (quotedBody quote text n) := by
  induction n generalizing text with
  | zero => mvcgen [quotedBody]
  | succ n ih => mvcgen [quotedBody, ih]

@[spec]
theorem reads_quotedScalar : Reads quotedScalar := by mvcgen [quotedScalar]

@[spec]
theorem reads_plainBreaks : Reads (plainBreaks breaks n) := by
  induction n generalizing breaks with
  | zero => mvcgen [plainBreaks]
  | succ n ih => mvcgen [plainBreaks, ih]

@[spec]
theorem reads_plainBlanks : Reads plainBlanks := by mvcgen [plainBlanks]

@[spec]
theorem reads_plainBody (inFlow : Bool) (indent : Int) (blanks : List Char) (crossed : Bool) :
    Reads (plainBody inFlow indent text blanks crossed n) := by
  induction n generalizing text blanks crossed with
  | zero => mvcgen [plainBody]
  | succ n ih => mvcgen [plainBody, ih]

end Scan

namespace Cut

variable (t : Token) (n : Nat)

@[spec]
theorem reads_malformed {α : Type} : Reads (malformed : Cut α) := reads_throw .malformed

@[spec]
theorem reads_inFlow : Reads inFlow := by mvcgen [inFlow]

/-- A step through the text is a part of cutting it, with what it refuses. -/
@[spec]
theorem reads_scan {α : Type} {m : Scan α} (h : Reads m) : Reads (scan m) := by
  rw [reads_iff] at h ⊢
  intro s e he
  cases hm : m.run s.cursor with
  | ok r =>
    simp only [scan, StateT.run_bind, StateT.run_get, pure_bind, hm, StateT.run_set,
      StateT.run_pure] at he
    cases he
  | error e' =>
    simp only [scan, StateT.run_bind, StateT.run_get, pure_bind, hm] at he
    cases he
    exact h _ _ hm

@[spec]
theorem reads_push : Reads (push t) := by mvcgen [push]

@[spec]
theorem reads_allowKey (b : Bool) : Reads (allowKey b) := by mvcgen [allowKey]

@[spec]
theorem reads_dropStale : Reads dropStale := by mvcgen [dropStale]

@[spec]
theorem reads_dropKey : Reads dropKey := by mvcgen [dropKey]

@[spec]
theorem reads_saveKey : Reads saveKey := by mvcgen [saveKey]

@[spec]
theorem reads_unwind (column : Int) : Reads (unwind column n) := by
  induction n with
  | zero => mvcgen [unwind]
  | succ n ih => mvcgen [unwind, ih]

@[spec]
theorem reads_unwindTo (column : Int) : Reads (unwindTo column) := by mvcgen [unwindTo]

@[spec]
theorem reads_indentTo (column : Nat) : Reads (indentTo column) := by mvcgen [indentTo]

@[spec]
theorem reads_keyed {m : Scan Token} (h : Reads m) : Reads (keyed m) := by mvcgen [keyed, h]

@[spec]
theorem reads_boundary : Reads (boundary t) := by mvcgen [boundary]

@[spec]
theorem reads_openFlow : Reads (openFlow t) := by mvcgen [openFlow]

@[spec]
theorem reads_closeFlow : Reads (closeFlow t) := by mvcgen [closeFlow]

@[spec]
theorem reads_opener (start : Token) (b : Bool) : Reads (opener t start b) := by mvcgen [opener]

@[spec]
theorem reads_colon : Reads colon := by mvcgen [colon]

@[spec]
theorem reads_plain : Reads plain := by mvcgen [plain]

@[spec]
theorem reads_next : Reads next := by mvcgen [next]

/-- Cutting a text refuses only what cannot be read. -/
theorem reads_all : Reads (all n) := by
  induction n with
  | zero => mvcgen [all]
  | succ n ih => mvcgen [all, ih]

end Cut

theorem eq_error_of_map {ε α β : Type} {f : α → β} {x : Except ε α} {e : ε}
    (h : x.map f = .error e) : x = .error e := by
  cases x <;> cases h
  rfl

theorem unread_of_scan {text : String} {e : Refusal} (h : Token.scan text = .error e) :
    Unread e := by
  unfold Token.scan at h
  dsimp only at h
  split at h
  · exact reads_iff.mp (Cut.reads_all _) _ _ (eq_error_of_map h)
  · cases h
    exact .malformed

/-! ### Nodes -/

namespace Read

variable (n : Nat)

@[spec]
theorem reads_malformed {α : Type} : Reads (malformed : Read α) := reads_throw .malformed

@[spec]
theorem reads_peek : Reads peek? := by mvcgen [peek?]

@[spec]
theorem reads_skip : Reads skip := by mvcgen [skip]

@[spec]
theorem reads_accept (t : Token) : Reads (accept t) := by mvcgen [accept]

@[spec]
theorem reads_demand (t : Token) : Reads (demand t) := by mvcgen [demand]

@[spec]
theorem reads_sees (ts : List Token) : Reads (sees ts) := by mvcgen [sees]

@[spec]
theorem reads_anchor : Reads anchor? := by mvcgen [anchor?]

@[spec]
theorem reads_tagName : Reads tagName? := by mvcgen [tagName?]

@[spec]
theorem reads_properties : Reads properties := by mvcgen [properties]

@[spec]
theorem reads_named (anchor : Option String) (x : Node) : Reads (named anchor x) := by
  mvcgen [named]

/-- With so many steps left, nodes and the parts of collections refuse only what cannot be read. -/
structure ReadsNodes (n : Nat) : Prop where
  node (inBlock mayHang : Bool) : Reads (node inBlock mayHang n)
  nodeUnless (stops : List Token) (inBlock mayHang : Bool) :
    Reads (nodeUnless stops inBlock mayHang n)
  blockItems : Reads (blockItems n)
  hangingItems : Reads (hangingItems n)
  blockEntries : Reads (blockEntries n)
  flowItems (isFirst : Bool) : Reads (flowItems isFirst n)
  flowEntries (isFirst : Bool) : Reads (flowEntries isFirst n)

theorem readsNodes : ReadsNodes n := by
  induction n with
  | zero =>
    constructor
    case node => exact fun _ _ => reads_throw .malformed
    case nodeUnless => exact fun _ _ _ => reads_throw .malformed
    case blockItems => exact reads_throw .malformed
    case hangingItems => exact reads_throw .malformed
    case blockEntries => exact reads_throw .malformed
    case flowItems => exact fun _ => reads_throw .malformed
    case flowEntries => exact fun _ => reads_throw .malformed
  | succ n ih =>
    obtain ⟨hnode, hunless, hblock, hhanging, hentries, hflow, hflowEntries⟩ := ih
    constructor
    case node =>
      intro inBlock mayHang
      mvcgen [node, hhanging, hflow, hflowEntries, hblock, hentries]
    case nodeUnless =>
      intro stops inBlock mayHang
      mvcgen [nodeUnless, hnode]
    case blockItems => mvcgen [blockItems, hunless, hblock]
    case hangingItems => mvcgen [hangingItems, hunless, hhanging]
    case blockEntries => mvcgen [blockEntries, hunless, hentries]
    case flowItems =>
      intro isFirst
      mvcgen [flowItems, hunless, hnode, hflow]
    case flowEntries =>
      intro isFirst
      mvcgen [flowEntries, hunless, hnode, hflowEntries]

@[spec]
theorem reads_node (inBlock mayHang : Bool) : Reads (node inBlock mayHang n) :=
  (readsNodes n).node inBlock mayHang

@[spec]
theorem reads_directives (seen : List String) : Reads (directives seen n) := by
  induction n generalizing seen with
  | zero => mvcgen [directives]
  | succ n ih => mvcgen [directives, ih]

@[spec]
theorem reads_documentEnds : Reads (documentEnds n) := by
  induction n with
  | zero => mvcgen [documentEnds]
  | succ n ih => mvcgen [documentEnds, ih]

@[spec]
theorem reads_seesFront : Reads seesFront := by mvcgen [seesFront]

@[spec]
theorem reads_seesEnd : Reads seesEnd := by mvcgen [seesEnd]

/-- Building the tree of a text refuses only what cannot be read. -/
theorem reads_document : Reads document := by mvcgen [document]

end Read

theorem unread_of_nodeRead {text : String} {e : Refusal} (h : Node.read text = .error e) :
    Unread e := by
  rcases Json.exists_of_bind_eq_error h with h | ⟨tokens, -, h⟩
  · exact unread_of_scan h
  · exact reads_iff.mp Read.reads_document _ _ (eq_error_of_map h)

/-! ### Documents -/

namespace Node

mutual

/-- The scalars of a tree with their tags. -/
def scalars : Node → List (Tag × String)
  | .scalar tag text => [(tag, text)]
  | .sequence _ items => scalarsOfList items
  | .mapping _ entries => scalarsOfEntries entries

def scalarsOfList : List Node → List (Tag × String)
  | [] => []
  | x :: rest => scalars x ++ scalarsOfList rest

def scalarsOfEntries : List (Node × Node) → List (Tag × String)
  | [] => []
  | (k, v) :: rest => scalars k ++ scalars v ++ scalarsOfEntries rest

end

/-- One of some scalars has no value, and the fault of making it is this one. -/
def Lacks (f : Fault) (scalars : List (Tag × String)) : Prop :=
  ∃ s ∈ scalars, s.1.construct s.2 = .error (.valueless f)

variable {f : Fault} {l l' : List (Tag × String)}

theorem Lacks.append_left (h : Lacks f l) : Lacks f (l ++ l') := by
  obtain ⟨s, hs, hconstruct⟩ := h
  exact ⟨s, List.mem_append_left _ hs, hconstruct⟩

theorem Lacks.append_right (h : Lacks f l') : Lacks f (l ++ l') := by
  obtain ⟨s, hs, hconstruct⟩ := h
  exact ⟨s, List.mem_append_right _ hs, hconstruct⟩

theorem keyOf_ne_valueless {x : Json} : keyOf x ≠ .error (.valueless f) := by
  cases x <;> simp [keyOf]

theorem exists_of_mapM_eq_error {ε α β : Type} {g : α → Except ε β} {l : List α} {e : ε}
    (h : l.mapM g = .error e) : ∃ a ∈ l, g a = .error e := by
  induction l with
  | nil => cases h
  | cons a l ih =>
    rw [List.mapM_cons] at h
    rcases Json.exists_of_bind_eq_error h with h | ⟨b, -, h⟩
    · exact ⟨a, .head _, h⟩
    · rcases Json.exists_of_bind_eq_error h with h | ⟨bs, -, h⟩
      · obtain ⟨a', ha', heq⟩ := ih h
        exact ⟨a', .tail _ ha', heq⟩
      · cases h

theorem mergedFields_ne_valueless {x : Json} : mergedFields x ≠ .error (.valueless f) := by
  intro h
  unfold mergedFields at h
  split at h
  · cases h
  · rcases Json.exists_of_bind_eq_error h with h | ⟨parts, -, h⟩
    · obtain ⟨item, -, h⟩ := exists_of_mapM_eq_error h
      split at h <;> cases h
    · cases h
  · cases h

mutual

/-- The fault of a tree is that of one of its scalars. -/
theorem lacks_of_toJson {n : Node} (h : n.toJson = .error (.valueless f)) :
    Lacks f n.scalars := by
  cases n with
  | scalar tag text => exact ⟨(tag, text), .head _, h⟩
  | sequence tag items =>
    rcases Json.exists_of_bind_eq_error h with h | ⟨items, -, h⟩
    · exact lacks_of_toJsonList h
    · split at h <;> cases h
  | mapping tag entries =>
    rcases Json.exists_of_bind_eq_error h with h | ⟨entries, -, h⟩
    · exact lacks_of_toEntries h
    · split at h <;> cases h

theorem lacks_of_toJsonList {items : List Node} (h : toJsonList items = .error (.valueless f)) :
    Lacks f (scalarsOfList items) := by
  cases items with
  | nil => cases h
  | cons x rest =>
    rcases Json.exists_of_bind_eq_error h with h | ⟨first, -, h⟩
    · exact (lacks_of_toJson h).append_left
    · rcases Json.exists_of_bind_eq_error h with h | ⟨more, -, h⟩
      · exact (lacks_of_toJsonList h).append_right
      · cases h

theorem lacks_of_toEntries {entries : List (Node × Node)}
    (h : toEntries entries = .error (.valueless f)) : Lacks f (scalarsOfEntries entries) := by
  cases entries with
  | nil => cases h
  | cons entry rest =>
    obtain ⟨k, v⟩ := entry
    have hvalue (hv : v.toJson = .error (.valueless f)) :
        Lacks f (scalarsOfEntries ((k, v) :: rest)) :=
      (lacks_of_toJson hv).append_right.append_left
    have hrest (hr : toEntries rest = .error (.valueless f)) :
        Lacks f (scalarsOfEntries ((k, v) :: rest)) :=
      (lacks_of_toEntries hr).append_right
    unfold toEntries at h
    split at h
    · rcases Json.exists_of_bind_eq_error h with h | ⟨x, -, h⟩
      · exact hvalue h
      rcases Json.exists_of_bind_eq_error h with h | ⟨brought, -, h⟩
      · exact absurd h mergedFields_ne_valueless
      rcases Json.exists_of_bind_eq_error h with h | ⟨more, -, h⟩
      · exact hrest h
      · cases h
    · rcases Json.exists_of_bind_eq_error h with h | ⟨x, -, h⟩
      · exact hvalue h
      rcases Json.exists_of_bind_eq_error h with h | ⟨more, -, h⟩
      · exact hrest h
      · cases h
    · rcases Json.exists_of_bind_eq_error h with h | ⟨name, -, h⟩
      · exact (lacks_of_toJson h).append_left.append_left
      rcases Json.exists_of_bind_eq_error h with h | ⟨key, -, h⟩
      · exact absurd h keyOf_ne_valueless
      rcases Json.exists_of_bind_eq_error h with h | ⟨x, -, h⟩
      · exact hvalue h
      rcases Json.exists_of_bind_eq_error h with h | ⟨more, -, h⟩
      · exact hrest h
      · cases h

end

end Node

/-- A text promises a value that does not exist, and making it has this fault: an escape tells a
code beyond all characters, or some scalar of the tree has no value. -/
def Promises (text : String) (f : Fault) : Prop :=
  (∃ code, 0x10ffff < code ∧ f = Scan.codeFault code) ∨
    ∃ n, Node.read text = .ok (some n) ∧ Node.Lacks f n.scalars

/-- **Values that do not exist.** Reading a text ends with the fault of a value that does not exist
only if the text promises such a value. -/
theorem promises_of_valueless {text : String} {f : Fault}
    (h : Yaml.read text = .error (.valueless f)) : Promises text f := by
  rcases Json.exists_of_bind_eq_error h with h | ⟨n?, hn, h⟩
  · cases unread_of_nodeRead h with
    | code hcode => exact .inl ⟨_, hcode, rfl⟩
  · cases n? with
    | none => cases h
    | some n => exact .inr ⟨n, hn, Node.lacks_of_toJson h⟩

end Runbook.Yaml
