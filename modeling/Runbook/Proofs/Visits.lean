import Runbook.Proofs.Addresses
import Runbook.Proofs.References
import Runbook.Proofs.Rescanning

/-!
# Resolution by address

To resolve a document is to visit its texts in order, each at its address. Which of them are left
alone depends on the address only: those at or below a deferred place. The resolution itself never
looks at an address. It carries a set of deferrals along instead, which it replaces by another one
at each step down, so that the same key is deferred in one place and resolved in another.

* `Template.visit f x`: the document `x` with each text `s` replaced by what `f` makes of its
  address and of `s`.
* `Template.Deferred entries a`: the address `a` lies at or below a place that one of the entries
  names.
* `Template.Draws env s`: a number may be drawn for the text `s`.
* `Template.Counterpart R x y`: the node `y` stands in the place of `x`; if `x` is a text, `R` says
  what has become of it.
* `Template.resolved_by_address`: what a resolution does, node by node.
-/

namespace Runbook.Template

open Text
open Json (Address)

/-! ### Visits -/

mutual

/-- Visits the texts of a document, in order: `f` is given the address of each and the text. -/
def visit (f : Address → String → ResolveM String) : Json → ResolveM Json
  | .text s => return .text (← f [] s)
  | .list items => return .list (← visitItems f 0 items)
  | .object fields => return .object (← visitFields f fields)
  | x => return x

/-- Visits the texts of the items of a list, from a position on. -/
def visitItems (f : Address → String → ResolveM String) : Nat → List Json → ResolveM (List Json)
  | _, [] => return []
  | i, x :: rest => do
    let y ← visit (fun a => f (.item i :: a)) x
    let ys ← visitItems f (i + 1) rest
    return y :: ys

/-- Visits the texts of the fields of an object. -/
def visitFields (f : Address → String → ResolveM String) :
    List (String × Json) → ResolveM (List (String × Json))
  | [] => return []
  | (key, x) :: rest => do
    let y ← visit (fun a => f (.key key :: a)) x
    let ys ← visitFields f rest
    return (key, y) :: ys

end

mutual

/-- A visit that leaves each text as it is leaves the document as it is. -/
theorem visit_pure : ∀ x : Json, visit (fun _ s => pure s) x = pure x
  | .text s => rfl
  | .list items => by rw [visit, visitItems_pure, pure_bind]
  | .object fields => by rw [visit, visitFields_pure, pure_bind]
  | .null => rfl
  | .bool _ => rfl
  | .int _ => rfl
  | .float _ => rfl
  | .foreign _ _ _ => rfl

theorem visitItems_pure : ∀ (i : Nat) (xs : List Json),
    visitItems (fun _ s => pure s) i xs = pure xs
  | _, [] => rfl
  | i, x :: xs => by rw [visitItems, visit_pure, visitItems_pure, pure_bind, pure_bind]

theorem visitFields_pure : ∀ fs : List (String × Json),
    visitFields (fun _ s => pure s) fs = pure fs
  | [] => rfl
  | (key, x) :: fs => by rw [visitFields, visit_pure, visitFields_pure, pure_bind, pure_bind]

end

section Gives

variable {f : Address → String → ResolveM String}

/-- Each item of a list comes of a visit to the item in its place. -/
theorem rel_of_gives_visitItems {i : Nat} {xs ys : List Json}
    (h : Gives (visitItems f i xs) ys) (j : Nat) :
    Option.Rel (fun x y => Gives (visit (fun a => f (.item (i + j) :: a)) x) y) xs[j]? ys[j]? := by
  induction xs generalizing i ys j with
  | nil =>
    rw [eq_of_gives_pure h]
    exact .none
  | cons x xs ih =>
    rw [visitItems] at h
    obtain ⟨y, hy, h⟩ := exists_of_gives_bind h
    obtain ⟨ys', hys, h⟩ := exists_of_gives_bind h
    rw [eq_of_gives_pure h]
    cases j with
    | zero => exact .some hy
    | succ j =>
      have hrest := ih hys j
      rwa [Nat.add_right_comm, Nat.add_assoc] at hrest

/-- The value under each key comes of a visit to the value under it. -/
theorem rel_of_gives_visitFields {fs gs : Fields} (h : Gives (visitFields f fs) gs)
    (name : String) :
    Option.Rel (fun x y => Gives (visit (fun a => f (.key name :: a)) x) y)
      (Fields.get? fs name) (Fields.get? gs name) := by
  induction fs generalizing gs with
  | nil =>
    rw [eq_of_gives_pure h]
    exact .none
  | cons field fs ih =>
    obtain ⟨key, x⟩ := field
    rw [visitFields] at h
    obtain ⟨y, hy, h⟩ := exists_of_gives_bind h
    obtain ⟨gs', hgs, h⟩ := exists_of_gives_bind h
    rw [eq_of_gives_pure h]
    by_cases hkey : key = name
    · subst hkey
      simpa [Fields.get?] using Option.Rel.some hy
    · simpa [Fields.get?, hkey] using ih hgs

/-- Each node comes of a visit to the node at its address. -/
theorem rel_of_gives_visit {x y : Json} (h : Gives (visit f x) y) (a : Address) :
    Option.Rel (fun x' y' => Gives (visit (fun b => f (a ++ b)) x') y') (x.node? a)
      (y.node? a) := by
  -- The visit of a child puts the step to it in front of each address, so `f` changes on the way.
  induction a generalizing f x y with
  | nil => exact .some h
  | cons s a ih =>
    have hchild : Option.Rel (fun x' y' => Gives (visit (fun b => f (s :: b)) x') y')
        (x.child? s) (y.child? s) := by
      cases x with
      | text t =>
        obtain ⟨t', -, h⟩ := exists_of_gives_bind h
        rw [eq_of_gives_pure h]
        exact .none
      | list xs =>
        rw [visit] at h
        obtain ⟨ys, hys, h⟩ := exists_of_gives_bind h
        rw [eq_of_gives_pure h]
        cases s with
        | key name => exact .none
        | item i =>
          have hitem := rel_of_gives_visitItems hys i
          rwa [Nat.zero_add] at hitem
      | object fs =>
        rw [visit] at h
        obtain ⟨gs, hgs, h⟩ := exists_of_gives_bind h
        rw [eq_of_gives_pure h]
        cases s with
        | key name => exact rel_of_gives_visitFields hgs name
        | item i => exact .none
      | _ =>
        rw [eq_of_gives_pure h]
        exact .none
    rw [Json.node?_cons, Json.node?_cons]
    generalize x.child? s = x?, y.child? s = y? at hchild
    cases hchild with
    | none => exact .none
    | some hchild => exact ih hchild

end Gives

/-! ### Deferred places -/

/-- The address is that of a place which a deferral names. -/
inductive Deferral.At : Deferral → Address → Prop
  | key (name : String) : Deferral.At (.key name) [.key name]
  | each {outer : String} {inner : Deferral} {p : Address} (i : Nat) (h : inner.At p) :
      Deferral.At (.each outer inner) (.key outer :: .item i :: p)

/-- Whether an address lies at or below a deferred place. As in a resolution, `deferred` names
places in an object, and `inner` in each item of a list. -/
def covered (deferred inner : List Deferral) : Address → Bool
  | [] => false
  | .key name :: a =>
    deferred.contains (.key name) || covered [] (Deferral.inside deferred name) a
  | .item _ :: a => covered inner [] a

theorem mem_inside {deferred : List Deferral} {name : String} {d : Deferral} :
    d ∈ Deferral.inside deferred name ↔ .each name d ∈ deferred := by
  rw [Deferral.inside, List.mem_filterMap]
  constructor
  · rintro ⟨e, he, heq⟩
    cases e with
    | key => cases heq
    | each outer inner =>
      dsimp only at heq
      split at heq
      · rename_i houter
        cases heq
        rwa [← houter]
      · cases heq
  · intro h
    exact ⟨_, h, if_pos rfl⟩

/-- The addresses that are left alone are those at or below a place that a deferral names. -/
theorem covered_iff {deferred inner : List Deferral} {a : Address} :
    covered deferred inner a = true ↔
      (∃ d ∈ deferred, ∃ p, d.At p ∧ p <+: a) ∨
        ∃ d ∈ inner, ∃ i p, d.At p ∧ .item i :: p <+: a := by
  -- A key makes deferrals of an object those of its lists, an index makes these of their items.
  induction a generalizing deferred inner with
  | nil =>
    refine iff_of_false Bool.false_ne_true ?_
    rintro (⟨d, -, p, hp, hbegins⟩ | ⟨d, -, i, p, -, hbegins⟩)
    · rw [List.prefix_nil.mp hbegins] at hp
      cases hp
    · cases List.prefix_nil.mp hbegins
  | cons s a ih =>
    cases s with
    | key name =>
      rw [covered, Bool.or_eq_true, List.contains_iff_mem, ih]
      constructor
      · rintro (h | ⟨d, hd, -⟩ | ⟨d, hd, i, p, hp, hbegins⟩)
        · exact .inl ⟨_, h, _, .key name, List.cons_prefix_cons.mpr ⟨rfl, List.nil_prefix⟩⟩
        · cases hd
        · exact .inl ⟨_, mem_inside.mp hd, _, .each i hp,
            List.cons_prefix_cons.mpr ⟨rfl, hbegins⟩⟩
      · rintro (⟨d, hd, p, hp, hbegins⟩ | ⟨d, -, i, p, -, hbegins⟩)
        · cases hp with
          | key =>
            obtain ⟨heq, -⟩ := List.cons_prefix_cons.mp hbegins
            cases heq
            exact .inl hd
          | each i hp =>
            obtain ⟨heq, hrest⟩ := List.cons_prefix_cons.mp hbegins
            cases heq
            exact .inr (.inr ⟨_, mem_inside.mpr hd, i, _, hp, hrest⟩)
        · obtain ⟨heq, -⟩ := List.cons_prefix_cons.mp hbegins
          cases heq
    | item i =>
      rw [covered, ih]
      constructor
      · rintro (⟨d, hd, p, hp, hbegins⟩ | ⟨d, hd, -⟩)
        · exact .inr ⟨d, hd, i, p, hp, List.cons_prefix_cons.mpr ⟨rfl, hbegins⟩⟩
        · cases hd
      · rintro (⟨d, -, p, hp, hbegins⟩ | ⟨d, hd, j, p, hp, hbegins⟩)
        · cases hp <;> cases (List.cons_prefix_cons.mp hbegins).1
        · exact .inl ⟨d, hd, p, hp, (List.cons_prefix_cons.mp hbegins).2⟩

mutual

/-- A resolution visits the texts of a document and leaves alone those in deferred places. -/
theorem resolveTree_eq_visit (env : Environment) (deferred inner : List Deferral) : ∀ x : Json,
    resolveTree env deferred inner x =
      visit (fun a s => if covered deferred inner a then pure s else resolveText env s) x
  | .text s => rfl
  | .list items => by
    rw [resolveTree, visit, resolveItems_eq_visitItems env deferred inner 0 items]
  | .object fields => by
    rw [resolveTree, visit, resolveFields_eq_visitFields env deferred inner fields]
  | .null => rfl
  | .bool _ => rfl
  | .int _ => rfl
  | .float _ => rfl
  | .foreign _ _ _ => rfl

theorem resolveItems_eq_visitItems (env : Environment) (deferred inner : List Deferral) :
    ∀ (i : Nat) (xs : List Json), resolveItems env inner xs =
      visitItems (fun a s => if covered deferred inner a then pure s else resolveText env s) i xs
  | _, [] => rfl
  | i, x :: xs => by
    rw [resolveItems, visitItems, resolveTree_eq_visit env inner [] x,
      resolveItems_eq_visitItems env deferred inner (i + 1) xs]
    rfl

theorem resolveFields_eq_visitFields (env : Environment) (deferred inner : List Deferral) :
    ∀ fs : List (String × Json), resolveFields env deferred fs =
      visitFields (fun a s => if covered deferred inner a then pure s else resolveText env s) fs
  | [] => rfl
  | (key, x) :: fs => by
    rw [resolveFields, visitFields, resolveFields_eq_visitFields env deferred inner fs]
    simp only [covered]
    by_cases hkey : deferred.contains (.key key) = true
    · simp only [hkey, Bool.true_or, if_true, visit_pure]
    · simp only [hkey, Bool.false_or, resolveTree_eq_visit]
      rfl

end

/-! ### Entries -/

/-- What stands between an outer and an inner name. -/
abbrev mark : List Char := ['[', ']', '.']

/-- A name in an entry: a text without the mark that stands between an outer and an inner name. -/
def IsName (s : String) : Prop := ¬ mark <:+: s.toList

theorem isName_of_not_mem {s : String} (h : '[' ∉ s.toList) : IsName s :=
  fun hmark => h (hmark.subset List.mem_cons_self)

/-- What an entry names: the value under a key, or the values under a key of the objects in the list
under an outer key. -/
inductive Defers : String → Address → Prop
  | key {name : String} (h : IsName name) : Defers name [.key name]
  | each {outer inner : String} (houter : IsName outer) (hinner : IsName inner) (i : Nat) :
      Defers (outer ++ "[]." ++ inner) [.key outer, .item i, .key inner]

/-- The address lies at or below a place that one of the entries names. -/
def Deferred (entries : List String) (a : Address) : Prop :=
  ∃ e ∈ entries, ∃ p, Defers e p ∧ p <+: a

/-- An entry has one of the two forms. -/
def IsEntry (e : String) : Prop := ∃ p, Defers e p

/-- A character that does not begin a mark belongs to the first piece. -/
theorem cut_cons {c : Char} {cs p : List Char} {ps : List (List Char)}
    (h : ∀ ds, c :: cs ≠ '[' :: ']' :: '.' :: ds) (hcut : Deferral.cut cs = p :: ps) :
    Deferral.cut (c :: cs) = (c :: p) :: ps := by
  unfold Deferral.cut
  split
  · rename_i heq
    cases heq
  · rename_i ds heq
    exact absurd heq (h ds)
  · rename_i heq
    cases heq
    rw [hcut]

theorem cut_of_no_mark {cs : List Char} (h : ¬ mark <:+: cs) : Deferral.cut cs = [cs] := by
  induction cs with
  | nil => rfl
  | cons c cs ih =>
    have hrest : Deferral.cut cs = [cs] :=
      ih fun hcs => h (hcs.trans (List.suffix_cons c cs).isInfix)
    exact cut_cons (fun ds heq => h ⟨[], ds, heq.symm⟩) hrest

/-- The first mark of a text is the one after a text without marks. -/
theorem cut_append {cs : List Char} (h : ¬ mark <:+: cs) (rest : List Char) :
    Deferral.cut (cs ++ (mark ++ rest)) = cs :: Deferral.cut rest := by
  induction cs with
  | nil => rw [List.nil_append, mark, List.cons_append, List.cons_append, List.cons_append,
      List.nil_append, Deferral.cut]
  | cons c cs ih =>
    have hrest : Deferral.cut (cs ++ (mark ++ rest)) = cs :: Deferral.cut rest :=
      ih fun hcs => h (hcs.trans (List.suffix_cons c cs).isInfix)
    refine cut_cons (fun ds heq => ?_) hrest
    obtain ⟨rfl, hds⟩ := List.cons.inj heq
    -- A mark that began before the end of the text would lie in it.
    match cs with
    | [] => simp at hds
    | [d] => simp at hds
    | d :: e :: cs =>
      have hd : d = ']' := (List.cons.inj hds).1
      have he : e = '.' := (List.cons.inj (List.cons.inj hds).2).1
      subst hd he
      exact h ⟨[], cs, rfl⟩

theorem ofText_of_isName {name : String} (h : IsName name) : Deferral.ofText name = .key name := by
  rw [Deferral.ofText, cut_of_no_mark h]
  simp [Deferral.ofNames]

theorem ofText_each {outer inner : String} (houter : IsName outer) (hinner : IsName inner) :
    Deferral.ofText (outer ++ "[]." ++ inner) = .each outer (.key inner) := by
  have hcut : Deferral.cut (outer ++ "[]." ++ inner).toList = [outer.toList, inner.toList] := by
    rw [String.append_assoc, String.toList_append, String.toList_append]
    exact (cut_append houter _).trans (congrArg _ (cut_of_no_mark hinner))
  rw [Deferral.ofText, hcut]
  simp [Deferral.ofNames]

theorem Defers.at_ofText {e : String} {p : Address} (h : Defers e p) :
    (Deferral.ofText e).At p := by
  cases h with
  | key h =>
    rw [ofText_of_isName h]
    exact .key _
  | each houter hinner i =>
    rw [ofText_each houter hinner]
    exact .each i (.key _)

/-- An entry of one of the two forms is read as the deferral that it stands for. -/
theorem at_ofText_iff {e : String} (he : IsEntry e) {p : Address} :
    (Deferral.ofText e).At p ↔ Defers e p := by
  refine ⟨fun hp => ?_, Defers.at_ofText⟩
  -- Which of the two forms an entry has is told by any place that it names.
  obtain ⟨q, hq⟩ := he
  cases hq with
  | key h =>
    rw [ofText_of_isName h] at hp
    cases hp
    exact .key h
  | each houter hinner i =>
    rw [ofText_each houter hinner] at hp
    cases hp with
    | each j hp =>
      cases hp
      exact .each houter hinner j

/-- A resolution leaves alone what lies at or below a place that one of the entries names. -/
theorem covered_ofText_iff {entries : List String} (hentries : ∀ e ∈ entries, IsEntry e)
    {a : Address} : covered (entries.map Deferral.ofText) [] a = true ↔ Deferred entries a := by
  rw [covered_iff, or_iff_left (by simp)]
  constructor
  · rintro ⟨d, hd, p, hp, hbegins⟩
    obtain ⟨e, he, rfl⟩ := List.mem_map.mp hd
    exact ⟨e, he, p, (at_ofText_iff (hentries e he)).mp hp, hbegins⟩
  · rintro ⟨e, he, p, hp, hbegins⟩
    exact ⟨_, List.mem_map_of_mem he, p, hp.at_ofText, hbegins⟩

/-! ### Texts for which nothing is drawn -/

variable {α β : Type} {env : Environment}

/-- A number may be drawn for a text: one of its tokens names a generator function, or stands for a
variable of type environment for whose value a number may be drawn. -/
inductive Draws (env : Environment) : String → Prop
  | generated {s : String} (h : Generates s) : Draws env s
  | inside {s : String} {v : Variable} (h : Names env s v) (hv : Draws env v.value) : Draws env s

theorem agree_fake (data : SampleData) (kind : String) :
    Agree (fake data kind) (fake data kind) := by
  unfold fake
  split
  · exact agree_pure _
  · exact (agree_warn _ _).bind fun _ => agree_pure _

theorem agree_dynamicValue_self (v : Variable) :
    Agree (dynamicValue env v) (dynamicValue env v) := by
  unfold dynamicValue
  dsimp only
  split
  · split
    · exact agree_fake _ _
    · exact agree_pure _
  · exact agree_pure _

/-- A token comes to the same whatever is drawn, when it names no generator function and the
declared variable that it may stand for comes to the same. -/
theorem agree_tokenValue_self {declared : Variable → ResolveM String} {name : String}
    (hfunction : ∀ function, name ≠ "function." ++ function)
    (hdeclared : ∀ v, Ordinary env name → env.context.static? name = none →
      env.config.bind (·.findVariable name) = some v → Agree (declared v) (declared v)) :
    Agree (tokenValue env declared name) (tokenValue env declared name) := by
  have hsome {m : ResolveM String} (hm : Agree m m) :
      Agree (do return some (← m)) (do return some (← m)) := hm.bind fun _ => agree_pure _
  have hsource := source_tokenValue env declared name
  generalize tokenValue env declared name = m at hsource ⊢
  cases hsource with
  | reserved => exact agree_pure _
  | runtime => exact hsome (agree_runtimeValue _ _)
  | sample => exact hsome (agree_fake _ _)
  | generated h => exact absurd h (hfunction _)
  | static => exact agree_pure _
  | @declared v hname hstatic hv => exact hsome (hdeclared v hname hstatic hv)
  | unknown => exact (agree_warn _ _).bind fun _ => agree_pure _

theorem agree_piecesValue_self {declared : Variable → ResolveM String} {ps : List Piece}
    (hps : ∀ body, .token body ∈ ps →
      Agree (tokenValue env declared (tokenName body)) (tokenValue env declared (tokenName body))) :
    Agree (piecesValue env declared ps) (piecesValue env declared ps) := by
  induction ps with
  | nil => exact agree_pure _
  | cons p ps ih =>
    have hpiece : Agree (pieceValue env declared p) (pieceValue env declared p) := by
      cases p with
      | char c => exact agree_pure _
      | token body =>
        refine (hps body List.mem_cons_self).bind ?_
        rintro (_ | s) <;> exact agree_pure _
    have hrest := ih fun body hbody => hps body (List.mem_cons_of_mem _ hbody)
    exact hpiece.bind fun front => hrest.bind fun back => agree_pure _

/-- A text for which nothing is drawn comes to the same whatever there is to draw on, when the
declared variables that it names do. -/
theorem agree_textWith_self {declared : Variable → ResolveM String} {s : String}
    (hs : ¬ Draws env s) (hdeclared : ∀ v : Variable, (v.type = .environment →
      ¬ Draws env v.value) → Agree (declared v) (declared v)) :
    Agree (textWith env declared s) (textWith env declared s) := by
  have hpieces : Agree (piecesValue env declared (scan s.toList))
      (piecesValue env declared (scan s.toList)) := by
    refine agree_piecesValue_self fun body hbody => agree_tokenValue_self ?_ ?_
    · intro function hname
      exact hs (.generated ⟨body, function, hbody, hname⟩)
    · intro v hname hstatic hv
      refine hdeclared v fun htype hdraws => hs (.inside ⟨body, hbody, ?_⟩ hdraws)
      exact { toOrdinary := hname, static := hstatic, declared := hv, environment := htype }
  exact hpieces.bind fun _ => agree_pure _

theorem agree_declaredValue_self (n : Nat) (v : Variable)
    (hv : v.type = .environment → ¬ Draws env v.value) :
    Agree (declaredValue env n v) (declaredValue env n v) := by
  induction n generalizing v with
  | zero =>
    unfold declaredValue
    split
    · exact agree_pure _
    · exact agree_dynamicValue_self v
    · exact agree_throw _
  | succ n ih =>
    unfold declaredValue
    split
    · exact agree_pure _
    · exact agree_dynamicValue_self v
    · exact agree_textWith_self (hv ‹_›) ih

/-- What a text comes to for which nothing is drawn, it always comes to. -/
theorem always_of_gives {s s' : String} (hs : ¬ Draws env s)
    (h : Gives (resolveText env s) s') : Always (resolveText env s) s' := by
  obtain ⟨d, d', hrun⟩ := h
  intro e
  have hagree := agree_textWith_self hs (agree_declaredValue_self maxDepth) e d
  exact hagree.trans (congrArg Prod.fst hrun)

/-! ### Node by node -/

/-- The node `y` stands in the place of `x`: a list for one of the same length, an object for one
with the same keys in the same order, a text for a text as `R` says, and anything else for
itself. -/
inductive Counterpart (R : String → String → Prop) : Json → Json → Prop
  | text {s s' : String} (h : R s s') : Counterpart R (.text s) (.text s')
  | list {xs ys : List Json} (h : ys.length = xs.length) : Counterpart R (.list xs) (.list ys)
  | object {fs gs : Fields} (h : gs.map Prod.fst = fs.map Prod.fst) :
      Counterpart R (.object fs) (.object gs)
  | null : Counterpart R .null .null
  | bool (b : Bool) : Counterpart R (.bool b) (.bool b)
  | int (i : Int) : Counterpart R (.int i) (.int i)
  | float (x : Binary64) : Counterpart R (.float x) (.float x)
  | foreign (type inside alone : String) :
      Counterpart R (.foreign type inside alone) (.foreign type inside alone)

section Nodes

variable {f : Address → String → ResolveM String}

theorem length_of_gives_visitItems {i : Nat} {xs ys : List Json}
    (h : Gives (visitItems f i xs) ys) : ys.length = xs.length := by
  induction xs generalizing i ys with
  | nil => rw [eq_of_gives_pure h]
  | cons x xs ih =>
    rw [visitItems] at h
    obtain ⟨y, -, h⟩ := exists_of_gives_bind h
    obtain ⟨ys', hys, h⟩ := exists_of_gives_bind h
    rw [eq_of_gives_pure h, List.length_cons, List.length_cons, ih hys]

theorem keys_of_gives_visitFields {fs gs : Fields} (h : Gives (visitFields f fs) gs) :
    gs.map Prod.fst = fs.map Prod.fst := by
  induction fs generalizing gs with
  | nil => rw [eq_of_gives_pure h]
  | cons field fs ih =>
    rw [visitFields] at h
    obtain ⟨y, -, h⟩ := exists_of_gives_bind h
    obtain ⟨gs', hgs, h⟩ := exists_of_gives_bind h
    rw [eq_of_gives_pure h, List.map_cons, List.map_cons, ih hgs]

/-- What a visit makes of a document stands in its place. -/
theorem counterpart_of_gives {x y : Json} (h : Gives (visit f x) y) :
    Counterpart (fun s s' => Gives (f [] s) s') x y := by
  cases x with
  | text s =>
    obtain ⟨s', hs, h⟩ := exists_of_gives_bind h
    rw [eq_of_gives_pure h]
    exact .text hs
  | list xs =>
    rw [visit] at h
    obtain ⟨ys, hys, h⟩ := exists_of_gives_bind h
    rw [eq_of_gives_pure h]
    exact .list (length_of_gives_visitItems hys)
  | object fs =>
    rw [visit] at h
    obtain ⟨gs, hgs, h⟩ := exists_of_gives_bind h
    rw [eq_of_gives_pure h]
    exact .object (keys_of_gives_visitFields hgs)
  | _ =>
    rw [eq_of_gives_pure h]
    constructor

end Nodes

/-- The text `s'` is what the template `s` is resolved to; if nothing is drawn for it, it is
resolved to nothing else. -/
def ResolvesTo (env : Environment) (s s' : String) : Prop :=
  Gives (resolveText env s) s' ∧ (¬ Draws env s → Always (resolveText env s) s')

theorem Counterpart.mono {R R' : String → String → Prop} {x y : Json} (h : Counterpart R x y)
    (hR : ∀ s s', R s s' → R' s s') : Counterpart R' x y := by
  cases h with
  | text h => exact .text (hR _ _ h)
  | list h => exact .list h
  | object h => exact .object h
  | _ => constructor

open Classical in
/-- **Resolution by address.** To resolve a document is to visit its texts in order, to leave alone
those at or below a place that one of the entries names, and to resolve all others. If the
resolution is not refused, then each node of the outcome is the one at the same address, unchanged
where it is deferred, and else with its keys, its length or its value, and as a text with what this
is resolved to. -/
theorem resolved_by_address (env : Environment) (entries : List String)
    (hentries : ∀ e ∈ entries, IsEntry e) (x : Json) :
    resolve env (entries.map Deferral.ofText) x =
      visit (fun a s => if Deferred entries a then pure s else resolveText env s) x ∧
    ∀ y, Gives (resolve env (entries.map Deferral.ofText) x) y → ∀ a,
      (Deferred entries a → y.node? a = x.node? a) ∧
      (¬ Deferred entries a →
        Option.Rel (Counterpart (ResolvesTo env)) (x.node? a) (y.node? a)) := by
  have hvisit : resolve env (entries.map Deferral.ofText) x =
      visit (fun a s => if Deferred entries a then pure s else resolveText env s) x := by
    rw [resolve, resolveTree_eq_visit]
    simp only [covered_ofText_iff hentries]
  refine ⟨hvisit, fun y hy a => ?_⟩
  rw [hvisit] at hy
  have hnode := rel_of_gives_visit hy a
  generalize x.node? a = x?, y.node? a = y? at hnode
  cases hnode with
  | none => exact ⟨fun _ => rfl, fun _ => .none⟩
  | @some x' y' hnode =>
    constructor
    · intro ha
      -- Below a deferred place, all is deferred.
      have hbelow (b : Address) : Deferred entries (a ++ b) := by
        obtain ⟨e, he, p, hp, hbegins⟩ := ha
        exact ⟨e, he, p, hp, hbegins.trans (List.prefix_append a b)⟩
      simp only [hbelow, if_true, visit_pure] at hnode
      rw [eq_of_gives_pure hnode]
    · intro ha
      refine .some ((counterpart_of_gives hnode).mono fun s s' hs => ?_)
      rw [List.append_nil, if_neg ha] at hs
      exact ⟨hs, fun hdraws => always_of_gives hdraws hs⟩

/-- The places of the nested actions of a branch. -/
def branchEntries : List String := ["if_actions", "else_if_conditions[].actions"]

/-- A document in which the key `actions` stands in a deferred place and in another one. -/
def branchDocument : Json :=
  .object [
    ("if_actions", .list [.text "\x7b\x7ba\x7d\x7d"]),
    ("else_if_conditions", .list [.object [("actions", .text "\x7b\x7ba\x7d\x7d")]]),
    ("actions", .text "\x7b\x7ba\x7d\x7d")]

theorem isEntry_branchEntries : ∀ e ∈ branchEntries, IsEntry e := by
  have hplain : IsEntry "if_actions" := ⟨_, .key (isName_of_not_mem (by decide))⟩
  have hinner : IsEntry "else_if_conditions[].actions" := by
    have hsplit : "else_if_conditions[].actions" = "else_if_conditions" ++ "[]." ++ "actions" := by
      decide
    rw [hsplit]
    exact ⟨_, .each (isName_of_not_mem (by decide)) (isName_of_not_mem (by decide)) 0⟩
  intro e he
  obtain rfl | rfl : e = "if_actions" ∨ e = "else_if_conditions[].actions" := by
    simpa [branchEntries] using he
  · exact hplain
  · exact hinner

/-- The actions inside a branch are left alone, and the ones beside it are resolved. -/
theorem resolved_by_address_branches :
    (∀ e ∈ branchEntries, IsEntry e) ∧
    ∃ y, Gives (resolve oneStatic (branchEntries.map Deferral.ofText) branchDocument) y ∧
      y.node? [.key "else_if_conditions", .item 0, .key "actions"] =
        branchDocument.node? [.key "else_if_conditions", .item 0, .key "actions"] ∧
      Option.Rel (Counterpart (ResolvesTo oneStatic))
        (branchDocument.node? [.key "actions"]) (y.node? [.key "actions"]) := by
  have hcovered {a : Address} := @covered_ofText_iff _ isEntry_branchEntries a
  have hin : Deferred branchEntries [.key "else_if_conditions", .item 0, .key "actions"] :=
    hcovered.mp (by decide)
  have hout : ¬ Deferred branchEntries [.key "actions"] := by
    rw [← hcovered]
    decide
  obtain ⟨-, h⟩ :=
    resolved_by_address oneStatic branchEntries isEntry_branchEntries branchDocument
  let y : Json := .object [
    ("if_actions", .list [.text "\x7b\x7ba\x7d\x7d"]),
    ("else_if_conditions", .list [.object [("actions", .text "\x7b\x7ba\x7d\x7d")]]),
    ("actions", .text "one")]
  have hy : Gives (resolve oneStatic (branchEntries.map Deferral.ofText) branchDocument) y := by
    have hone : ((resolveText oneStatic "\x7b\x7ba\x7d\x7d").run.run {}).1.toOption =
        some "one" := by decide +kernel
    generalize hrun : (resolveText oneStatic "\x7b\x7ba\x7d\x7d").run.run {} = outcome at hone
    obtain ⟨e | s, d⟩ := outcome
    · cases hone
    · refine ⟨{}, d, ?_⟩
      cases hone
      have hkeys : branchEntries.map Deferral.ofText =
        [.key "if_actions", .each "else_if_conditions" (.key "actions")] := by decide
      rw [hkeys]
      simp [resolve, resolveTree, resolveItems, resolveFields, branchDocument, hrun,
        Deferral.inside, y]
      rfl
  exact ⟨isEntry_branchEntries, y, hy, (h y hy _).1 hin, (h y hy _).2 hout⟩

end Runbook.Template
