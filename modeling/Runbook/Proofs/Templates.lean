import Runbook.Template.Resolve

/-!
# What templates become

Each token of a template is replaced once, and what takes its place is not scanned again. Only the
value of a declared variable of type environment is a template itself, and at most ten of these can
follow each other. To resolve a document is to do this with every text in it, but for those in
deferred places.

* `Template.Gives m a`: the resolution `m` can come to `a`.
* `Template.Source env declared name m`: the resolution `m` is the one that a name calls for.
* `Template.Known env inner name s`: what takes the place of a token.
* `Template.Within env n s s'`: the text `s'` is what the template `s` becomes.
* `Template.Rewritten R deferred inner x y`: the document `y` is `x` with its texts rewritten, but
  for those in deferred places.
* `Template.within_of_gives`, `Template.rewritten_of_gives`: what resolutions come to.
-/

namespace Runbook.Template

open Text

variable {α β : Type}

/-! ### What resolutions give -/

/-- A resolution can give a value, whatever it draws on. -/
def Gives (m : ResolveM α) (a : α) : Prop := ∃ d d', m.run.run d = (.ok a, d')

theorem eq_of_gives_pure {a b : α} (h : Gives (pure a) b) : b = a := by
  obtain ⟨d, d', heq⟩ := h
  exact (Except.ok.inj (congrArg Prod.fst heq)).symm

/-- What one resolution after another gives comes of what the first gives. -/
theorem exists_of_gives_bind {m : ResolveM α} {f : α → ResolveM β} {b : β}
    (h : Gives (m >>= f) b) : ∃ a, Gives m a ∧ Gives (f a) b := by
  obtain ⟨d, d', heq⟩ := h
  change ((ExceptT.bindCont f (m.run.run d).1).run (m.run.run d).2) = _ at heq
  rcases hm : m.run.run d with ⟨_ | a, d₁⟩
  · rw [hm] at heq
    cases congrArg Prod.fst heq
  · rw [hm] at heq
    exact ⟨a, ⟨d, d₁, hm⟩, d₁, d', heq⟩

theorem not_gives_throw {e : ResolveFault} {a : α} : ¬ Gives (throw e) a := by
  rintro ⟨d, d', heq⟩
  cases congrArg Prod.fst heq

/-- A warning does not come into what is given. -/
theorem eq_of_gives_warn {event : String} {fields : Fields} {a b : α}
    (h : Gives (do warn event fields; return a) b) : b = a := by
  obtain ⟨_, -, h⟩ := exists_of_gives_bind h
  exact eq_of_gives_pure h

/-! ### Texts -/

/-- A name that is neither reserved nor begins with the name of a kind of values. -/
structure Ordinary (env : Environment) (name : String) : Prop where
  reserved : env.context.reserved? name = none
  runtime (path : String) : name ≠ "runtime." ++ path
  faker (kind : String) : name ≠ "faker." ++ kind
  function (function : String) : name ≠ "function." ++ function

variable {env : Environment} {inner : String → String → Prop}

theorem ordinary_of_none {name : String} (hreserved : env.context.reserved? name = none)
    (hruntime : stripPrefix? "runtime." name = none) (hfaker : stripPrefix? "faker." name = none)
    (hfunction : stripPrefix? "function." name = none) : Ordinary env name := by
  have hnone {front rest : String} (h : stripPrefix? front name = none) : name ≠ front ++ rest :=
    fun heq => by cases h.symm.trans (stripPrefix?_eq_some_iff.mpr heq)
  exact ⟨hreserved, fun _ => hnone hruntime, fun _ => hnone hfaker, fun _ => hnone hfunction⟩

/-- What a declared variable stands for, when `inner` says what templates become: its value as it
is, sample data if it is dynamic and its value is a token that asks for them, and if it is of type
environment what its value becomes as a template. -/
inductive StandsFor (env : Environment) (inner : String → String → Prop) (v : Variable) :
    String → Prop
  | static (h : v.type = .static) : StandsFor env inner v v.value
  | dynamic (h : v.type = .dynamic)
      (hvalue : ∀ kind, trim v.value ≠ "\x7b\x7bfaker." ++ (kind ++ "\x7d\x7d")) :
      StandsFor env inner v v.value
  | sample {kind s : String} (h : v.type = .dynamic)
      (hvalue : trim v.value = "\x7b\x7bfaker." ++ (kind ++ "\x7d\x7d"))
      (hs : Gives (fake env.data (trim kind)) s) : StandsFor env inner v s
  | environment {s : String} (h : v.type = .environment) (hs : inner v.value s) :
      StandsFor env inner v s

/-- What takes the place of a token. -/
inductive Known (env : Environment) (inner : String → String → Prop) (name : String) : String → Prop
  | reserved {s : String} (h : env.context.reserved? name = some s) : Known env inner name s
  | runtime {path : String} {x : Json} (h : name = "runtime." ++ path)
      (hx : Path.lookup env.context.runtimeVars env.context.globalVars path = .ok x) :
      Known env inner name (stringify x)
  | nowhere {path : String} {e : PathError} (h : name = "runtime." ++ path)
      (hx : Path.lookup env.context.runtimeVars env.context.globalVars path = .error e) :
      Known env inner name ""
  | sample {kind s : String} (h : name = "faker." ++ kind) (hs : Gives (fake env.data kind) s) :
      Known env inner name s
  | generated {function s : String} (h : name = "function." ++ function)
      (hs : Gives (callFunction env.now function) s) : Known env inner name s
  | static {s : String} (hname : Ordinary env name) (h : env.context.static? name = some s) :
      Known env inner name s
  | declared {v : Variable} {s : String} (hname : Ordinary env name)
      (hstatic : env.context.static? name = none)
      (h : env.config.bind (·.findVariable name) = some v) (hs : StandsFor env inner v s) :
      Known env inner name s

/-- A name that nothing knows. -/
structure Unknown (env : Environment) (name : String) : Prop extends Ordinary env name where
  static : env.context.static? name = none
  declared : env.config.bind (·.findVariable name) = none

/-- How a token of this name is resolved. A reserved name comes before everything else, and a static
variable before what is declared. -/
inductive Source (env : Environment) (declared : Variable → ResolveM String) (name : String) :
    ResolveM (Option String) → Prop
  | reserved {s : String} (h : env.context.reserved? name = some s) :
      Source env declared name (pure (some s))
  | runtime {path : String} (h : name = "runtime." ++ path) :
      Source env declared name (do return some (← runtimeValue env.context path))
  | sample {kind : String} (h : name = "faker." ++ kind) :
      Source env declared name (do return some (← fake env.data kind))
  | generated {function : String} (h : name = "function." ++ function) :
      Source env declared name (do return some (← callFunction env.now function))
  | static {s : String} (hname : Ordinary env name) (h : env.context.static? name = some s) :
      Source env declared name (pure (some s))
  | declared {v : Variable} (hname : Ordinary env name) (hstatic : env.context.static? name = none)
      (h : env.config.bind (·.findVariable name) = some v) :
      Source env declared name (do return some (← declared v))
  | unknown (h : Unknown env name) : Source env declared name (do
      warn "variable_not_found" [("name", .text name)]
      return none)

section Source

variable {declared : Variable → ResolveM String} {name : String}

theorem source_tokenValue (env : Environment) (declared : Variable → ResolveM String)
    (name : String) : Source env declared name (tokenValue env declared name) := by
  unfold tokenValue
  cases hreserved : env.context.reserved? name with
  | some s => exact .reserved hreserved
  | none =>
  cases hruntime : stripPrefix? "runtime." name with
  | some path => exact .runtime (stripPrefix?_eq_some_iff.mp hruntime)
  | none =>
  cases hfaker : stripPrefix? "faker." name with
  | some kind => exact .sample (stripPrefix?_eq_some_iff.mp hfaker)
  | none =>
  cases hfunction : stripPrefix? "function." name with
  | some function => exact .generated (stripPrefix?_eq_some_iff.mp hfunction)
  | none =>
    have hname : Ordinary env name := ordinary_of_none hreserved hruntime hfaker hfunction
    cases hstatic : env.context.static? name with
    | some s => exact .static hname hstatic
    | none =>
    cases hv : env.config.bind (·.findVariable name) with
    | some v => exact .declared hname hstatic hv
    | none => exact .unknown { hname with static := hstatic, declared := hv }

/-- No reserved name begins with the name of a kind of values. -/
theorem ne_append_of_reserved {v : VariableContext} {s front : String}
    (h : v.reserved? name = some s) (hfront : front ∈ ["runtime.", "faker.", "function."])
    (rest : String) : name ≠ front ++ rest := by
  have hnone : ∀ front ∈ ["runtime.", "faker.", "function."], stripPrefix? front name = none := by
    unfold VariableContext.reserved? at h
    split at h <;> first | decide | cases h
  intro heq
  cases (hnone front hfront).symm.trans (stripPrefix?_eq_some_iff.mpr heq)

/-- What is found under a name among the static variables and the declared ones. -/
def lookedUp (env : Environment) (declared : Variable → ResolveM String) (name : String) :
    ResolveM (Option String) := do
  if let some s := env.context.static? name then return some s
  if let some v := env.config.bind (·.findVariable name) then return some (← declared v)
  warn "variable_not_found" [("name", .text name)]
  return none

theorem stripPrefix?_eq_none {front : String} (h : ∀ rest, name ≠ front ++ rest) :
    stripPrefix? front name = none := by
  rw [Option.eq_none_iff_forall_ne_some]
  exact fun rest hrest => h rest (stripPrefix?_eq_some_iff.mp hrest)

/-- An ordinary name is looked up. -/
theorem Ordinary.tokenValue_eq (h : Ordinary env name) :
    tokenValue env declared name = lookedUp env declared name := by
  unfold tokenValue
  rw [h.reserved, stripPrefix?_eq_none h.runtime, stripPrefix?_eq_none h.faker,
    stripPrefix?_eq_none h.function]
  rfl

/-- A name is resolved in one way only. -/
theorem Source.eq {m : ResolveM (Option String)} (h : Source env declared name m) :
    tokenValue env declared name = m := by
  have hreserved {front rest : String} (hfront : front ∈ ["runtime.", "faker.", "function."])
      (heq : name = front ++ rest) : env.context.reserved? name = none :=
    Option.eq_none_iff_forall_ne_some.mpr fun s hs => ne_append_of_reserved hs hfront rest heq
  cases h with
  | reserved h => rw [tokenValue, h]
  | runtime h => rw [tokenValue, hreserved (by simp) h, stripPrefix?_eq_some_iff.mpr h]
  | sample h =>
    have hruntime : ∀ rest, name ≠ "runtime." ++ rest := by simp [h, ← String.toList_inj]
    rw [tokenValue, hreserved (by simp) h, stripPrefix?_eq_none hruntime,
      stripPrefix?_eq_some_iff.mpr h]
  | generated h =>
    have hruntime : ∀ rest, name ≠ "runtime." ++ rest := by simp [h, ← String.toList_inj]
    have hfaker : ∀ rest, name ≠ "faker." ++ rest := by simp [h, ← String.toList_inj]
    rw [tokenValue, hreserved (by simp) h, stripPrefix?_eq_none hruntime,
      stripPrefix?_eq_none hfaker, stripPrefix?_eq_some_iff.mpr h]
  | static hname h => rw [hname.tokenValue_eq, lookedUp, h]
  | declared hname hstatic h => rw [hname.tokenValue_eq, lookedUp, hstatic, h]
  | unknown h => rw [h.tokenValue_eq, lookedUp, h.static, h.declared]

end Source

/-- What a piece of a template becomes: a token gives way to what is known for its name, and it
stays if nothing is. -/
inductive Becomes (env : Environment) (inner : String → String → Prop) : Piece → List Char → Prop
  | char (c : Char) : Becomes env inner (.char c) [c]
  | known {body : List Char} {s : String}
      (h : Known env inner (String.ofList (trimBoth isBlank body)) s) :
      Becomes env inner (.token body) s.toList
  | unknown {body : List Char} (h : Unknown env (String.ofList (trimBoth isBlank body))) :
      Becomes env inner (.token body) (written body)

/-- What pieces become one after another. -/
inductive Turns (env : Environment) (inner : String → String → Prop) :
    List Piece → List Char → Prop
  | nil : Turns env inner [] []
  | cons {p : Piece} {ps : List Piece} {cs rest : List Char} (h : Becomes env inner p cs)
      (hrest : Turns env inner ps rest) : Turns env inner (p :: ps) (cs ++ rest)

/-- The text `s'` is the template `s`, with every token in it replaced. -/
def Rendered (env : Environment) (inner : String → String → Prop) (s s' : String) : Prop :=
  ∃ cs, Turns env inner (scan s.toList) cs ∧ s' = String.ofList cs

/-- The text `s'` is what the template `s` becomes, with at most `n` variables of type environment
one inside the other. -/
def Within (env : Environment) : Nat → String → String → Prop
  | 0 => Rendered env fun _ _ => False
  | n + 1 => Rendered env (Within env n)

/-! ### What resolving a template gives -/

/-- What follows the beginning of a single `faker` token ends in its closing braces. -/
theorem eq_append_of_endsWith {rest : String}
    (h : endsWith ("\x7b\x7bfaker." ++ rest) "\x7d\x7d" = true) :
    rest = String.ofList (rest.toList.take (rest.length - 2)) ++ "\x7d\x7d" := by
  have hsuffix := h
  rw [endsWith, List.isSuffixOf_iff_suffix, String.toList_append] at hsuffix
  rcases List.suffix_or_suffix_of_suffix hsuffix (List.suffix_append _ _) with hrest | hrest
  · obtain ⟨cs, hcs⟩ := hrest
    have hlen : rest.length = cs.length + 2 := by
      rw [← String.length_toList, ← hcs, List.length_append]
      rfl
    have htake : rest.toList.take (rest.length - 2) = cs := by
      rw [hlen, Nat.add_sub_cancel, ← hcs, List.take_left]
    rw [htake, ← String.toList_inj, String.toList_append, String.toList_ofList, hcs]
  -- What follows is not so short that the beginning would have to end in a brace.
  · change rest.toList <:+ ['\x7d', '\x7d'] at hrest
    rw [List.suffix_cons_iff, List.suffix_cons_iff, List.suffix_nil] at hrest
    rcases hrest with hrest | hrest | hrest
    · obtain rfl : rest = "\x7d\x7d" := String.toList_inj.mp hrest
      rfl
    · obtain rfl : rest = "\x7d" := String.toList_inj.mp hrest
      exact absurd h (by decide)
    · obtain rfl : rest = "" := String.toList_inj.mp hrest
      exact absurd h (by decide)

theorem standsFor_of_dynamic {v : Variable} {s : String} (hv : v.type = .dynamic)
    (h : Gives (dynamicValue env v) s) : StandsFor env inner v s := by
  unfold dynamicValue at h
  dsimp only at h
  split at h
  · rename_i rest hrest
    have hvalue := stripPrefix?_eq_some_iff.mp hrest
    split at h
    · rename_i hends
      rw [hvalue] at hends
      exact .sample hv (hvalue.trans (congrArg _ (eq_append_of_endsWith hends))) h
    · rename_i hends
      rw [eq_of_gives_pure h]
      refine .dynamic hv fun kind hkind => hends ?_
      rw [hkind, endsWith, List.isSuffixOf_iff_suffix, String.toList_append, String.toList_append]
      exact ⟨_, List.append_assoc ..⟩
  · rename_i hnone
    rw [eq_of_gives_pure h]
    refine .dynamic hv fun kind hkind => ?_
    cases hnone.symm.trans (stripPrefix?_eq_some_iff.mpr hkind)

theorem standsFor_of_gives {n : Nat} {v : Variable} {s : String}
    (hinner : ∀ m s, n = m + 1 → Gives (textWith env (declaredValue env m) v.value) s →
      inner v.value s) (h : Gives (declaredValue env n v) s) : StandsFor env inner v s := by
  unfold declaredValue at h
  split at h
  · rename_i hv
    rw [eq_of_gives_pure h]
    exact .static hv
  · rename_i hv
    exact standsFor_of_dynamic hv h
  · rename_i hv
    split at h
    · exact absurd h not_gives_throw
    · exact .environment hv (hinner _ _ rfl h)

/-- A path leads to a value, which is written down, or else nowhere. -/
theorem known_of_runtime {name path s : String} (hname : name = "runtime." ++ path)
    (h : Gives (runtimeValue env.context path) s) : Known env inner name s := by
  unfold runtimeValue at h
  split at h
  · rename_i x hx
    rw [eq_of_gives_pure h]
    exact .runtime hname hx
  · rename_i e hx
    rw [eq_of_gives_warn h]
    exact .nowhere hname hx

section Pieces

variable {declared : Variable → ResolveM String}
  (hdeclared : ∀ v s, Gives (declared v) s → StandsFor env inner v s)

include hdeclared

/-- A token gives what is known for its name, or nothing if it is not known. -/
theorem known_of_gives {name : String} {found : Option String}
    (h : Gives (tokenValue env declared name) found) :
    (∃ s, found = some s ∧ Known env inner name s) ∨ found = none ∧ Unknown env name := by
  have hmap {m : ResolveM String} (hm : Gives (do return some (← m)) found)
      (hknown : ∀ s, Gives m s → Known env inner name s) :
      (∃ s, found = some s ∧ Known env inner name s) ∨ found = none ∧ Unknown env name := by
    obtain ⟨s, hs, hm⟩ := exists_of_gives_bind hm
    exact .inl ⟨s, eq_of_gives_pure hm, hknown s hs⟩
  have hsource := source_tokenValue env declared name
  generalize tokenValue env declared name = m at h hsource
  cases hsource with
  | reserved hs => exact .inl ⟨_, eq_of_gives_pure h, .reserved hs⟩
  | runtime hpath => exact hmap h fun s => known_of_runtime hpath
  | sample hkind => exact hmap h fun s => .sample hkind
  | generated hfunction => exact hmap h fun s => .generated hfunction
  | static hname hs => exact .inl ⟨_, eq_of_gives_pure h, .static hname hs⟩
  | declared hname hstatic hv =>
    exact hmap h fun s hs => .declared hname hstatic hv (hdeclared _ s hs)
  | unknown hname => exact .inr ⟨eq_of_gives_warn h, hname⟩

theorem becomes_of_gives {p : Piece} {cs : List Char}
    (h : Gives (pieceValue env declared p) cs) : Becomes env inner p cs := by
  cases p with
  | char c =>
    rw [eq_of_gives_pure h]
    exact .char c
  | token body =>
    obtain ⟨found, hfound, h⟩ := exists_of_gives_bind h
    rcases known_of_gives hdeclared hfound with ⟨s, rfl, hknown⟩ | ⟨rfl, hunknown⟩
    · rw [eq_of_gives_pure h]
      exact .known hknown
    · rw [eq_of_gives_pure h]
      exact .unknown hunknown

theorem turns_of_gives {ps : List Piece} {cs : List Char}
    (h : Gives (piecesValue env declared ps) cs) : Turns env inner ps cs := by
  induction ps generalizing cs with
  | nil =>
    rw [eq_of_gives_pure h]
    exact .nil
  | cons p ps ih =>
    obtain ⟨front, hfront, h⟩ := exists_of_gives_bind h
    obtain ⟨back, hback, h⟩ := exists_of_gives_bind h
    rw [eq_of_gives_pure h]
    exact .cons (becomes_of_gives hdeclared hfront) (ih hback)

theorem rendered_of_gives {s s' : String} (h : Gives (textWith env declared s) s') :
    Rendered env inner s s' := by
  obtain ⟨cs, hcs, h⟩ := exists_of_gives_bind h
  exact ⟨cs, turns_of_gives hdeclared hcs, eq_of_gives_pure h⟩

end Pieces

/-- What a template gives, when declared variables may be reached through so many others. -/
theorem within_of_gives {n : Nat} {s s' : String}
    (h : Gives (textWith env (declaredValue env n) s) s') : Within env n s s' := by
  induction n generalizing s s' with
  | zero => exact rendered_of_gives (fun v s => standsFor_of_gives nofun) h
  | succ n ih =>
    refine rendered_of_gives (fun v s => standsFor_of_gives fun m s hm h => ?_) h
    cases hm
    exact ih h

/-! ### Documents -/

mutual

/-- The document `y` is `x` with every text rewritten, but for those in deferred places. As in a
resolution, `deferred` names places in an object, and `inner` in each item of a list. -/
def Rewritten (R : String → String → Prop) (deferred inner : List Deferral) : Json → Json → Prop
  | .text s, y => ∃ s', y = .text s' ∧ R s s'
  | .list items, y => ∃ items', y = .list items' ∧ RewrittenItems R inner items items'
  | .object fields, y => ∃ fields', y = .object fields' ∧ RewrittenFields R deferred fields fields'
  | x, y => y = x

/-- The same for the items of a list. -/
def RewrittenItems (R : String → String → Prop) (inner : List Deferral) :
    List Json → List Json → Prop
  | [], ys => ys = []
  | x :: xs, ys => ∃ y ys', ys = y :: ys' ∧ Rewritten R inner [] x y ∧ RewrittenItems R inner xs ys'

/-- The same for the fields of an object. Their keys stay. -/
def RewrittenFields (R : String → String → Prop) (deferred : List Deferral) :
    List (String × Json) → List (String × Json) → Prop
  | [], gs => gs = []
  | (key, x) :: fs, gs => ∃ y gs', gs = (key, y) :: gs' ∧
      (if .key key ∈ deferred then y = x
        else Rewritten R [] (Deferral.inside deferred key) x y) ∧
      RewrittenFields R deferred fs gs'

end

mutual

/-- To resolve a document is to resolve each of its texts, but for those in deferred places. -/
theorem rewritten_of_gives {env : Environment} {deferred inner : List Deferral} :
    ∀ {x y : Json}, Gives (resolveTree env deferred inner x) y →
      Rewritten (Within env maxDepth) deferred inner x y
  | .text s, y, h => by
    rw [resolveTree] at h
    obtain ⟨s', hs, hy⟩ := exists_of_gives_bind h
    exact ⟨s', eq_of_gives_pure hy, within_of_gives hs⟩
  | .list items, y, h => by
    rw [resolveTree] at h
    obtain ⟨items', hitems, hy⟩ := exists_of_gives_bind h
    exact ⟨items', eq_of_gives_pure hy, rewrittenItems_of_gives hitems⟩
  | .object fields, y, h => by
    rw [resolveTree] at h
    obtain ⟨fields', hfields, hy⟩ := exists_of_gives_bind h
    exact ⟨fields', eq_of_gives_pure hy, rewrittenFields_of_gives hfields⟩
  | .null, y, h => eq_of_gives_pure h
  | .bool _, y, h => eq_of_gives_pure h
  | .int _, y, h => eq_of_gives_pure h
  | .float _, y, h => eq_of_gives_pure h
  | .foreign _ _ _, y, h => eq_of_gives_pure h

theorem rewrittenItems_of_gives {env : Environment} {inner : List Deferral} :
    ∀ {xs ys : List Json}, Gives (resolveItems env inner xs) ys →
      RewrittenItems (Within env maxDepth) inner xs ys
  | [], ys, h => eq_of_gives_pure h
  | x :: xs, ys, h => by
    rw [resolveItems] at h
    obtain ⟨y, hy, hrest⟩ := exists_of_gives_bind h
    obtain ⟨ys', hys, heq⟩ := exists_of_gives_bind hrest
    exact ⟨y, ys', eq_of_gives_pure heq, rewritten_of_gives hy, rewrittenItems_of_gives hys⟩

theorem rewrittenFields_of_gives {env : Environment} {deferred : List Deferral} :
    ∀ {fs gs : List (String × Json)}, Gives (resolveFields env deferred fs) gs →
      RewrittenFields (Within env maxDepth) deferred fs gs
  | [], gs, h => eq_of_gives_pure h
  | (key, x) :: fs, gs, h => by
    rw [resolveFields] at h
    simp only [List.contains_iff_mem] at h
    by_cases hkey : .key key ∈ deferred
    · rw [if_pos hkey] at h
      obtain ⟨y, hy, hrest⟩ := exists_of_gives_bind h
      obtain ⟨gs', hgs, heq⟩ := exists_of_gives_bind hrest
      refine ⟨y, gs', eq_of_gives_pure heq, ?_, rewrittenFields_of_gives hgs⟩
      rw [if_pos hkey]
      exact eq_of_gives_pure hy
    · rw [if_neg hkey] at h
      obtain ⟨y, hy, hrest⟩ := exists_of_gives_bind h
      obtain ⟨gs', hgs, heq⟩ := exists_of_gives_bind hrest
      refine ⟨y, gs', eq_of_gives_pure heq, ?_, rewrittenFields_of_gives hgs⟩
      rw [if_neg hkey]
      exact rewritten_of_gives hy

end

/-! ### Fields that are rewritten -/

section Fields

variable {R : String → String → Prop} {deferred : List Deferral} {fs gs : Fields} {key : String}

/-- A deferred field stays as it is. -/
theorem RewrittenFields.get?_of_deferred (h : RewrittenFields R deferred fs gs)
    (hkey : .key key ∈ deferred) : Fields.get? gs key = Fields.get? fs key := by
  induction fs generalizing gs with
  | nil => rw [show gs = [] from h]
  | cons f fs ih =>
    obtain ⟨k, x⟩ := f
    obtain ⟨y, gs', rfl, hy, hrest⟩ := h
    by_cases hk : k = key
    · subst hk
      rw [if_pos hkey] at hy
      simp [Fields.get?, hy]
    · simpa [Fields.get?, hk] using ih hrest

/-- A field that is there was there before. -/
theorem RewrittenFields.exists_of_get? (h : RewrittenFields R deferred fs gs) {y : Json}
    (hkey : .key key ∉ deferred) (hy : Fields.get? gs key = some y) :
    ∃ x, Fields.get? fs key = some x ∧ Rewritten R [] (Deferral.inside deferred key) x y := by
  induction fs generalizing gs with
  | nil =>
    rw [show gs = [] from h] at hy
    cases hy
  | cons f fs ih =>
    obtain ⟨k, x⟩ := f
    obtain ⟨z, gs', rfl, hz, hrest⟩ := h
    by_cases hk : k = key
    · subst hk
      rw [if_neg hkey] at hz
      obtain rfl : z = y := by simpa [Fields.get?] using hy
      exact ⟨x, by simp [Fields.get?], hz⟩
    · obtain ⟨x', hx', hrewritten⟩ := ih hrest (by simpa [Fields.get?, hk] using hy)
      exact ⟨x', by simpa [Fields.get?, hk] using hx', hrewritten⟩

/-- A list was a list before. -/
theorem Rewritten.exists_list {inner : List Deferral} {x : Json} {ys : List Json}
    (h : Rewritten R deferred inner x (.list ys)) :
    ∃ xs, x = .list xs ∧ RewrittenItems R inner xs ys := by
  cases x with
  | list xs =>
    obtain ⟨ys', heq, hitems⟩ := h
    cases heq
    exact ⟨xs, rfl, hitems⟩
  | text =>
    obtain ⟨_, heq, -⟩ := h
    cases heq
  | object =>
    obtain ⟨_, heq, -⟩ := h
    cases heq
  | _ => cases h

/-- An object was an object before. -/
theorem Rewritten.exists_object {inner : List Deferral} {x : Json}
    (h : Rewritten R deferred inner x (.object gs)) :
    ∃ fs, x = .object fs ∧ RewrittenFields R deferred fs gs := by
  cases x with
  | object fs =>
    obtain ⟨gs', heq, hfields⟩ := h
    cases heq
    exact ⟨fs, rfl, hfields⟩
  | text =>
    obtain ⟨_, heq, -⟩ := h
    cases heq
  | list =>
    obtain ⟨_, heq, -⟩ := h
    cases heq
  | _ => cases h

/-- An object in a list was an object in the same place. -/
theorem RewrittenItems.exists_of_getElem? {inner : List Deferral} {xs ys : List Json} {j : Nat}
    (h : RewrittenItems R inner xs ys) (hj : ys[j]? = some (.object gs)) :
    ∃ fs, xs[j]? = some (.object fs) ∧ RewrittenFields R inner fs gs := by
  induction xs generalizing ys j with
  | nil =>
    rw [show ys = [] from h] at hj
    cases hj
  | cons x xs ih =>
    obtain ⟨y, ys', rfl, hy, hrest⟩ := h
    cases j with
    | succ j => exact ih hrest hj
    | zero =>
      obtain rfl := Option.some.inj hj
      obtain ⟨fs, rfl, hfields⟩ := hy.exists_object
      exact ⟨fs, rfl, hfields⟩

end Fields

end Runbook.Template
