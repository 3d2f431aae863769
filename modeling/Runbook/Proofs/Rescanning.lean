import Runbook.Proofs.Refusals

/-!
# Resolving what has been resolved

When a template has been resolved, the tokens that nothing knows are still there. Resolved once
more, it may have other tokens as well: where a value is empty, what was on both sides of a token
comes together, and where a value has braces in it, these may belong to a new one. If the values are
not empty and have no braces, then the tokens that are left are all there is, and the text stays as
it is.

This is so because a brace of the text that comes out is one of the text that went in. If there were
a new token, its opening braces could not be the braces of an old token, and they could not have
such a token behind them: either way a token would have begun one character before. And what was
between the opening braces and the next closing one had no token in it that gave way to a value, for
the braces of that token would have been the ones that close.

* `Template.Solid v`: a value that is not empty and has no braces.
* `Template.Filled kept cs ds`: the text `ds` is `cs` with some of its tokens replaced by such
  values, and with the others, whose bodies are all `kept`, left as they are.
* `Template.Filled.kept_of_token`: each token of such a text is one that has been left.
* `Template.Plain env name`: a token of this name comes to a fixed value or stays.
* `Template.resolved_resolves_to_itself`: what resolving a text once more comes to.
-/

namespace Runbook.Template

open Text

variable {α β : Type} {env : Environment} {body cs ds : List Char}

/-! ### Tokens -/

/-- What stands between the braces of a token. -/
structure Enclosed (body : List Char) : Prop where
  nonempty : body ≠ []
  inBody : ∀ c ∈ body, inBody c = true

theorem written_append (body rest : List Char) : written body ++ rest =
    openBrace :: openBrace :: (body ++ closeBrace :: closeBrace :: rest) := by
  simp [written]

/-- There is a token at the front of a text when the text begins with a token as it is written. -/
theorem tokenAt?_eq_some_iff {rest : List Char} :
    tokenAt? cs = some (body, rest) ↔ Enclosed body ∧ cs = written body ++ rest := by
  constructor
  · intro h
    refine ⟨?_, eq_written_of_tokenAt? h⟩
    unfold tokenAt? at h
    split at h
    · split at h
      · rename_i ds c b r htake hdrop
        obtain ⟨rfl, -⟩ : c :: b = body ∧ r = rest := by simpa using h
        exact ⟨List.cons_ne_nil _ _, htake ▸ List.all_eq_true.mp List.all_takeWhile⟩
      · cases h
    · cases h
  · rintro ⟨h, rfl⟩
    obtain ⟨c, b, rfl⟩ := List.exists_cons_of_ne_nil h.nonempty
    have htake : ((c :: b) ++ closeBrace :: closeBrace :: rest).takeWhile inBody = c :: b := by
      rw [List.takeWhile_append_of_pos h.inBody]
      simp [inBody]
    have hdrop : ((c :: b) ++ closeBrace :: closeBrace :: rest).dropWhile inBody =
        closeBrace :: closeBrace :: rest := by
      rw [List.dropWhile_append_of_pos h.inBody]
      simp [inBody]
    rw [written_append]
    simp only [openBrace, tokenAt?, htake, hdrop]
    rfl

theorem scan_nil : scan [] = [] := by
  rw [scan]
  rfl

/-- Where no token begins, a character is copied. -/
theorem scan_cons_of_none {c : Char} (h : tokenAt? (c :: cs) = none) :
    scan (c :: cs) = .char c :: scan cs := by
  rw [scan]
  split
  · rename_i hsome
    cases h.symm.trans hsome
  · rfl

theorem scan_of_some {rest : List Char} (h : tokenAt? cs = some (body, rest)) :
    scan cs = .token body :: scan rest := by
  rw [scan]
  split
  · rename_i hsome
    cases h.symm.trans hsome
    rfl
  · rename_i hnone
    cases h.symm.trans hnone

/-- A token begins with a brace. -/
theorem tokenAt?_eq_none_of_ne {c : Char} (h : c ≠ openBrace) : tokenAt? (c :: cs) = none := by
  rw [Option.eq_none_iff_forall_ne_some]
  rintro ⟨body, rest⟩ hsome
  have heq := (tokenAt?_eq_some_iff.mp hsome).2
  exact h (List.cons.inj heq).1

/-! ### Values without braces -/

/-- A value that is not empty and has no braces. -/
structure Solid (v : List Char) : Prop where
  nonempty : v ≠ []
  noOpen : openBrace ∉ v
  noClose : closeBrace ∉ v

/-- The characters of such a value are copied. -/
theorem scan_append_of_not_mem {v : List Char} (h : openBrace ∉ v) :
    scan (v ++ cs) = v.map .char ++ scan cs := by
  induction v with
  | nil => rfl
  | cons c v ih =>
    rw [List.mem_cons, not_or] at h
    rw [List.cons_append, scan_cons_of_none (tokenAt?_eq_none_of_ne (Ne.symm h.1)), ih h.2]
    rfl

/-- The text `ds` is `cs` with some of its tokens replaced by values without braces, and with the
others, whose bodies are all `kept`, left as they are. -/
inductive Filled (kept : List Char → Prop) : List Char → List Char → Prop
  | nil : Filled kept [] []
  | char {c : Char} {cs ds : List Char} (hnone : tokenAt? (c :: cs) = none)
      (h : Filled kept cs ds) : Filled kept (c :: cs) (c :: ds)
  | left {body cs ds : List Char} (hbody : Enclosed body) (hkept : kept body)
      (h : Filled kept cs ds) : Filled kept (written body ++ cs) (written body ++ ds)
  | replaced {body v cs ds : List Char} (hbody : Enclosed body) (hv : Solid v)
      (h : Filled kept cs ds) : Filled kept (written body ++ cs) (v ++ ds)

namespace Filled

variable {kept : List Char → Prop}

/-- A text that has been filled in begins with a brace only if the text from before does: with the
same brace, or with a token. -/
theorem cases_brace {c : Char} (h : Filled kept cs (c :: ds))
    (hc : c = openBrace ∨ c = closeBrace) :
    (∃ cs', cs = c :: cs' ∧ Filled kept cs' ds) ∨
      c = openBrace ∧ ∃ body rest, Enclosed body ∧ cs = written body ++ rest := by
  generalize hout : c :: ds = out at h
  cases h with
  | nil => cases hout
  | char hnone h =>
    cases hout
    exact .inl ⟨_, rfl, h⟩
  | left hbody hkept h => exact .inr ⟨(List.cons.inj hout).1, _, _, hbody, rfl⟩
  | replaced hbody hv h =>
    obtain ⟨d, v, rfl⟩ := List.exists_cons_of_ne_nil hv.nonempty
    obtain rfl := (List.cons.inj hout).1
    rcases hc with rfl | rfl
    · exact absurd List.mem_cons_self hv.noOpen
    · exact absurd List.mem_cons_self hv.noClose

/-- A text that has been filled in has two closing braces next to each other, and no other ones
before, only if this is so for the text from before. -/
theorem exists_closed {rest : List Char} (hbody : ∀ c ∈ body, inBody c = true)
    (h : Filled kept cs (body ++ closeBrace :: closeBrace :: rest)) :
    ∃ body' rest', (∀ c ∈ body', inBody c = true) ∧ (body ≠ [] → body' ≠ []) ∧
      cs = body' ++ closeBrace :: closeBrace :: rest' := by
  have htoken {b : List Char} (hb : Enclosed b) :
      ∀ c ∈ openBrace :: openBrace :: b, inBody c = true := by
    simpa [inBody, openBrace, closeBrace] using hb.inBody
  generalize hout : body ++ closeBrace :: closeBrace :: rest = out at h
  induction h generalizing body with
  | nil => simp at hout
  | left hb hkept h => exact ⟨_, _, htoken hb, fun _ => List.cons_ne_nil _ _, written_append _ _⟩
  | replaced hb hv h =>
    exact ⟨_, _, htoken hb, fun _ => List.cons_ne_nil _ _, written_append _ _⟩
  | @char c cs ds hnone h ih =>
    cases body with
    | nil =>
      obtain ⟨rfl, rfl⟩ := List.cons.inj hout
      rcases h.cases_brace (.inr rfl) with ⟨cs', rfl, -⟩ | ⟨hopen, -⟩
      · exact ⟨[], cs', by simp, id, rfl⟩
      · cases hopen
    | cons d body =>
      obtain ⟨rfl, hrest⟩ := List.cons.inj hout
      rw [List.forall_mem_cons] at hbody
      obtain ⟨body', rest', hin, -, rfl⟩ := ih hbody.2 hrest
      exact ⟨d :: body', rest', List.forall_mem_cons.mpr ⟨hbody.1, hin⟩,
        fun _ => List.cons_ne_nil _ _, rfl⟩

/-- No new token begins at a character that is copied. -/
theorem tokenAt?_eq_none {c : Char} (h : Filled kept cs ds) (hnone : tokenAt? (c :: cs) = none) :
    tokenAt? (c :: ds) = none := by
  have hnot {b rest : List Char} (hb : Enclosed b) : c :: cs ≠ written b ++ rest := fun heq => by
    cases hnone.symm.trans (tokenAt?_eq_some_iff.mpr ⟨hb, heq⟩)
  rw [Option.eq_none_iff_forall_ne_some]
  rintro ⟨body, rest⟩ hsome
  obtain ⟨hbody, heq⟩ := tokenAt?_eq_some_iff.mp hsome
  rw [written_append] at heq
  obtain ⟨rfl, rfl⟩ := List.cons.inj heq
  rcases h.cases_brace (.inl rfl) with ⟨cs', rfl, hinner⟩ | ⟨-, b, rest', hb, rfl⟩
  -- Both braces have been there, and so have the braces that close.
  · obtain ⟨body', rest', hin, hne, rfl⟩ := hinner.exists_closed hbody.inBody
    exact hnot ⟨hne hbody.nonempty, hin⟩ (written_append _ _).symm
  -- The second brace is the first one of a token, whose body may as well begin with it.
  · have henclosed : Enclosed (openBrace :: b) :=
      ⟨List.cons_ne_nil _ _, List.forall_mem_cons.mpr ⟨by decide, hb.inBody⟩⟩
    exact hnot henclosed (show _ = _ ++ rest' by simp [written])

/-- Each token of a text that has been filled in is one that has been left. -/
theorem kept_of_token (h : Filled kept cs ds) (hbody : .token body ∈ scan ds) : kept body := by
  induction h with
  | nil =>
    rw [scan_nil] at hbody
    cases hbody
  | char hnone h ih =>
    rw [scan_cons_of_none (h.tokenAt?_eq_none hnone), List.mem_cons] at hbody
    rcases hbody with heq | hbody
    · cases heq
    · exact ih hbody
  | left hb hkept h ih =>
    rw [scan_of_some (tokenAt?_eq_some_iff.mpr ⟨hb, rfl⟩), List.mem_cons] at hbody
    rcases hbody with heq | hbody
    · cases heq
      exact hkept
    · exact ih hbody
  | replaced hb hv h ih =>
    rw [scan_append_of_not_mem hv.noOpen, List.mem_append, List.mem_map] at hbody
    rcases hbody with ⟨c, -, heq⟩ | hbody
    · cases heq
    · exact ih hbody

end Filled

/-! ### Resolutions that are certain -/

/-- A resolution comes to a value, whatever it draws on. -/
def Always (m : ResolveM α) (a : α) : Prop := ∀ d, (m.run.run d).1 = .ok a

theorem always_pure (a : α) : Always (pure a) a := fun _ => rfl

theorem always_warn (event : String) (fields : Fields) : Always (warn event fields) () :=
  fun _ => rfl

theorem Always.bind {m : ResolveM α} {f : α → ResolveM β} {a : α} {b : β} (hm : Always m a)
    (hf : Always (f a) b) : Always (m >>= f) b := by
  intro d
  change ((ExceptT.bindCont f (m.run.run d).1).run (m.run.run d).2).1 = _
  rw [hm d]
  exact hf _

/-- A token of this name comes to a fixed value or stays: it is reserved, a static variable, a
declared variable of type static, or unknown. -/
inductive Plain (env : Environment) (name : String) : Prop
  | reserved {s : String} (h : env.context.reserved? name = some s)
  | static {s : String} (hname : Ordinary env name) (h : env.context.static? name = some s)
  | declared {v : Variable} (hname : Ordinary env name) (hstatic : env.context.static? name = none)
      (h : env.config.bind (·.findVariable name) = some v) (hv : v.type = .static)
  | unknown (h : Unknown env name)

section Tokens

variable {name : String} {declared : Variable → ResolveM String}

theorem Unknown.always (h : Unknown env name) : Always (tokenValue env declared name) none := by
  rw [(Source.unknown h).eq]
  exact (always_warn _ _).bind (always_pure _)

/-- What a plain token comes to is always the same. -/
theorem Plain.exists_always (h : Plain env name)
    (hdeclared : ∀ v : Variable, v.type = .static → Always (declared v) v.value) :
    ∃ found, Always (tokenValue env declared name) found := by
  cases h with
  | @reserved s h =>
    rw [(Source.reserved h).eq]
    exact ⟨some s, always_pure _⟩
  | @static s hname h =>
    rw [(Source.static hname h).eq]
    exact ⟨some s, always_pure _⟩
  | @declared v hname hstatic h hv =>
    rw [(Source.declared hname hstatic h).eq]
    exact ⟨some v.value, (hdeclared v hv).bind (always_pure _)⟩
  | unknown h => exact ⟨none, h.always⟩

/-- Pieces come to a fixed text when each token among them comes to a fixed value. -/
theorem exists_always_piecesValue {ps : List Piece}
    (h : ∀ body, .token body ∈ ps →
      ∃ found, Always (tokenValue env declared (tokenName body)) found) :
    ∃ cs, Always (piecesValue env declared ps) cs := by
  induction ps with
  | nil => exact ⟨[], always_pure _⟩
  | cons p ps ih =>
    obtain ⟨back, hback⟩ := ih fun body hbody => h body (List.mem_cons_of_mem _ hbody)
    have hpiece : ∃ front, Always (pieceValue env declared p) front := by
      cases p with
      | char c => exact ⟨[c], always_pure _⟩
      | token body =>
        obtain ⟨found, hfound⟩ := h body List.mem_cons_self
        cases found with
        | none => exact ⟨_, hfound.bind (always_pure _)⟩
        | some s => exact ⟨_, hfound.bind (always_pure _)⟩
    obtain ⟨front, hfront⟩ := hpiece
    exact ⟨front ++ back, hfront.bind (hback.bind (always_pure _))⟩

/-- Pieces stay as they are when nothing knows the tokens among them. -/
theorem always_piecesValue_of_unknown {ps : List Piece}
    (h : ∀ body, .token body ∈ ps → Unknown env (tokenName body)) :
    Always (piecesValue env declared ps) (ps.flatMap Piece.chars) := by
  induction ps with
  | nil => exact always_pure _
  | cons p ps ih =>
    have hback := ih fun body hbody => h body (List.mem_cons_of_mem _ hbody)
    have hfront : Always (pieceValue env declared p) p.chars := by
      cases p with
      | char c => exact always_pure _
      | token body => exact (h body List.mem_cons_self).always.bind (always_pure _)
    exact hfront.bind (hback.bind (always_pure _))

end Tokens

/-- A text whose tokens nothing knows stays as it is. -/
theorem always_resolveText_of_unknown {s : String}
    (h : ∀ body, .token body ∈ scan s.toList → Unknown env (tokenName body)) :
    Always (resolveText env s) s := by
  have hpieces : Always (piecesValue env (declaredValue env maxDepth) (scan s.toList)) _ :=
    always_piecesValue_of_unknown h
  rw [join_scan] at hpieces
  have hs : Always (pure (String.ofList s.toList) : ResolveM String) s := by
    rw [String.ofList_toList]
    exact always_pure s
  exact hpieces.bind hs

/-! ### What a text becomes -/

/-- What a text becomes is the text filled in, when all values that take the place of its tokens are
without braces. -/
theorem filled_of_turns {inner : String → String → Prop} {cs out : List Char}
    (hsolid : ∀ body v, .token body ∈ scan cs → Known env inner (tokenName body) v → Solid v.toList)
    (h : Turns env inner (scan cs) out) :
    Filled (fun body => Unknown env (tokenName body)) cs out := by
  induction cs using scan.induct generalizing out with
  | case1 cs body rest hsome hlt ih =>
    rw [scan_of_some hsome] at hsolid h
    obtain ⟨hbody, rfl⟩ := tokenAt?_eq_some_iff.mp hsome
    cases h with
    | cons hpiece hrest =>
      have hfilled := ih (fun b v hb => hsolid b v (List.mem_cons_of_mem _ hb)) hrest
      cases hpiece with
      | known hknown => exact .replaced hbody (hsolid body _ List.mem_cons_self hknown) hfilled
      | unknown hunknown => exact .left hbody hunknown hfilled
  | case2 hnone =>
    rw [scan_nil] at h
    cases h
    exact .nil
  | case3 c rest hnone ih =>
    rw [scan_cons_of_none hnone] at hsolid h
    cases h with
    | cons hpiece hrest =>
      cases hpiece
      exact .char hnone (ih (fun b v hb => hsolid b v (List.mem_cons_of_mem _ hb)) hrest)

/-- **Resolving once more.** Let all values that take the place of tokens of a text be neither empty
nor have braces. Then what the text becomes resolves to itself, whatever is drawn. And when all its
tokens are plain, the text does come to something, and always to the same. -/
theorem resolved_resolves_to_itself (env : Environment) (s : String)
    (hsolid : ∀ body v, .token body ∈ scan s.toList → Known env (Within env 9) (tokenName body) v →
      Solid v.toList) :
    (∀ s', Gives (resolveText env s) s' → Always (resolveText env s') s') ∧
    ((∀ body, .token body ∈ scan s.toList → Plain env (tokenName body)) →
      ∃ s', Always (resolveText env s) s' ∧ Always (resolveText env s') s') := by
  have hstays (s' : String) (h : Gives (resolveText env s) s') :
      Always (resolveText env s') s' := by
    obtain ⟨cs, hturns, rfl⟩ := within_of_gives h
    have hfilled := filled_of_turns hsolid hturns
    apply always_resolveText_of_unknown
    rw [String.toList_ofList]
    exact fun body hbody => hfilled.kept_of_token hbody
  refine ⟨hstays, fun hplain => ?_⟩
  have hdeclared (v : Variable) (hv : v.type = .static) :
      Always (declaredValue env maxDepth v) v.value := by
    unfold declaredValue
    rw [hv]
    exact always_pure _
  obtain ⟨cs, hcs⟩ :=
    exists_always_piecesValue fun body hbody => (hplain body hbody).exists_always hdeclared
  have halways : Always (resolveText env s) (String.ofList cs) := hcs.bind (always_pure _)
  exact ⟨_, halways, hstays _ ⟨{}, _, Prod.ext (halways {}) rfl⟩⟩

/-- An environment with one static variable, and with nothing declared. -/
def oneStatic : Environment :=
  { bareEnvironment with context := { staticVars := [("a", "one")] } }

/-- A text with braces that belong to no token, a token for this variable, and one that nothing
knows. -/
def strayBraces : String :=
  "\x7d\x7b\x7b \x7d\x7b\x7ba\x7d\x7d\x7d\x7b\x7bb\x7d\x7d\x7b"

theorem mem_scan_strayBraces {body : List Char} (h : .token body ∈ scan strayBraces.toList) :
    body = ['a'] ∨ body = ['b'] := by
  have hscan : scan strayBraces.toList =
      [.char '\x7d', .char '\x7b', .char '\x7b', .char ' ', .char '\x7d', .token ['a'],
        .char '\x7d', .token ['b'], .char '\x7b'] := by decide +kernel
  rw [hscan] at h
  simpa using h

/-- An ordinary name stands for what it is found as. -/
theorem Known.eq_of_static {inner : String → String → Prop} {name v w : String}
    (h : Known env inner name v) (hname : Ordinary env name)
    (hw : env.context.static? name = some w) : v = w := by
  cases h with
  | reserved h => cases hname.reserved.symm.trans h
  | runtime h => exact absurd h (hname.runtime _)
  | nowhere h => exact absurd h (hname.runtime _)
  | sample h => exact absurd h (hname.faker _)
  | generated h => exact absurd h (hname.function _)
  | static _ h => exact Option.some.inj (h.symm.trans hw)
  | declared _ hnone => cases hnone.symm.trans hw

theorem Unknown.not_known {inner : String → String → Prop} {name v : String}
    (h : Unknown env name) : ¬ Known env inner name v := by
  intro hknown
  cases hknown with
  | reserved hv => cases h.reserved.symm.trans hv
  | runtime hv => exact h.runtime _ hv
  | nowhere hv => exact h.runtime _ hv
  | sample hv => exact h.faker _ hv
  | generated hv => exact h.function _ hv
  | static _ hv => cases h.static.symm.trans hv
  | declared _ _ hv => cases h.declared.symm.trans hv

/-- Such a text comes to the same, resolved once and resolved twice. -/
theorem strayBraces_resolves_to_itself :
    (∀ body v, .token body ∈ scan strayBraces.toList →
      Known oneStatic (Within oneStatic 9) (tokenName body) v → Solid v.toList) ∧
    (∀ body, .token body ∈ scan strayBraces.toList → Plain oneStatic (tokenName body)) ∧
    ∃ s', Always (resolveText oneStatic strayBraces) s' ∧ Always (resolveText oneStatic s') s' := by
  have ha : Ordinary oneStatic (tokenName ['a']) := ordinary_of_none rfl rfl rfl rfl
  have hb : Unknown oneStatic (tokenName ['b']) :=
    { toOrdinary := ordinary_of_none rfl rfl rfl rfl, static := rfl, declared := rfl }
  have hsolid : ∀ body v, .token body ∈ scan strayBraces.toList →
      Known oneStatic (Within oneStatic 9) (tokenName body) v → Solid v.toList := by
    intro body v hbody hv
    rcases mem_scan_strayBraces hbody with rfl | rfl
    · obtain rfl : v = "one" := hv.eq_of_static ha rfl
      exact ⟨by decide, by decide, by decide⟩
    · exact absurd hv hb.not_known
  have hplain : ∀ body, .token body ∈ scan strayBraces.toList →
      Plain oneStatic (tokenName body) := by
    intro body hbody
    rcases mem_scan_strayBraces hbody with rfl | rfl
    · exact .static (s := "one") ha rfl
    · exact .unknown hb
  exact ⟨hsolid, hplain, (resolved_resolves_to_itself oneStatic strayBraces hsolid).2 hplain⟩

/-- An empty value is another matter: a new token can come of what was on both sides of it. -/
example :
    let env := { oneStatic with context := { staticVars := [("a", "one"), ("e", "")] } }
    ((resolveText env "\x7b\x7ba\x7d\x7b\x7be\x7d\x7d\x7d").run.run {}).1.toOption =
      some "\x7b\x7ba\x7d\x7d" ∧
    ((resolveText env "\x7b\x7ba\x7d\x7d").run.run {}).1.toOption = some "one" := by
  decide +kernel

end Runbook.Template
