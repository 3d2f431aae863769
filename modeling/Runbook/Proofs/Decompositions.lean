import Runbook.Proofs.Rescanning

/-!
# The tokens of a template and the text between them

A template is cut into gaps and tokens, which take turns: a gap, a token, a gap and so on, with a
gap at the end. Gaps may be empty. There are many ways to cut a template into such parts. The one
that counts takes each token as early as it can: in no gap is there a place at which a token begins,
with what follows the gap taken into account. Of this kind there is exactly one, whatever braces
there are in the template.

To resolve the template is to put the values of the tokens between the gaps, in their order. The
tokens are those of the template, before there is any value in it: braces of a value are not looked
at, be they on their own or next to those of a gap.

* `Template.Begins cs`: a token begins at the front of the text `cs`.
* `Template.TokenFree gap rest`: no token begins inside of `gap` when `rest` follows.
* `Template.Decomposition`: gaps and tokens, and the text that they make up.
* `Template.Decomposition.Leftmost`: each token is taken as early as it can be.
* `Template.Decomposition.fill`: the values of the tokens between the gaps.
* `Template.exists_unique_leftmost_and_fill`: a template has one such decomposition, and resolves to
  what fills it.
-/

namespace Runbook.Template

open Text

variable {cs gap rest : List Char} {c : Char}

/-! ### Where tokens begin -/

/-- A token begins at the front of a text. -/
def Begins (cs : List Char) : Prop :=
  ∃ body rest, Enclosed body ∧ cs = written body ++ rest

theorem tokenAt?_eq_none_iff : tokenAt? cs = none ↔ ¬ Begins cs := by
  rw [Option.eq_none_iff_forall_ne_some, Prod.forall]
  simp only [ne_eq, tokenAt?_eq_some_iff, Begins, not_exists]

/-- A token begins with two opening braces. -/
theorem Begins.exists_eq (h : Begins cs) : ∃ ds, cs = openBrace :: openBrace :: ds := by
  obtain ⟨body, rest, -, rfl⟩ := h
  exact ⟨_, written_append body rest⟩

/-- No token begins at a character of `gap`, when `rest` follows. -/
def TokenFree (gap rest : List Char) : Prop :=
  ∀ front back, gap = front ++ back → back ≠ [] → ¬ Begins (back ++ rest)

theorem tokenFree_nil (rest : List Char) : TokenFree [] rest := by
  intro front back h hne
  exact absurd (List.append_eq_nil_iff.mp h.symm).2 hne

theorem tokenFree_cons :
    TokenFree (c :: gap) rest ↔ ¬ Begins (c :: (gap ++ rest)) ∧ TokenFree gap rest := by
  constructor
  · intro h
    refine ⟨h [] _ rfl (List.cons_ne_nil _ _), fun front back hgap => ?_⟩
    exact h (c :: front) back (by rw [hgap]; rfl)
  · rintro ⟨hfirst, hgap⟩ front back h hne
    cases front with
    | nil => exact (List.nil_append back ▸ h) ▸ hfirst
    | cons d front => exact hgap front back (List.cons.inj h).2 hne

/-- A text without two opening braces side by side has no token. -/
theorem tokenFree_of_not_infix (h : ¬ [openBrace, openBrace] <:+: cs) : TokenFree cs [] := by
  rintro front back rfl - hbegins
  rw [List.append_nil] at hbegins
  obtain ⟨ds, rfl⟩ := hbegins.exists_eq
  exact h ⟨front, ds, by simp⟩

/-- The characters of a gap are copied. -/
theorem scan_append_of_tokenFree (h : TokenFree gap rest) :
    scan (gap ++ rest) = gap.map .char ++ scan rest := by
  induction gap with
  | nil => rfl
  | cons c gap ih =>
    obtain ⟨hfirst, hgap⟩ := tokenFree_cons.mp h
    rw [List.cons_append, scan_cons_of_none (tokenAt?_eq_none_iff.mpr hfirst), ih hgap]
    rfl

/-! ### Decompositions -/

/-- A text cut into tokens and the gaps around them. -/
inductive Decomposition where
  /-- What stands behind all tokens. -/
  | last (gap : List Char)
  /-- What stands before a token, the body of the token, and what follows it. -/
  | token (gap body : List Char) (rest : Decomposition)

namespace Decomposition

/-- The text that is cut. -/
def chars : Decomposition → List Char
  | last gap => gap
  | token gap body rest => gap ++ (written body ++ rest.chars)

/-- Each token is taken as early as it can be. -/
def Leftmost : Decomposition → Prop
  | last gap => TokenFree gap []
  | token gap body rest =>
    TokenFree gap (written body ++ rest.chars) ∧ Enclosed body ∧ rest.Leftmost

/-- The gaps as they are, and between them the values of the tokens, or the tokens themselves where
nothing knows them. -/
def fill (env : Environment) (declared : Variable → ResolveM String) :
    Decomposition → ResolveM (List Char)
  | last gap => return gap
  | token gap body rest => do
    let value ← tokenValue env declared (tokenName body)
    let back ← rest.fill env declared
    return gap ++ (value.elim (written body) String.toList ++ back)

/-- The pieces of a decomposition. -/
def pieces : Decomposition → List Piece
  | last gap => gap.map .char
  | token gap body rest => gap.map .char ++ .token body :: rest.pieces

/-- One more character at the front. -/
def cons (c : Char) : Decomposition → Decomposition
  | last gap => last (c :: gap)
  | token gap body rest => token (c :: gap) body rest

/-- The decomposition that has these pieces. -/
def ofPieces : List Piece → Decomposition
  | [] => last []
  | .char c :: ps => (ofPieces ps).cons c
  | .token body :: ps => token [] body (ofPieces ps)

variable {d : Decomposition}

theorem chars_cons (c : Char) (d : Decomposition) : (d.cons c).chars = c :: d.chars := by
  cases d <;> rfl

theorem leftmost_cons : (d.cons c).Leftmost ↔ ¬ Begins (c :: d.chars) ∧ d.Leftmost := by
  cases d with
  | last gap =>
    have hcons : TokenFree (c :: gap) [] ↔ _ := tokenFree_cons
    simpa [cons, Leftmost, chars] using hcons
  | token gap body rest => simp [cons, Leftmost, chars, tokenFree_cons, and_assoc]

theorem ofPieces_map_char (gap : List Char) : ofPieces (gap.map .char) = last gap := by
  induction gap with
  | nil => rfl
  | cons c gap ih => exact congrArg (cons c) ih

theorem ofPieces_append_token (gap body : List Char) (ps : List Piece) :
    ofPieces (gap.map .char ++ .token body :: ps) = token gap body (ofPieces ps) := by
  induction gap with
  | nil => rfl
  | cons c gap ih => exact congrArg (cons c) ih

/-- A decomposition is given by its pieces. -/
theorem ofPieces_pieces (d : Decomposition) : ofPieces d.pieces = d := by
  induction d with
  | last gap => exact ofPieces_map_char gap
  | token gap body rest ih => rw [pieces, ofPieces_append_token, ih]

/-- Cutting a text finds its decomposition. -/
theorem scan_chars (h : d.Leftmost) : scan d.chars = d.pieces := by
  induction d with
  | last gap =>
    have hscan := scan_append_of_tokenFree h
    rwa [List.append_nil, scan_nil, List.append_nil] at hscan
  | token gap body rest ih =>
    obtain ⟨hgap, hbody, hrest⟩ := h
    rw [chars, pieces, scan_append_of_tokenFree hgap,
      scan_of_some (tokenAt?_eq_some_iff.mpr ⟨hbody, rfl⟩), ih hrest]

/-- The pieces of a text give a decomposition of it. -/
theorem chars_ofPieces_scan (cs : List Char) :
    (ofPieces (scan cs)).chars = cs ∧ (ofPieces (scan cs)).Leftmost := by
  induction cs using scan.induct with
  | case1 cs body rest hsome hlt ih =>
    obtain ⟨hbody, rfl⟩ := tokenAt?_eq_some_iff.mp hsome
    rw [scan_of_some hsome]
    refine ⟨by simp [ofPieces, chars, ih.1], ?_, hbody, ih.2⟩
    exact tokenFree_nil _
  | case2 hnone =>
    rw [scan_nil]
    exact ⟨rfl, tokenFree_nil _⟩
  | case3 c rest hnone ih =>
    rw [scan_cons_of_none hnone, ofPieces, chars_cons, leftmost_cons, ih.1]
    exact ⟨rfl, tokenAt?_eq_none_iff.mp hnone, ih.2⟩

/-- No two decompositions of a text both take each token as early as possible. -/
theorem eq_ofPieces_scan (h : d.Leftmost) : d = ofPieces (scan d.chars) := by
  rw [scan_chars h, ofPieces_pieces]

/-! ### Values between the gaps -/

variable (env : Environment) (declared : Variable → ResolveM String)

theorem piecesValue_append (gap : List Char) (ps : List Piece) :
    piecesValue env declared (gap.map .char ++ ps) =
      (gap ++ ·) <$> piecesValue env declared ps := by
  induction gap with
  | nil => simp
  | cons c gap ih => simp [piecesValue, pieceValue, ih]

/-- What the pieces become is what fills the decomposition. -/
theorem piecesValue_pieces (d : Decomposition) :
    piecesValue env declared d.pieces = d.fill env declared := by
  induction d with
  | last gap => simpa [pieces, piecesValue, fill] using piecesValue_append env declared gap []
  | token gap body rest ih =>
    rw [pieces, piecesValue_append, piecesValue, ih, fill]
    simp only [pieceValue, map_bind, bind_assoc]
    congr 1
    funext value
    cases value <;> simp [Option.elim]

end Decomposition

/-- A text resolves to what fills the decomposition that is found in it. -/
theorem textWith_eq_fill (env : Environment) (declared : Variable → ResolveM String) (s : String)
    {d : Decomposition} (hd : d.Leftmost) (hchars : d.chars = s.toList) :
    textWith env declared s = String.ofList <$> d.fill env declared := by
  rw [textWith, ← hchars, Decomposition.scan_chars hd, Decomposition.piecesValue_pieces]
  rfl

/-- **Tokens between gaps.** Each text has exactly one decomposition that takes each token as early
as it can. Whatever the text is resolved for, and however often a variable may still be reached
through another one, it resolves to the gaps as they are, with the values of the tokens between
them; nothing is drawn or logged but for these values, and where the value of a token cannot be
had, neither can that of the text. A text without two opening braces side by side is given back as
it is. -/
theorem exists_unique_leftmost_and_fill (s : String) :
    ∃ d : Decomposition, d.chars = s.toList ∧ d.Leftmost ∧
      (∀ d' : Decomposition, d'.chars = s.toList → d'.Leftmost → d' = d) ∧
      (∀ (env : Environment) (remaining : Nat),
        textWith env (declaredValue env remaining) s =
          String.ofList <$> d.fill env (declaredValue env remaining)) ∧
      (∀ env : Environment,
        resolveText env s = String.ofList <$> d.fill env (declaredValue env maxDepth)) ∧
      (¬ [openBrace, openBrace] <:+: s.toList → ∀ (env : Environment) (remaining : Nat),
        textWith env (declaredValue env remaining) s = pure s) := by
  obtain ⟨hchars, hleftmost⟩ := Decomposition.chars_ofPieces_scan s.toList
  refine ⟨_, hchars, hleftmost, fun d' hd' hleftmost' => ?_, fun env remaining => ?_,
    fun env => ?_, fun hs env remaining => ?_⟩
  · rw [Decomposition.eq_ofPieces_scan hleftmost', hd']
  · exact textWith_eq_fill env _ s hleftmost hchars
  · exact textWith_eq_fill env _ s hleftmost hchars
  · have hgap : (Decomposition.last s.toList).Leftmost := tokenFree_of_not_infix hs
    rw [textWith_eq_fill env _ s hgap rfl, Decomposition.fill, map_pure, String.ofList_toList]

/-- The braces of a value are left alone, also where they meet those of a gap. -/
example :
    let env := { bareEnvironment with
      context := { staticVars := [("a", "\x7b\x7bb\x7d\x7d"), ("b", "two"), ("c", "\x7b")] } }
    ((resolveText env "\x7b\x7ba\x7d\x7d \x7b\x7bc\x7d\x7d\x7bb\x7d\x7d").run.run {}).1.toOption =
      some "\x7b\x7bb\x7d\x7d \x7b\x7bb\x7d\x7d" := by
  decide +kernel

end Runbook.Template
