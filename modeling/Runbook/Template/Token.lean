/-!
# Tokens of a template

A token is two opening braces, a body without closing braces and at least one character long, and
two closing braces. A text is cut into tokens from the left: at each place where a token starts it
is taken whole, and everything else is copied character by character. `join_scan` says that cutting
loses nothing.
-/

namespace Runbook.Template

/-- A piece of a template: a character to copy, or the body of a token. -/
inductive Piece where
  | char (c : Char)
  | token (body : List Char)
  deriving DecidableEq, Repr

/-- Opening and closing brace. -/
def openBrace : Char := '\x7b'

def closeBrace : Char := '\x7d'

/-- Whether a character may stand in the body of a token. -/
def inBody (c : Char) : Bool := c != closeBrace

/-- The token at the front of a text: its body and what follows it. -/
def tokenAt? : List Char → Option (List Char × List Char)
  | '\x7b' :: '\x7b' :: cs =>
    match cs.takeWhile inBody, cs.dropWhile inBody with
    | c :: body, '\x7d' :: '\x7d' :: rest => some (c :: body, rest)
    | _, _ => none
  | _ => none

/-- A token as it is written. -/
def written (body : List Char) : List Char :=
  openBrace :: openBrace :: body ++ [closeBrace, closeBrace]

theorem eq_written_of_tokenAt? {cs body rest : List Char}
    (h : tokenAt? cs = some (body, rest)) : cs = written body ++ rest := by
  unfold tokenAt? at h
  split at h
  next ds =>
    split at h
    next c b r htake hdrop =>
      obtain ⟨rfl, rfl⟩ : c :: b = body ∧ r = rest := by simpa using h
      have := List.takeWhile_append_dropWhile (p := inBody) (l := ds)
      rw [htake, hdrop] at this
      simp only [written, openBrace, closeBrace]
      rw [← this]
      simp
    next => cases h
  next => cases h

theorem length_lt_of_tokenAt? {cs body rest : List Char}
    (h : tokenAt? cs = some (body, rest)) : rest.length < cs.length := by
  rw [eq_written_of_tokenAt? h]
  simp [written]
  omega

/-- Cuts a text into pieces. -/
def scan (cs : List Char) : List Piece :=
  match h : tokenAt? cs with
  | some (body, rest) =>
    have : rest.length < cs.length := length_lt_of_tokenAt? h
    .token body :: scan rest
  | none =>
    match cs with
    | [] => []
    | c :: rest => .char c :: scan rest
termination_by cs.length

/-- A piece as it is written. -/
def Piece.chars : Piece → List Char
  | .char c => [c]
  | .token body => written body

/-- The pieces of a text make up the text. -/
theorem join_scan (cs : List Char) : (scan cs).flatMap Piece.chars = cs := by
  induction hn : cs.length using Nat.strongRecOn generalizing cs with
  | ind n ih =>
    rw [scan]
    split
    next body rest h =>
      have hlt := length_lt_of_tokenAt? h
      rw [List.flatMap_cons, ih rest.length (hn ▸ hlt) rest rfl]
      exact (eq_written_of_tokenAt? h).symm
    next =>
      cases cs with
      | nil => rfl
      | cons c rest =>
        have hlt : rest.length < n := by simp only [List.length_cons] at hn; omega
        simp only [List.flatMap_cons, ih rest.length hlt rest rfl, Piece.chars]
        rfl

end Runbook.Template
