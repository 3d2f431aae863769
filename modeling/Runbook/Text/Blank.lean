/-!
# Blank characters

Two sets of white space are in use. `isSpace` is the White_Space property of the character
database. `isBlank` has the four information separators as well; trimming a text goes by `isBlank`,
the white space allowed around a numeral by `isSpace`.
-/

namespace Runbook.Text

/-- The White_Space property. -/
def isSpace (c : Char) : Bool :=
  let n := c.toNat
  (9 ≤ n && n ≤ 13) || n == 0x20 || n == 0x85 || n == 0xa0 || n == 0x1680
    || (0x2000 ≤ n && n ≤ 0x200a) || n == 0x2028 || n == 0x2029 || n == 0x202f || n == 0x205f
    || n == 0x3000

/-- White space, or one of the information separators U+001C to U+001F. -/
def isBlank (c : Char) : Bool :=
  isSpace c || (0x1c ≤ c.toNat && c.toNat ≤ 0x1f)

/-- Drops characters of a class from both ends of a list. -/
def trimBoth (p : Char → Bool) (cs : List Char) : List Char :=
  ((cs.dropWhile p).reverse.dropWhile p).reverse

/-- The text without the blanks at its two ends. -/
def trim (s : String) : String := String.ofList (trimBoth isBlank s.toList)

end Runbook.Text
