import Runbook.Text.Printable
import Runbook.Text.Hex

/-!
# Quoted text

A text quoted for a message. It stands between single quotes unless it contains a single quote and
no double quote. The quote in use and the backslash are escaped, as are all characters that are not
printable: a line feed, carriage return and tab by a letter, the others by their code point in two,
four or eight hexadecimal digits.
-/

namespace Runbook.Text

/-- One character inside quotes. -/
def quotedChar (quote c : Char) : List Char :=
  if c == quote || c == '\\' then ['\\', c]
  else if c == '\n' then ['\\', 'n']
  else if c == '\r' then ['\\', 'r']
  else if c == '\t' then ['\\', 't']
  else if isPrintable c then [c]
  else if c.toNat < 0x100 then '\\' :: 'x' :: hexChars 2 c.toNat
  else if c.toNat < 0x10000 then '\\' :: 'u' :: hexChars 4 c.toNat
  else '\\' :: 'U' :: hexChars 8 c.toNat

/-- The single quote. -/
def singleQuote : Char := Char.ofNat 0x27

/-- The quote that a text is put between. -/
def quoteFor (cs : List Char) : Char :=
  if cs.contains singleQuote && !cs.contains '"' then '"' else singleQuote

/-- A text between quotes. -/
def quoted (s : String) : String :=
  let q := quoteFor s.toList
  String.ofList (q :: s.toList.flatMap (quotedChar q) ++ [q])

example : quoted "it's" = "\"it's\"" := by decide +kernel
example : quoted "a\x00\n" = "'a\\x00\\n'" := by decide +kernel

end Runbook.Text
