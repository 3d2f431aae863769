import Runbook.Json.Basic
import Runbook.Number.Layout
import Runbook.Text.Quoted

/-!
# Documents in messages

How a document is shown to a person. At the top a text shows as it is; inside a list or an object
it is quoted. Null shows as `None` and the truth values as `True` and `False`; lists and objects
are written with a blank after each comma and colon.
-/

namespace Runbook.Json

open Runbook.Text

/-- A truth value in a message. -/
def boolWord (b : Bool) : String := if b then "True" else "False"

mutual

/-- A document as it shows inside another one. -/
def inspect : Json → String
  | .null => "None"
  | .bool b => boolWord b
  | .int i => toString i
  | .float x => x.toText
  | .text s => quoted s
  | .list items => "[" ++ inspectList items ++ "]"
  | .object fields => "\x7b" ++ inspectFields fields ++ "\x7d"
  | .foreign _ inside _ => inside

def inspectList : List Json → String
  | [] => ""
  | [x] => inspect x
  | x :: rest => inspect x ++ ", " ++ inspectList rest

def inspectFields : List (String × Json) → String
  | [] => ""
  | [(k, x)] => quoted k ++ ": " ++ inspect x
  | (k, x) :: rest => quoted k ++ ": " ++ inspect x ++ ", " ++ inspectFields rest

end

/-- A document as it shows on its own. -/
def display : Json → String
  | .text s => s
  | .foreign _ _ alone => alone
  | x => inspect x

end Runbook.Json
