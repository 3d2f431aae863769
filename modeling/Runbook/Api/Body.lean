import Runbook.Error
import Runbook.Json.Reader
import Runbook.Json.Writer
import Runbook.Text.Utf8

/-!
# Bodies of requests and responses

A text is sent as it is, anything else as JSON text, and nothing for null and for the empty text.
A response is read as JSON in UTF-8; a byte order mark may stand at its front.
-/

namespace Runbook.Api

/-- The bytes that are sent for a body. -/
def encodeBody : Json → Except Fault (Option (List UInt8))
  | .null => .ok none
  | .text s => .ok (if s.isEmpty then none else some (Text.utf8 s))
  | x =>
    match x.foreignType? with
    | some type => .error (.unwritable type)
    | none => .ok (some (Text.utf8 (x.write .spaced)))

/-- The document that a body is, if it is one. -/
def readBody (body : List UInt8) : Option Json :=
  (Text.decodeUtf8? body).bind fun cs =>
    let cs := if cs.head? == some (Char.ofNat 0xfeff) then cs.drop 1 else cs
    (Json.read (String.ofList cs)).toOption

end Runbook.Api
