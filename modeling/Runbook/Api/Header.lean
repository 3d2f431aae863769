import Runbook.Text.Lowercase

/-!
# Request headers

The headers of a request are kept in the order in which they were given. Names are compared
without regard to case. `redact` is what telemetry gets to see: every name, and no credential.
-/

namespace Runbook

/-- Headers, in order. -/
abbrev Headers := List (String × String)

namespace Headers

/-- Names of headers that carry credentials, in lower case. -/
def sensitive : List String := ["authorization", "proxy-authorization", "x-api-key", "cookie"]

/-- What stands in the place of a credential. -/
def redacted : String := "[REDACTED]"

/-- Whether a header of this name carries a credential; `extra` names one more that does. -/
def isSensitive (extra : Option String) (name : String) : Bool :=
  let low := Text.lower name
  sensitive.contains low || extra.any fun e => !e.isEmpty && Text.lower e == low

/-- The headers with every credential masked. -/
def redact (extra : Option String) (headers : Headers) : Headers :=
  headers.map fun h => (h.1, if isSensitive extra h.1 then redacted else h.2)

/-- Whether a header is present under exactly this name. -/
def has (headers : Headers) (name : String) : Bool := headers.any fun h => h.1 == name

/-- Whether a header is present under this name in any case; `lowName` is in lower case. -/
def hasFolded (headers : Headers) (lowName : String) : Bool :=
  headers.any fun h => Text.lower h.1 == lowName

/-- Sets the header of exactly this name: in place when it is present, at the end otherwise. -/
def set (headers : Headers) (name value : String) : Headers :=
  match headers with
  | [] => [(name, value)]
  | h :: rest => if h.1 == name then (name, value) :: rest else h :: set rest name value

/-- Sets a header in the place of all headers of this name in any case; `lowName` is in lower
case. -/
def setFolded (headers : Headers) (lowName value : String) : Headers :=
  headers.filter (fun h => Text.lower h.1 != lowName) ++ [(lowName, value)]

/-- Redaction keeps every name. -/
theorem map_fst_redact (extra : Option String) (headers : Headers) :
    (redact extra headers).map Prod.fst = headers.map Prod.fst := by
  simp [redact, Function.comp_def]

end Headers

end Runbook
