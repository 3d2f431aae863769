import Runbook.Api.Header
import Runbook.Api.Url
import Runbook.Error
import Runbook.Number.Binary64
import Runbook.Text.Hex

/-!
# Requests and responses

What is sent to a server, and what comes back: a response, a failure of the transport, or any other
failure of the client. Header text has to be ASCII; `Headers.unencodable?` finds the first text
that is not, and words the refusal.
-/

namespace Runbook.Api

/-- A request. -/
structure Request where
  method : String
  url : Url
  headers : Headers
  body : List UInt8
  /-- The time limit in seconds. -/
  timeout : Binary64

/-- A response. -/
structure Response where
  status : Nat
  body : List UInt8

/-- Why there is no response. -/
inductive NoResponse where
  /-- The transport failed. -/
  | transport (text : String)
  | other (f : Fault)

/-- The name of a status, empty when it has none. -/
def reasonPhrase : Nat → String
  | 100 => "Continue"
  | 101 => "Switching Protocols"
  | 102 => "Processing"
  | 103 => "Early Hints"
  | 200 => "OK"
  | 201 => "Created"
  | 202 => "Accepted"
  | 203 => "Non-Authoritative Information"
  | 204 => "No Content"
  | 205 => "Reset Content"
  | 206 => "Partial Content"
  | 207 => "Multi-Status"
  | 208 => "Already Reported"
  | 226 => "IM Used"
  | 300 => "Multiple Choices"
  | 301 => "Moved Permanently"
  | 302 => "Found"
  | 303 => "See Other"
  | 304 => "Not Modified"
  | 305 => "Use Proxy"
  | 307 => "Temporary Redirect"
  | 308 => "Permanent Redirect"
  | 400 => "Bad Request"
  | 401 => "Unauthorized"
  | 402 => "Payment Required"
  | 403 => "Forbidden"
  | 404 => "Not Found"
  | 405 => "Method Not Allowed"
  | 406 => "Not Acceptable"
  | 407 => "Proxy Authentication Required"
  | 408 => "Request Timeout"
  | 409 => "Conflict"
  | 410 => "Gone"
  | 411 => "Length Required"
  | 412 => "Precondition Failed"
  | 413 => "Request Entity Too Large"
  | 414 => "Request-URI Too Long"
  | 415 => "Unsupported Media Type"
  | 416 => "Requested Range Not Satisfiable"
  | 417 => "Expectation Failed"
  | 418 => "I'm a teapot"
  | 421 => "Misdirected Request"
  | 422 => "Unprocessable Entity"
  | 423 => "Locked"
  | 424 => "Failed Dependency"
  | 425 => "Too Early"
  | 426 => "Upgrade Required"
  | 428 => "Precondition Required"
  | 429 => "Too Many Requests"
  | 431 => "Request Header Fields Too Large"
  | 451 => "Unavailable For Legal Reasons"
  | 500 => "Internal Server Error"
  | 501 => "Not Implemented"
  | 502 => "Bad Gateway"
  | 503 => "Service Unavailable"
  | 504 => "Gateway Timeout"
  | 505 => "HTTP Version Not Supported"
  | 506 => "Variant Also Negotiates"
  | 507 => "Insufficient Storage"
  | 508 => "Loop Detected"
  | 510 => "Not Extended"
  | 511 => "Network Authentication Required"
  | _ => ""

/-- Whether a character is beyond ASCII. -/
def beyondAscii (c : Char) : Bool := 0x80 ≤ c.toNat

/-- A character beyond ASCII as an escape. -/
def escaped (c : Char) : String :=
  let n := c.toNat
  if n < 0x100 then "\\x" ++ Text.hex 2 n
  else if n < 0x10000 then "\\u" ++ Text.hex 4 n
  else "\\U" ++ Text.hex 8 n

/-- Why a text cannot be written in ASCII: its first run of other characters and their place. -/
def unencodable? (s : String) : Option Fault :=
  let front := s.toList.takeWhile fun c => !beyondAscii c
  let run := (s.toList.drop front.length).takeWhile beyondAscii
  let start := front.length
  match run with
  | [] => none
  | [c] => some ⟨.badValue, "'ascii' codec can't encode character '" ++ escaped c
      ++ s!"' in position {start}: ordinal not in range(128)"⟩
  | _ => some ⟨.badValue, "'ascii' codec can't encode characters in position "
      ++ s!"{start}-{start + run.length - 1}: ordinal not in range(128)"⟩

/-- Why headers cannot be sent: the first text in them that is not ASCII. -/
def Headers.unencodable? (headers : Headers) : Option Fault :=
  headers.findSome? fun h => (Api.unencodable? h.1).orElse fun _ => Api.unencodable? h.2

end Runbook.Api
