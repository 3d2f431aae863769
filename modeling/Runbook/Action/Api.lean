import Runbook.Action.Browser
import Runbook.Api.Body
import Runbook.Api.Exchange
import Runbook.Text.Base64
import Runbook.Text.Utf8

/-!
# Requests to servers

An API action sends one request and reports the exchange. Its report never carries a credential:
the headers in it are those that the definition gives, with credentials masked, before the
credentials that the action adds. After a successful exchange, hooks copy values from the JSON body
of the response into runtime variables.
-/

namespace Runbook.Api

/-- How many characters of a response are reported. -/
def maxReportedBody : Nat := 10000

/-- The time limit of a request in milliseconds, unless stated otherwise. -/
def defaultTimeoutMs : Int := 30000

def hookModel : Kind :=
  .model "AfterHook" false [
    .required "path" (.text 1), .required "save_as" (.text 1),
    .withDefault "scope" (.choice ["local", "global"]) (.text "local")]

def authModel : Kind :=
  .model "AuthConfig" false [
    .required "type" (.choice ["bearer", "basic", "api_key", "custom"]),
    .withDefault "token" (.text 0) (.text ""),
    .optional "username" (.text 0),
    .optional "password" (.text 0),
    .withDefault "header" (.text 0) (.text "X-API-Key")]

def schema : Kind :=
  Browser.model "ApiSchema" [
    Browser.filled "url",
    .withDefault "headers" (.dictionary (.text 0)) (.object []),
    .optional "body" .any,
    .withDefault "timeout" (.integer (some 1) none) (.int defaultTimeoutMs),
    .optional "auth" authModel,
    .withDefault "after_hooks" (.list 0 hookModel) (.list [])]

/-- How a request proves who sends it. -/
structure Auth where
  type : String
  token : String
  username : Option String
  password : Option String
  header : String

/-- The authentication that the parameters ask for. -/
def authOf (params : Fields) : Option Auth :=
  match Browser.param params "auth" with
  | .object f => some {
      type := Fields.textAt f "type"
      token := Fields.textAt f "token"
      username := Fields.text? f "username"
      password := Fields.text? f "password"
      header := Fields.textAt f "header" }
  | _ => none

/-- The headers that the parameters give. -/
def headersOf (params : Fields) : Headers :=
  (Fields.objectAt params "headers").map fun f => (f.1, (f.2.text?).getD "")

/-- A text in Base64. -/
def inBase64 (s : String) : String := String.ofList (Base64.encode (Text.utf8 s))

/-- The credentials of basic authentication. -/
def basicCredentials (auth : Auth) : String :=
  match auth.username with
  | some user => inBase64 (user ++ ":" ++ auth.password.getD "")
  | none => auth.token

/-- A runtime variable, when it says something. -/
def captured? (runtimeVars : Fields) (name : String) : Option String :=
  ((Fields.get? runtimeVars name).filter Json.truthy).map Json.display

/-- The headers with credentials: those that were asked for, or else those that an earlier action
captured. -/
def addCredentials (auth : Option Auth) (runtimeVars : Fields) (headers : Headers) : Headers :=
  match auth with
  | some auth =>
    match auth.type with
    | "bearer" => headers.set "Authorization" ("Bearer " ++ auth.token)
    | "basic" => headers.set "Authorization" ("Basic " ++ basicCredentials auth)
    | "api_key" =>
      headers.set (if auth.header.isEmpty then "X-API-Key" else auth.header) auth.token
    | _ => headers.set "Authorization" auth.token
  | none =>
    match captured? runtimeVars "access_token", captured? runtimeVars "api_key" with
    | some token, key =>
      if !headers.has "Authorization" then headers.set "Authorization" ("Bearer " ++ token)
      else key.elim headers (addKey headers)
    | none, some key => addKey headers key
    | none, none => headers
where
  /-- Adds a captured key, unless there is one. -/
  addKey (headers : Headers) (key : String) : Headers :=
    if headers.has "X-API-Key" then headers else headers.set "X-API-Key" key

/-- The headers with the type of the body, unless they state it. -/
def addContentType (body : Option (List UInt8)) (headers : Headers) : Headers :=
  if body.isSome && !headers.hasFolded "content-type" then
    headers.set "Content-Type" "application/json"
  else headers

/-- The headers with the credentials that the address carries; these replace any others. -/
def addAddressCredentials (url : Url) (headers : Headers) : Headers :=
  match url.credentials? with
  | some text => headers.setFolded "authorization" ("Basic " ++ inBase64 text)
  | none => headers

/-- What is reported before anything is sent. -/
def firstReport (method url : String) (headers : Headers) : Fields := [
  ("url", .text url), ("method", .text method), ("status_code", .int 0),
  ("response_time_ms", .int 0),
  ("request_headers", .object (headers.map fun h => (h.1, .text h.2))),
  ("response_body", .text ""), ("extracted_vars", .object [])]

/-- Sets a field of the report. -/
def note (name : String) (value : Json) : Work Unit :=
  Work.report fun fields => Fields.set fields name value

/-- The seconds of a time limit. -/
def timeoutSeconds (ms : Int) : Except Fault Binary64 :=
  match Duration.seconds? ms with
  | some x => .ok x
  | none => .error ⟨.overflow, "integer division result too large for a float"⟩

/-- The request, unless it cannot be made up. -/
def requestOf (method url : String) (headers : Headers) (body : Option (List UInt8))
    (timeoutMs : Int) : Except Fault Request := do
  let timeout ← timeoutSeconds timeoutMs
  let url ← Url.target url
  match Headers.unencodable? headers with
  | some f => .error f
  | none => .ok {
      method, url, headers := addAddressCredentials url headers, body := body.getD [], timeout }

/-- What a response amounts to: one to a relative address cannot be placed. -/
def received (url : Url) : Except NoResponse Response → Except NoResponse Response
  | .ok response =>
    if url.isAbsolute then .ok response
    else .error (.other ⟨.badValue, "unknown url type: " ++ Text.quoted url.text⟩)
  | .error e => .error e

/-- Sends a request; notes how long it took, and why there was no response. -/
def send (type : String) (frame : Frame) (request : Except Fault Request) : Work Response := do
  let started ← Work.lift (Act.ask .now)
  let reply ← match request with
    | .error f => pure (.error (.other f))
    | .ok r => Work.lift (received r.url <$> Act.ask (.request r))
  if let .error (.transport text) := reply then note "error" (.text text)
  let ended ← Work.lift (Act.ask .now)
  note "response_time_ms" (.int (ActionKind.elapsed started ended))
  match reply with
  | .ok response => return response
  | .error (.other f) => throw (.fault f)
  | .error (.transport text) =>
    throw (.error (.action s!"HTTP request failed: {text}" (some frame.actionId) type))

/-- Copies values from a document into variables, as the hooks say. A hook whose path leads
nowhere is passed over with a warning. -/
def runHooks (data : Json) : List Json → Work Unit
  | [] => pure ()
  | hook :: rest => do
    let f := hook.fields
    let path := Fields.textAt f "path"
    let name := Fields.textAt f "save_as"
    match data.at? path with
    | .error e =>
      Work.lift (Act.log (.warning "after_hook_extract_failed"
        [("path", .text path), ("save_as", .text name), ("error", .text e.message)]))
    | .ok value =>
      Work.lift (Act.setRuntime name value (.ofWord (Fields.textAt f "scope")))
      Work.report fun fields => Fields.set fields "extracted_vars"
        (.object (Fields.set (Fields.objectAt fields "extracted_vars") name value))
    runHooks data rest

/-- Runs the hooks on the body of a response, if that is JSON. -/
def afterwards (frame : Frame) (url : String) (response : Response) (hooks : List Json) :
    Work Unit := do
  if hooks.isEmpty then return
  match readBody response.body with
  | some data => runHooks data hooks
  | none =>
    Work.lift (Act.log (.warning "api_response_not_json"
      [("url", .text url), ("action_id", .text frame.actionId)]))

/-- Reports a response from the address `sentTo`; unless it says that the request failed, runs the
hooks on it. -/
def answer (type method : String) (frame : Frame) (url sentTo : String) (response : Response)
    (hooks : List Json) : Work String := do
  note "status_code" (.nat response.status)
  note "response_body"
    (.text (String.ofList ((Text.decodeUtf8 response.body).take maxReportedBody)))
  if 400 ≤ response.status then
    note "error" (.text s!"HTTP {response.status}: {reasonPhrase response.status}")
    throw (.error (.action s!"HTTP request failed with status {response.status}"
      (some frame.actionId) type))
  afterwards frame sentTo response hooks
  return s!"Successfully executed {method} request to {url} (HTTP {response.status})"

/-- The work of an API action of a method. -/
def behave (type method : String) : Behaviour := fun _ _ frame params => do
  let url := Fields.textAt params "url"
  let body ← Work.lift (Act.ofExcept ((encodeBody (Browser.param params "body")).mapError .fault))
  let headers := addContentType body (headersOf params)
  let auth := authOf params
  let runtimeVars := (← getThe LoopState).runtimeVars
  Work.report fun _ => firstReport method url (Headers.redact (auth.map (·.header)) headers)
  let timeout := (Fields.int? params "timeout").getD defaultTimeoutMs
  let request := requestOf method url (addCredentials auth runtimeVars headers) body timeout
  let response ← send type frame request
  let sentTo := (request.map fun r => r.url.text).toOption.getD url
  answer type method frame url sentTo response (Fields.listAt params "after_hooks")

/-- The API action of a method. -/
def kind (type method : String) : ActionKind :=
  { type, schema
    present := fun report => if report.isEmpty then [] else [("api_response", .object report)]
    wrap := fun f _ =>
      (.action s!"{type} failed: {f.text}" none type, fun report =>
        if Fields.has report "error" then report else Fields.set report "error" (.text f.text))
    behave := behave type method }

/-- The API actions. -/
def kinds : List ActionKind := [
  kind "api:get" "GET", kind "api:post" "POST", kind "api:put" "PUT", kind "api:patch" "PATCH",
  kind "api:delete" "DELETE"]

end Runbook.Api
