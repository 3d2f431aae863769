import Runbook.Rehearsal.Page
import Runbook.Schedule.Collaborators
import Runbook.Text.Utf8

/-!
# Rehearsals

Collaborators that answer from a script and note everything: pages, a storage in memory, a server
with prepared responses, a store, notifications and the log. A rehearsal shows what a run does to
the world outside without there being one.
-/

namespace Runbook.Rehearsal

/-- A storage service. -/
inductive Storage where
  /-- Files in memory, with their content types as far as they are known. -/
  | files (entries : List (String × List UInt8 × Option String))
  /-- A service that is down. -/
  | failing

/-- A prepared response. -/
structure Prepared where
  status : Nat := 200
  body : List UInt8 := []
  /-- Why there is none. -/
  refusal : Option Api.NoResponse := none

/-- The response of a server that has none prepared. -/
def Prepared.usual : Prepared := { body := Text.utf8 "\x7b\"ok\":true\x7d" }

/-- The world of a rehearsal. -/
structure World where
  /-- The time at which it begins, in milliseconds since 1970. -/
  epoch : Rat
  script : PageScript := {}
  /-- The pages in the order in which they were opened, each with its loop index. -/
  pages : List (Int × Page) := []
  storage : Storage := .files []
  /-- The responses still to come; the last one stays. -/
  prepared : List Prepared := []
  requests : List Json := []
  observations : List Json := []
  log : List LogRecord := []
  /-- The loop indices for which no session can be opened. -/
  noSession : Nat → Bool := fun _ => false
  sessions : List (String × Nat) := []
  /-- Why records cannot be saved. -/
  saveFault : Option Fault := none
  /-- Why progress cannot be written. -/
  progressFault : Option Fault := none
  saved : List (String × String) := []
  progress : List (String × Nat × Nat × Rat) := []
  /-- Whether notifications are sent. -/
  notifies : Bool := true
  notifyFault : Option Fault := none
  sent : List (String × NotificationMessage) := []

namespace World

/-! ### Pages -/

/-- Changes the first page from a list that belongs to a loop index. -/
def onPageOf {α : Type} (i : Int) (missing : α) (f : Page → α × Page) :
    List (Int × Page) → α × List (Int × Page)
  | [] => (missing, [])
  | (j, p) :: rest =>
    if j == i then
      let (a, p) := f p
      (a, (j, p) :: rest)
    else
      let (a, rest) := onPageOf i missing f rest
      (a, (j, p) :: rest)

/-- Acts on the page of a loop index, the one that was opened last. -/
def withPage {α : Type} (i : Int) (missing : α) (f : Page → α × Page) : StateM World α := fun w =>
  let (a, pages) := onPageOf i missing f w.pages.reverse
  (a, { w with pages := pages.reverse })

/-- The failure when there is no page. -/
def noPage : Fault := .failure "no page"

def openSession (i : Nat) : StateM World (Except Fault Unit) := do
  let w ← get
  if w.noSession i then return .error (.failure "chromium missing")
  else
    set { w with
      sessions := w.sessions ++ [("open", i)]
      pages := w.pages ++ [((i : Int), ({ script := w.script } : Page))] }
    return .ok ()

def closeSession (i : Nat) : StateM World Unit :=
  modify fun w => { w with sessions := w.sessions ++ [("close", i)] }

/-! ### Storage -/

/-- The failure of a service that is down. -/
def storageDown : Fault := .failure "storage down"

/-- Puts a file in the place of the one under its key, or at the end. -/
def putFile (key : String) (file : List UInt8 × Option String) :
    List (String × List UInt8 × Option String) → List (String × List UInt8 × Option String)
  | [] => [(key, file)]
  | (k, f) :: rest => if k == key then (key, file) :: rest else (k, f) :: putFile key file rest

def upload (key : String) (data : List UInt8) (contentType : String) :
    StateM World (Except Fault String) := do
  let w ← get
  match w.storage with
  | .failing => return .error storageDown
  | .files entries =>
    set { w with storage := .files (putFile key (data, some contentType) entries) }
    return .ok ("mem://" ++ key)

def delete (key : String) : StateM World (Except Fault Unit) := do
  let w ← get
  match w.storage with
  | .failing => return .error storageDown
  | .files entries =>
    set { w with storage := .files (entries.filter fun e => e.1 != key) }
    return .ok ()

def list (beginning : String) : StateM World (Except Fault (List String)) := do
  match (← get).storage with
  | .failing => return .error storageDown
  | .files entries =>
    let keys := (entries.map Prod.fst).filter fun k => beginning.toList.isPrefixOf k.toList
    return .ok (keys.mergeSort fun a b => a ≤ b)

/-! ### Servers -/

/-- Headers that a client adds by itself. -/
def ownHeaders : List String :=
  ["host", "accept-encoding", "connection", "user-agent", "content-length"]

/-- Whether a header is noted. -/
def isNoted (h : String × String) : Bool :=
  !ownHeaders.contains h.1 && !(h.1 == "accept" && h.2 == "*/*")

/-- Headers as they are noted: names in lower case, in order. -/
def notedHeaders (headers : Headers) : List (String × String) :=
  let lowered := headers.map fun h => (String.ofList (h.1.toList.map Char.toLower), h.2)
  (lowered.filter isNoted).mergeSort fun a b => a.1 < b.1 || (a.1 == b.1 && a.2 ≤ b.2)

/-- A request as it is noted. -/
def notedRequest (r : Api.Request) : Json := .object [
  ("method", .text r.method), ("url", .text r.url.text),
  ("headers", .list ((notedHeaders r.headers).map fun h => .list [.text h.1, .text h.2])),
  ("body", .object [("$hex", .text (Text.hexBytes r.body))]),
  ("timeout", .float r.timeout)]

def request (r : Api.Request) : StateM World (Except Api.NoResponse Api.Response) := do
  let w ← get
  let (prepared, rest) := match w.prepared with
    | [] => (Prepared.usual, [])
    | [p] => (p, [p])
    | p :: rest => (p, rest)
  set { w with prepared := rest, requests := w.requests ++ [notedRequest r] }
  match prepared.refusal with
  | some e => return .error e
  | none => return .ok { status := prepared.status, body := prepared.body }

/-! ### Store, notifications and log -/

def save (r : RunRecord) : StateM World (Except Fault Unit) := do
  let w ← get
  match w.saveFault with
  | some f => return .error f
  | none =>
    set { w with saved := w.saved ++ [(r.id, r.status.word)] }
    return .ok ()

def writeProgress (runId : String) (s : Snapshot) (now : Rat) :
    StateM World (Except Fault Unit) := do
  let w ← get
  match w.progressFault with
  | some f => return .error f
  | none =>
    set { w with
      progress := w.progress ++ [(runId, s.logs.length, s.outputFiles.length, now - w.epoch)] }
    return .ok ()

def notify (m : NotificationMessage) (channels : List Channel) :
    StateM World (Except Fault Unit) := do
  let w ← get
  if !w.notifies then return .ok ()
  match w.notifyFault with
  | some f => return .error f
  | none =>
    set { w with sent := w.sent ++ (m.channelsFor channels).map fun (c : Channel) => (c.id, m) }
    return .ok ()

/-- Whether a log record is kept: warnings, errors, and what actions write. -/
def isKept (r : LogRecord) : Bool :=
  r.level = .warning || r.level = .error || r.event == "automation_log"

def writeLog (r : LogRecord) : StateM World Unit :=
  if isKept r then modify fun w => { w with log := w.log ++ [r] } else pure ()

/-- The collaborators of a rehearsal. -/
def collaborators : Collaborators World where
  page i c := withPage i (.error noPage) fun p => p.request c
  screenshot i options := withPage i (.error noPage) fun p => p.screenshot options
  upload := upload
  delete := delete
  list := list
  request := request
  observe entry := modify fun w => { w with observations := w.observations ++ [entry] }
  openSession := openSession
  closeSession := closeSession
  save := save
  progress := writeProgress
  notify := notify
  log := writeLog

end World

end Runbook.Rehearsal
