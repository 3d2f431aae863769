import Runbook.Page.Launcher
import Runbook.Rehearsal.Page

/-!
# Scripted browsers

Browser software that notes what is asked of it. Each of some named requests fails the first time
that it is made. Every context has a page with the same script.
-/

namespace Runbook.Rehearsal

/-- Scripted browser software. -/
structure Browser where
  script : PageScript := {}
  /-- What was asked. -/
  calls : List Json := []
  /-- Requests that will fail once. -/
  failing : List String := []
  /-- How often it was started. -/
  starts : Nat := 0
  /-- The browser that can be reached. -/
  connected : Option Nat := none
  /-- The pages of the contexts, the first context being number one. -/
  pages : List Page := []
  /-- Whether the browsers that were launched could be seen or not. -/
  headless : List Bool := []
  log : List LogRecord := []

namespace Browser

/-- Notes a request, and lets it fail if it has to. -/
def attempt (name : String) (details : List Json) : StateM Browser (Except Fault Unit) := do
  modify fun b => { b with calls := b.calls ++ [.list (.text name :: details)] }
  if (← get).failing.contains name then
    modify fun b => { b with failing := b.failing.erase name }
    return .error (.failure s!"{name} failed")
  else return .ok ()

/-- Acts on the page of a context. -/
def onPage {α : Type} (context : Nat) (missing : α) (f : Page → α × Page) : StateM Browser α :=
  fun b =>
    match b.pages[context - 1]? with
    | some p =>
      let (a, p) := f p
      (a, { b with pages := b.pages.set (context - 1) p })
    | none => (missing, b)

def start : StateM Browser (Except Fault Nat) := do
  modify fun b => { b with starts := b.starts + 1 }
  match ← attempt "start" [] with
  | .error f => return .error f
  | .ok () => return .ok (← get).starts

/-- A browser is told by the number of launches so far. -/
def launch (headless : Bool) (arguments : List String) : StateM Browser (Except Fault Nat) := do
  modify fun b => { b with headless := b.headless ++ [headless] }
  match ← attempt "launch" [.bool headless, .list (arguments.map .text)] with
  | .error f => return .error f
  | .ok () =>
    modify fun b => { b with connected := some b.headless.length }
    return .ok (← get).headless.length

def newContext (options : Fields) : StateM Browser (Except Fault Nat) := do
  match ← attempt "new_context" [.object options] with
  | .error f => return .error f
  | .ok () =>
    modify fun b => { b with pages := b.pages ++ [({ script := b.script } : Page)] }
    return .ok (← get).pages.length

def setTimeout (context : Nat) (timeout : Json) : StateM Browser (Except Fault Unit) := do
  let answer ← onPage context (.ok .null) fun p =>
    p.request (.onPage .setDefaultTimeout [("timeout", timeout)])
  return answer.map fun _ => ()

/-- The scripted software as a driver. -/
def driver : Launcher.Driver Browser where
  start := start
  launch _ := launch
  isConnected n := return (← get).connected = some n
  newContext _ := newContext
  newPage n := attempt "new_page" [.nat n]
  setTimeout := setTimeout
  closeContext n := attempt "context_close" [.nat n]
  closeBrowser _ := attempt "browser_close" []
  stop _ := attempt "stop" []
  log r := modify fun b => { b with log := b.log ++ [r] }

end Browser

/-- Something done to a launcher. -/
inductive LauncherStep where
  | openSession (loopIndex : Int)
  /-- The use of the page of a loop index ends. -/
  | closeSession (loopIndex : Int) (ended : Except Failure Unit := .ok ())
  /-- The browser loses its connection. -/
  | disconnect
  | shutdown

/-- What a step does: the requests to a page that was opened, and those to the browser software. -/
structure LauncherScene where
  result : Except Failure (List Json)
  calls : List Json

/-- A session that is open: its context, and what is left to do when its use has ended. -/
structure OpenSession where
  context : Nat
  rest : Except Failure Unit → Launcher.Work (Except Failure Unit)

/-- A launcher in use, and its open sessions. -/
structure LauncherStage where
  launcher : Launcher
  browser : Browser := {}
  sessions : List (Int × OpenSession) := []

namespace LauncherStage

/-- Lets the launcher work. -/
def work {α : Type} (m : Launcher.Work α) (s : LauncherStage) :
    Launcher.Progress α × LauncherStage :=
  let ((a, parts), browser) := ((m.advance Browser.driver).run s.launcher.parts).run s.browser
  (a, { s with launcher := { s.launcher with parts }, browser })

/-- Carries out a step. How the use of a page ended is not reported again. -/
def carryOut (s : LauncherStage) : LauncherStep → Except Failure (List Json) × LauncherStage
  | .openSession i =>
    match s.work (Launcher.session s.launcher.options i) with
    | (.inUse context rest, s) =>
      let calls := (s.browser.pages[context - 1]?).elim [] Page.calls
      (.ok calls, { s with sessions := (i, { context, rest }) :: s.sessions })
    | (.ended outcome, s) => (outcome.map fun _ => [], s)
  | .closeSession i ended =>
    match s.sessions.lookup i with
    | some session =>
      let s := (s.work (session.rest ended)).2
      (.ok [], { s with sessions := s.sessions.filter fun x => x.1 != i })
    | none => (.ok [], s)
  | .disconnect => (.ok [], { s with browser := { s.browser with connected := none } })
  | .shutdown => (.ok [], (s.work Launcher.shutdown).2)

/-- Carries out a step, and shows what was asked of the browser software. -/
def play (s : LauncherStage) (step : LauncherStep) : LauncherScene × LauncherStage :=
  let (result, s) := s.carryOut step
  ({ result, calls := s.browser.calls }, { s with browser := { s.browser with calls := [] } })

/-- Carries out steps one after another. -/
def playAll : LauncherStage → List LauncherStep → List LauncherScene × LauncherStage
  | s, [] => ([], s)
  | s, step :: rest =>
    let (scene, s) := s.play step
    let (scenes, s) := playAll s rest
    (scene :: scenes, s)

end LauncherStage

end Runbook.Rehearsal
