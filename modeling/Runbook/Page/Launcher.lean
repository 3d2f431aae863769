import Runbook.Error
import Runbook.Log

/-!
# Browser sessions

A launcher starts a browser when the first session is opened and shares it among all sessions; each
session has a context and a page of its own. A browser that has lost its connection is replaced by a
new one. However a session ends once its context was created, the context is closed. When a context
cannot be closed, that is only logged. A task may be interrupted wherever it waits, and that is
never only logged.

What a session does is written as `Work`: a tree that ends in a value, or asks for something and
goes on with the reply. Sessions may be open side by side, and between a request and its reply any
other may go on. What they share, the browser software and the browser, is behind a lock.

Who works alone is never kept waiting: `Work.advance` carries out work with the help of a `Driver`,
which answers for the browser software and may keep a state of any type. It goes on to the end of
the work, or to where the page of a context is handed over to be used.
-/

namespace Runbook

namespace Launcher

/-- How a launcher starts browsers and sets up pages. -/
structure Options where
  headless : Bool := true
  width : Int := 1280
  height : Int := 720
  /-- The time limit of operations on a page in milliseconds, if there is one. -/
  timeout : Json := .int 30000

/-- The arguments with which a browser is launched. -/
def Options.arguments (o : Options) : List String := [
  "--disable-dev-shm-usage", "--no-sandbox", "--disable-setuid-sandbox", "--disable-extensions",
  "--disable-background-networking", "--no-first-run", "--mute-audio",
  s!"--window-size={o.width},{o.height}"]

/-- How a context is set up. -/
def Options.context (o : Options) : Fields := [
  ("viewport", .object [("width", .int o.width), ("height", .int o.height)]),
  ("ignore_https_errors", .bool true), ("locale", .text "en-US")]

/-- What is behind the lock of a launcher: the browser software that it has started, and the browser
that it has launched last. -/
structure Parts where
  software : Option Nat := none
  browser : Option Nat := none
  deriving DecidableEq, Repr

/-! ### Work -/

/-- What may be asked for. Browser software, browsers and contexts are told by their numbers. -/
inductive Request where
  /-- The lock; the reply is what is behind it, unless the task is interrupted while it waits. There
  is no other reply until the lock is free. -/
  | acquire
  /-- To give the lock back, with what is behind it from now on. -/
  | release (parts : Parts)
  | start
  | launch (software : Nat) (headless : Bool) (arguments : List String)
  /-- Whether a browser can still be reached. -/
  | isConnected (browser : Nat)
  | newContext (browser : Nat) (options : Fields)
  | newPage (context : Nat)
  | setTimeout (context : Nat) (timeout : Json)
  /-- To use the page of a context; the reply says how that ended. -/
  | use (context : Nat)
  | closeContext (context : Nat)
  | closeBrowser (browser : Nat)
  | stop (software : Nat)
  | log (r : LogRecord)

/-- What a request is answered with. -/
abbrev Request.Reply : Request → Type
  | .acquire => Option Parts
  | .start => Except Failure Nat
  | .launch _ _ _ => Except Failure Nat
  | .isConnected _ => Bool
  | .newContext _ _ => Except Failure Nat
  | .newPage _ => Except Failure Unit
  | .setTimeout _ _ => Except Failure Unit
  | .use _ => Except Failure Unit
  | .closeContext _ => Except Failure Unit
  | .closeBrowser _ => Except Failure Unit
  | .stop _ => Except Failure Unit
  | .release _ | .log _ => Unit

/-- Work that ends in a value of type `α`. -/
inductive Work (α : Type) where
  | done (a : α)
  | ask (q : Request) (k : q.Reply → Work α)

namespace Work

variable {α β : Type}

/-- One piece of work after another. -/
def bind : Work α → (α → Work β) → Work β
  | done a, f => f a
  | ask q k, f => ask q fun r => bind (k r) f

instance : Monad Work where
  pure := done
  bind := bind

theorem bind_done (w : Work α) : w.bind done = w := by
  induction w with
  | done a => rfl
  | ask q k ih => simp only [bind]; congr; funext r; exact ih r

theorem bind_bind {γ : Type} (w : Work α) (f : α → Work β) (g : β → Work γ) :
    (w.bind f).bind g = w.bind fun a => (f a).bind g := by
  induction w with
  | done a => rfl
  | ask q k ih => simp only [bind]; congr; funext r; exact ih r

instance : LawfulMonad Work :=
  LawfulMonad.mk' Work bind_done (fun _ _ => rfl) bind_bind

end Work

/-- Asks for something. -/
def request (q : Request) : Work q.Reply := .ask q .done

/-- Does something with what is behind the lock. -/
def guarded {α : Type} (m : StateT Parts Work (Except Failure α)) : Work (Except Failure α) := do
  match ← request .acquire with
  | none => return .error .interrupted
  | some parts =>
    let (a, parts) ← m.run parts
    request (.release parts)
    return a

/-- A failure is only logged, but not an interruption. -/
def onlyLogged (event : String) (fields : Fields) :
    Except Failure Unit → Work (Except Failure Unit)
  | .ok () => return .ok ()
  | .error .interrupted => return .error .interrupted
  | .error f => do
    request (.log (.error event (fields ++ [("error", .text f.text)])))
    return .ok ()

/-! ### Starting a browser -/

/-- The browser software; it is started unless it has been. -/
def ensureStarted : StateT Parts Work (Except Failure Nat) := do
  match (← get).software with
  | some n => return .ok n
  | none =>
    match ← request .start with
    | .error f => return .error f
    | .ok n =>
      modify fun parts => { parts with software := some n }
      return .ok n

/-- The browser, if it can be reached. -/
def reachable? : StateT Parts Work (Option Nat) := do
  match (← get).browser with
  | none => return none
  | some b => return if ← request (.isConnected b) then some b else none

/-- A browser that can be reached; it is launched unless there is one. -/
def ensureBrowser (o : Options) : StateT Parts Work (Except Failure Nat) := do
  match ← reachable? with
  | some b => return .ok b
  | none =>
    match ← ensureStarted with
    | .error f => return .error f
    | .ok n =>
      match ← request (.launch n o.headless o.arguments) with
      | .error f => return .error f
      | .ok b =>
        modify fun parts => { parts with browser := some b }
        return .ok b

/-! ### Sessions -/

/-- Sets the time limit of a page, if there is one. -/
def limitPage (context : Nat) : Json → Work (Except Failure Unit)
  | .null => return .ok ()
  | timeout => request (.setTimeout context timeout)

/-- Sets up the page of a context. -/
def preparePage (o : Options) (context : Nat) : Work (Except Failure Unit) := do
  match ← request (.newPage context) with
  | .error f => return .error f
  | .ok () => limitPage context o.timeout

/-- Sets up the page of a context and hands it over. -/
def usePage (o : Options) (context : Nat) : Work (Except Failure Unit) := do
  match ← preparePage o context with
  | .error f => return .error f
  | .ok () => request (.use context)

/-- Closes the context of a session. That it cannot be closed is only logged. -/
def closeContext (loopIndex : Int) (context : Nat) : Work (Except Failure Unit) := do
  onlyLogged "browser_session_close_error" [("loop_index", .int loopIndex)]
    (← request (.closeContext context))

/-- A session: a context with a page, which is used and then closed, however that ended. It ends as
the use of its page does. -/
def session (o : Options) (loopIndex : Int) : Work (Except Failure Unit) := do
  match ← guarded (ensureBrowser o) with
  | .error f => return .error f
  | .ok browser =>
    match ← request (.newContext browser o.context) with
    | .error f => return .error f
    | .ok context =>
      let outcome ← usePage o context
      match ← closeContext loopIndex context with
      | .error f => return .error f
      | .ok () => return outcome

/-! ### Shutting down -/

/-- Closes the browser, if there is one. -/
def closeBrowser : Option Nat → Work (Except Failure Unit)
  | some browser => request (.closeBrowser browser)
  | none => return .ok ()

/-- Closes the browser and then stops the browser software, as far as there are any; the first
failure ends it. -/
def closeParts (parts : Parts) : Work (Except Failure Unit) := do
  match ← closeBrowser parts.browser, parts.software with
  | .error f, _ => return .error f
  | .ok (), some n => request (.stop n)
  | .ok (), none => return .ok ()

/-- Gives up what was started. That it cannot be closed or stopped is only logged. -/
def shutdown : Work (Except Failure Unit) := guarded do
  let outcome ← onlyLogged "browser_shutdown_error" [] (← closeParts (← get))
  set ({} : Parts)
  return outcome

/-! ### Working alone -/

/-- The browser software, where nobody interrupts. -/
structure Driver (σ : Type) where
  start : StateM σ (Except Fault Nat)
  launch : Nat → Bool → List String → StateM σ (Except Fault Nat)
  isConnected : Nat → StateM σ Bool
  newContext : Nat → Fields → StateM σ (Except Fault Nat)
  newPage : Nat → StateM σ (Except Fault Unit)
  setTimeout : Nat → Json → StateM σ (Except Fault Unit)
  closeContext : Nat → StateM σ (Except Fault Unit)
  closeBrowser : Nat → StateM σ (Except Fault Unit)
  stop : Nat → StateM σ (Except Fault Unit)
  log : LogRecord → StateM σ Unit

/-- How far work has come. -/
inductive Progress (α : Type) where
  | ended (a : α)
  /-- The page of a context is being used. -/
  | inUse (context : Nat) (k : Except Failure Unit → Work α)

/-- Carries out work to its end, or to where a page is handed over. -/
def Work.advance {σ α : Type} (d : Driver σ) : Work α → StateT Parts (StateM σ) (Progress α)
  | .done a => return .ended a
  | .ask q k =>
    match q, k with
    | .use context, k => return .inUse context k
    | .acquire, k => do advance d (k (some (← get)))
    | .release parts, k => do
      set parts
      advance d (k ())
    | .start, k => do advance d (k ((← d.start).mapError .fault))
    | .launch software headless arguments, k => do
      advance d (k ((← d.launch software headless arguments).mapError .fault))
    | .isConnected browser, k => do advance d (k (← d.isConnected browser))
    | .newContext browser options, k => do
      advance d (k ((← d.newContext browser options).mapError .fault))
    | .newPage context, k => do advance d (k ((← d.newPage context).mapError .fault))
    | .setTimeout context timeout, k => do
      advance d (k ((← d.setTimeout context timeout).mapError .fault))
    | .closeContext context, k => do advance d (k ((← d.closeContext context).mapError .fault))
    | .closeBrowser browser, k => do advance d (k ((← d.closeBrowser browser).mapError .fault))
    | .stop software, k => do advance d (k ((← d.stop software).mapError .fault))
    | .log r, k => do advance d (k (← d.log r))

end Launcher

/-- A launcher: how it works, and what it has started. -/
structure Launcher where
  options : Launcher.Options := {}
  parts : Launcher.Parts := {}

end Runbook
