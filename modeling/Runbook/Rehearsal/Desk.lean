import Runbook.Definition.File
import Runbook.Rehearsal.Browser
import Runbook.Rehearsal.World
import Runbook.Run.Store
import Runbook.Storage.LocalDirectory

/-!
# A desk

A desk has files, stores of run records in files, a storage directory and scripted browser software.
Runs at a desk leave their traces in its files.
-/

namespace Runbook.Rehearsal

/-- A desk. -/
structure Desk where
  files : FileSystem := {}
  /-- The stores, each in a file. -/
  stores : List (Path × RunStore) := []
  browser : Browser := {}
  launcher : Launcher := {}
  /-- The open sessions, told by the loop index. -/
  sessions : List (Int × OpenSession) := []
  /-- The storage directory of the run. -/
  storage : Path := []
  /-- The file of the run's store. -/
  store : Path := []
  world : World

namespace Desk

/-- Lets the scripted world act. -/
def inWorld {α : Type} (m : StateM World α) : StateM Desk α := fun d =>
  let (a, world) := m.run d.world
  (a, { d with world })

/-- Lets the launcher work. -/
def launcherDo {α : Type} (m : Launcher.Work α) : StateM Desk (Launcher.Progress α) := fun d =>
  let ((a, parts), browser) := ((m.advance Browser.driver).run d.launcher.parts).run d.browser
  (a, { d with launcher := { d.launcher with parts }, browser })

/-- Acts on the page of a loop index. -/
def onPage {α : Type} (i : Int) (f : Page → Except Fault α × Page) :
    StateM Desk (Except Fault α) := fun d =>
  match d.sessions.lookup i with
  | some session =>
    let (a, browser) := (Browser.onPage session.context (.error World.noPage) f).run d.browser
    (a, { d with browser })
  | none => (.error World.noPage, d)

/-- A failure as that of a collaborator. -/
def asFault : Failure → Fault
  | .fault f => f
  | f => .failure f.text

def openSession (i : Nat) : StateM Desk (Except Fault Unit) := do
  match ← launcherDo (Launcher.session (← get).launcher.options i) with
  | .inUse context rest =>
    modify fun d => { d with sessions := ((i : Int), { context, rest }) :: d.sessions }
    return .ok ()
  | .ended outcome => return outcome.mapError asFault

/-- The use of the page of a loop index ends; how it did is known to the run. -/
def closeSession (i : Nat) : StateM Desk Unit := do
  if let some session := (← get).sessions.lookup (i : Int) then
    let _ ← launcherDo (session.rest (.ok ()))
    modify fun d => { d with sessions := d.sessions.filter fun s => s.1 != (i : Int) }

def upload (key : String) (data : List UInt8) : StateM Desk (Except Fault String) := fun d =>
  match LocalDirectory.upload d.storage key data d.files with
  | .ok (url, files) => (.ok url, { d with files })
  | .error f => (.error f, d)

def delete (key : String) : StateM Desk (Except Fault Unit) := fun d =>
  match LocalDirectory.delete d.storage key d.files with
  | .ok files => (.ok (), { d with files })
  | .error f => (.error f, d)

/-- Puts a store in the place of the one in its file, or at the end. -/
def putStore (p : Path) (s : RunStore) : List (Path × RunStore) → List (Path × RunStore)
  | [] => [(p, s)]
  | (q, t) :: rest => if q = p then (p, s) :: rest else (q, t) :: putStore p s rest

/-- The store of the run. -/
def currentStore (d : Desk) : RunStore := (d.stores.lookup d.store).getD {}

/-- Changes the store of the run. -/
def withStore (f : RunStore → Except Failure RunStore) :
    StateM Desk (Except Fault Unit) := fun d =>
  match f d.currentStore with
  | .ok s => (.ok (), { d with stores := putStore d.store s d.stores })
  | .error e => (.error (.failure e.text), d)

/-- Opens the store in a file, which is made if need be. -/
def openStore (p : Path) : StateM Desk (Except Fault Unit) := fun d =>
  let files := if d.files.isFile p then .ok d.files else d.files.write p []
  match files with
  | .error f => (.error f, d)
  | .ok files =>
    let d := { d with files, store := p }
    (.ok (), { d with stores := putStore p d.currentStore.opened d.stores })

/-- Closes the store of the run. -/
def closeStore : StateM Desk Unit := modify fun d =>
  { d with stores := putStore d.store d.currentStore.closed d.stores }

/-- The collaborators of a run at a desk. -/
def collaborators : Collaborators Desk where
  page i c := onPage i fun p => p.request c
  screenshot i options := onPage i fun p => p.screenshot options
  upload key data _ := upload key data
  delete := delete
  list beginning := fun d => (.ok (LocalDirectory.list d.storage beginning d.files), d)
  request r := inWorld (World.request r)
  observe entry := inWorld (World.collaborators.observe entry)
  openSession := openSession
  closeSession := closeSession
  save r := withStore (RunStore.save r)
  progress runId s _ := withStore (RunStore.writeProgress runId s.logs s.outputFiles)
  notify _ _ := return .ok ()
  log r := inWorld (World.writeLog r)

end Desk

end Runbook.Rehearsal
