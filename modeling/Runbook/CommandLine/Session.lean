import Runbook.Action.Catalogue
import Runbook.CommandLine.Command
import Runbook.Rehearsal.Desk
import Runbook.Rehearsal.Sample
import Runbook.Run.Whole
import Runbook.Schedule.State
import Runbook.Text.Utf8

/-!
# Carrying out commands

A command is carried out at a desk: it may read and leave files there, and it prints lines. Where a
command does not say which files to use, the environment does. A command that is refused, and one
that cannot be carried out, ends with an error line; a run that was not completed ends with the exit
code one.
-/

namespace Runbook.CommandLine

open Runbook.Rehearsal Runbook.Schedule

/-- Where a command is given. -/
structure Environment where
  settings : List (String × String) := []
  /-- The working directory. -/
  directory : Path := []
  /-- The time in milliseconds since 1970. -/
  now : Rat
  /-- The identifier of a run that is given none. -/
  freshId : String := ""

/-- What a command leaves behind, apart from files. -/
structure Outcome where
  exit : Nat := 0
  output : List String := []
  errors : List String := []
  deriving DecidableEq, Repr

namespace Environment

/-- What is found at a path. -/
def look (env : Environment) (files : FileSystem) (path : String) : Command.Found :=
  if path.isEmpty then .nothing
  else
    match files.at? (LocalDirectory.resolve env.directory path) with
    | some (.file _) => .file
    | some .directory => .directory
    | none => .nothing

/-- The path that an option gives, else the environment, else a default. -/
def path (env : Environment) (given : Option String) (name default : String) : Path :=
  let text := match given.filter fun s => !s.isEmpty with
    | some s => s
    | none => (env.settings.lookup name).getD default
  LocalDirectory.resolve env.directory text

/-- The file of the store. -/
def store (env : Environment) (given : Option String) : Path :=
  env.path given "AUTORUNNER_DB_PATH" "./data/runs.db"

/-- The storage directory. -/
def storage (env : Environment) (given : Option String) : Path :=
  env.path given "AUTORUNNER_STORAGE_DIR" "./data/output"

/-- Whether browsers are to be invisible. -/
def isHeadless (env : Environment) (headed : Bool) : Bool :=
  !headed
    && Text.lower ((env.settings.lookup "AUTORUNNER_HEADLESS").getD "true") != "false"

end Environment

/-- The outcome of something that cannot be carried out. -/
def refused : Failure → Outcome
  | .error e => { exit := 1, errors := [s!"error: {e.message}"] }
  | e => { exit := 1, errors := [e.text] }

/-- The lines about a run that has ended. -/
def report (r : RunRecord) : Outcome :=
  { exit := if r.status = .completed then 0 else 1
    output := s!"run {r.id}: {r.status.word}" :: r.outputFiles.map fun f => s!"  output: {f}"
    errors := if r.errorMessage.isEmpty then [] else [s!"  error: {r.errorMessage}"] }

/-- The line about a run in a list. -/
def listLine (r : RunRecord) : String :=
  let status := r.status.word.pushn ' ' (9 - r.status.word.length)
  let started := match r.startTime with
    | some t => t.toText
    | none => "-"
  s!"{r.id}  {status}  {started}  logs={r.logs.length} " ++
    s!"files={r.outputFiles.length}  {r.errorMessage}"

/-- The content of a file as a text. -/
def contentOf (files : FileSystem) (p : Path) : Option String :=
  (files.file? p).map fun data => String.ofList (Text.decodeUtf8 data)

/-- Runs an automation at a desk whose store is open. -/
def perform (env : Environment) (automation : Automation) (runId : String) (headless : Bool)
    (storage : Path) (d : Desk) : Outcome × Desk :=
  let d := { d with storage, sessions := [], launcher := { options := { headless } } }
  let runner : Runner := { registry := Catalogue.registry, data := sampleData }
  let record : RunRecord := { id := runId, automationId := automation.id }
  let s := State.runMain Desk.collaborators (Whole.loopProgram runner automation runId)
    { clock := env.now, outside := d } (Whole.run runner automation record)
  let ended := (s.main.result?).getD ⟨record, some .interrupted⟩
  let finish : StateM Desk Unit := do
    let _ ← Desk.launcherDo Launcher.shutdown
    Desk.closeStore
  let (_, d) := finish.run s.shared.outside
  match ended.raised with
  | none | some (.error _) => (report (ended.record.withSnapshot s.shared.flushed), d)
  | some e => (refused e, d)

/-- Runs a definition. -/
def runDefinition (env : Environment) (definition runId : String) (headless : Bool)
    (store storage : Path) (d : Desk) : Outcome × Desk :=
  let content := contentOf d.files (LocalDirectory.resolve env.directory definition)
  match Definition.load definition content with
  | .error e => (refused e, d)
  | .ok automation =>
    match (Desk.openStore store).run d with
    | (.error f, d) => (refused (.fault f), d)
    | (.ok (), d) => perform env automation runId headless storage d

/-- Lists runs. -/
def listRuns (automationId : String) (store : Path) (limit : Int) (d : Desk) : Outcome × Desk :=
  match (Desk.openStore store).run d with
  | (.error f, d) => (refused (.fault f), d)
  | (.ok (), d) =>
    let outcome := match d.currentStore.list automationId limit with
      | .ok runs => { output := runs.map listLine }
      | .error e => refused e
    (outcome, (Desk.closeStore.run d).2)

/-- Carries out a command. -/
def execute (env : Environment) : Command → Desk → Outcome × Desk
  | .run definition runId headed store storage, d =>
    runDefinition env definition ((runId.filter fun s => !s.isEmpty).getD env.freshId)
      (env.isHeadless headed) (env.store store) (env.storage storage) d
  | .actions, d => ({ output := Catalogue.registry.types }, d)
  | .runs automationId store limit, d => listRuns automationId (env.store store) limit d
  | .help, d => ({}, d)

/-- Carries out a command line. -/
def answer (env : Environment) (line : List String) (d : Desk) : Outcome × Desk :=
  match Command.read (env.look d.files) line with
  | .ok command => execute env command d
  | .error .empty => ({ exit := 2 }, d)
  | .error e => ({ exit := 2, errors := [s!"Error: {e.message}"] }, d)

end Runbook.CommandLine
