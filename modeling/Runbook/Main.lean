import Runbook.CommandLine.Session
import Runbook.Json.Reader
import Runbook.Json.Writer

/-!
# The program

The command line on the machine's own files. The files that a command may need are read first; then
the command is carried out at a desk; then the files that have changed are written. A store of run
records is kept as a JSON text in its file.
-/

open Runbook

namespace Runbook.Main

/-- The variables of the environment that matter. -/
def settingNames : List String :=
  ["AUTORUNNER_HEADLESS", "AUTORUNNER_DB_PATH", "AUTORUNNER_STORAGE_DIR"]

def readSettings : IO (List (String × String)) := do
  let found ← settingNames.mapM fun name => do return (← IO.getEnv name).map fun v => (name, v)
  return found.filterMap id

/-- The time in milliseconds since 1970, read off a file that has just been made. -/
def readClock : IO Rat := do
  let (_, path) ← IO.FS.createTempFile
  let t := (← path.metadata).modified
  IO.FS.removeFile path
  return (t.sec : Rat) * 1000 + ((t.nsec.toNat / 1000000 : Nat) : Rat)

/-- An identifier that has not been used. -/
def freshId : IO String := do
  let digits ← (List.range 32).mapM fun _ => IO.rand 0 15
  let part := fun (from_ count : Nat) =>
    String.ofList (((digits.drop from_).take count).map Text.hexDigit)
  return "-".intercalate [part 0 8, part 8 4, part 12 4, part 16 4, part 20 12]

/-- Adds what is at a path of the machine to a file system. -/
def load (fs : FileSystem) (p : Path) : IO FileSystem := do
  let path := (← IO.currentDir) / p.text
  if ← path.isDir then return fs.makeDirectories p
  else if ← path.pathExists then
    let data ← IO.FS.readBinFile path
    return (fs.makeDirectories p.dropLast).put p (.file data.toList)
  else return fs

/-- The files below a directory of the machine. -/
def below (p : Path) : IO (List Path) := do
  let path := (← IO.currentDir) / p.text
  if ← path.isDir then
    let found ← path.walkDir
    return found.toList.map fun q => LocalDirectory.resolve [] q.toString
  else return []

/-- Writes a file of a desk to the machine. -/
def writeBack (p : Path) (data : ByteArray) : IO Unit := do
  let path := (← IO.currentDir) / p.text
  if let some parent := path.parent then IO.FS.createDirAll parent
  IO.FS.writeBinFile path data

/-- The store in a file. -/
def storeOf (data : List UInt8) : RunStore :=
  match Json.read (String.ofList (Text.decodeUtf8 data)) with
  | .ok x => RunStore.ofDocument x
  | .error _ => {}

/-- Writes what a command has changed to the machine. -/
def save (before after : Rehearsal.Desk) : IO Unit := do
  for (p, data) in after.files.files do
    match after.stores.lookup p with
    | some s => writeBack p (Json.write .spaced s.toDocument).toUTF8
    | none => if before.files.file? p ≠ some data then writeBack p ⟨data.toArray⟩
  for (p, _) in before.files.files do
    if !after.files.isFile p then IO.FS.removeFile ((← IO.currentDir) / p.text)

/-- Carries out a command line on the machine. -/
def run (line : List String) : IO UInt32 := do
  let directory := LocalDirectory.resolve [] (← IO.currentDir).toString
  let env : CommandLine.Environment :=
    { settings := ← readSettings, directory, now := ← readClock, freshId := ← freshId }
  let resolved := fun (paths : List String) => paths.map (LocalDirectory.resolve directory)
  let values := line.map fun word => (Command.splitOption word).2.getD word
  let store := env.store ((line.zip (line.drop 1)).lookup "--db")
  let storage := env.storage ((line.zip (line.drop 1)).lookup "--storage-dir")
  let paths := directory :: store :: (resolved values ++ (← below storage))
  let files ← paths.foldlM load {}
  let stores := match files.file? store with
    | some data => [(store, storeOf data)]
    | none => []
  let desk : Rehearsal.Desk := { files, stores, world := { epoch := env.now } }
  let (outcome, after) := CommandLine.answer env line desk
  save desk after
  for text in outcome.output do IO.println text
  for text in outcome.errors do IO.eprintln text
  return outcome.exit.toUInt32

end Runbook.Main

/-- The program. -/
def main (line : List String) : IO UInt32 := Runbook.Main.run line
