import Runbook.Error
import Runbook.Text.Quoted

/-!
# Files and directories

A file system without symbolic links is a table of paths, each of a file or of a directory. A path
is the list of its segments from the root; the root is always a directory. Writing a file makes the
directories above it; a directory is never taken away. There is room for everything, and a name may
have any length.
-/

namespace Runbook

/-- A path from the root. -/
abbrev Path := List String

/-- The text of a path. -/
def Path.text (p : Path) : String := "/" ++ "/".intercalate p

/-- What is at a path. -/
inductive Entry where
  | file (data : List UInt8)
  | directory
  deriving DecidableEq, Repr

/-- Files and directories. -/
structure FileSystem where
  entries : List (Path × Entry) := []

namespace FileSystem

/-- What is at a path. -/
def at? (fs : FileSystem) (p : Path) : Option Entry :=
  if p.isEmpty then some .directory else fs.entries.lookup p

/-- The content of the file at a path. -/
def file? (fs : FileSystem) (p : Path) : Option (List UInt8) :=
  match fs.at? p with
  | some (.file data) => some data
  | _ => none

/-- Whether there is a file at a path. -/
def isFile (fs : FileSystem) (p : Path) : Bool := (fs.file? p).isSome

/-- Whether there is a directory at a path. -/
def isDirectory (fs : FileSystem) (p : Path) : Bool := fs.at? p = some .directory

/-- The files with their paths. -/
def files (fs : FileSystem) : List (Path × List UInt8) :=
  fs.entries.filterMap fun (p, e) =>
    match e with
    | .file data => some (p, data)
    | .directory => none

/-- Puts an entry in the place of the one at its path, or at the end. -/
def putEntry (p : Path) (e : Entry) : List (Path × Entry) → List (Path × Entry)
  | [] => [(p, e)]
  | (q, f) :: rest => if q = p then (p, e) :: rest else (q, f) :: putEntry p e rest

/-- Puts something at a path. -/
def put (fs : FileSystem) (p : Path) (e : Entry) : FileSystem :=
  { entries := putEntry p e fs.entries }

/-- Makes a directory, unless something is there. -/
def makeDirectory (fs : FileSystem) (p : Path) : FileSystem :=
  if (fs.at? p).isSome then fs else fs.put p .directory

/-- The paths that lead to a path, from the root on, and the path itself. -/
def leadingTo (p : Path) : List Path := (List.range (p.length + 1)).map p.take

/-- Makes a directory and all those above it. -/
def makeDirectories (fs : FileSystem) (p : Path) : FileSystem :=
  (leadingTo p).foldl makeDirectory fs

/-- Why a directory cannot be made: it, or one above it, is a file. -/
def obstacle? (fs : FileSystem) (p : Path) : Option Fault :=
  if fs.isFile p then
    some ⟨.fileExists, "[Errno 17] File exists: " ++ Text.quoted p.text⟩
  else if (leadingTo p).any fs.isFile then
    some ⟨.notDirectory, "[Errno 20] Not a directory: " ++ Text.quoted p.text⟩
  else none

/-- Makes a directory and all those above it, unless a file is in the way. -/
def ensureDirectory (fs : FileSystem) (p : Path) : Except Fault FileSystem :=
  match fs.obstacle? p with
  | some f => .error f
  | none => .ok (fs.makeDirectories p)

/-- Writes a file, and makes the directories above it. -/
def write (fs : FileSystem) (p : Path) (data : List UInt8) : Except Fault FileSystem := do
  let fs ← fs.ensureDirectory p.dropLast
  if fs.isDirectory p then
    throw ⟨.isDirectory, "[Errno 21] Is a directory: " ++ Text.quoted p.text⟩
  return fs.put p (.file data)

/-- Removes the file at a path, if there is one. -/
def removeFile (fs : FileSystem) (p : Path) : FileSystem :=
  if fs.isFile p then { entries := fs.entries.filter fun e => e.1 ≠ p } else fs

end FileSystem

end Runbook
