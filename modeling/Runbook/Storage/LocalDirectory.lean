import Runbook.Storage.FileSystem
import Runbook.Text.Split

/-!
# Storage in a directory

Files are kept below a base directory under their keys. A key is a path: empty segments and single
points are skipped, and a double point leads one level up. A key that leads out of the base
directory is refused before anything is done. The key is also the address of what is stored under
it.
-/

namespace Runbook.LocalDirectory

/-- The segments of a text between slashes. -/
def segments (s : String) : List String := Text.pieces '/' s

/-- One step along a path. -/
def walkStep (p : Path) (segment : String) : Path :=
  if segment.isEmpty || segment == "." then p
  else if segment == ".." then p.dropLast
  else p ++ [segment]

/-- Where segments lead from a path. -/
def walk (p : Path) (steps : List String) : Path := steps.foldl walkStep p

/-- Where a path leads from a directory; a leading slash stands for the root. -/
def resolve (directory : Path) (path : String) : Path :=
  match path.toList with
  | '/' :: _ => walk [] (segments path)
  | _ => walk directory (segments path)

/-- A text without the slashes at its front. -/
def withoutSlashes (s : String) : String := String.ofList (s.toList.dropWhile (· == '/'))

/-- The path of a key, or why it is refused. -/
def target (base : Path) (key : String) : Except Fault Path :=
  if key.toList.any fun c => c.toNat = 0 then .error ⟨.badValue, "embedded null byte"⟩
  else
    let p := walk base (segments (withoutSlashes key))
    if base.isPrefixOf p then .ok p
    else .error ⟨.badValue, s!"storage key escapes base directory: {key}"⟩

/-- Stores bytes under a key; gives the key back. -/
def upload (base : Path) (key : String) (data : List UInt8) (fs : FileSystem) :
    Except Fault (String × FileSystem) := do
  let p ← target base key
  let fs ← fs.write p data
  return (key, fs)

/-- Removes the file under a key, if there is one. -/
def delete (base : Path) (key : String) (fs : FileSystem) : Except Fault FileSystem := do
  let p ← target base key
  if p = base then throw ⟨.badValue, s!"storage key does not name a file: {key}"⟩
  return fs.removeFile p

/-- All keys, in order. -/
def keys (base : Path) (fs : FileSystem) : List String :=
  if fs.isDirectory base then
    let below := (fs.files.map Prod.fst).filter fun p => base.isPrefixOf p && p ≠ base
    (below.map fun p => "/".intercalate (p.drop base.length)).mergeSort fun a b => a ≤ b
  else []

/-- The keys that begin with a text, in order; slashes at the front of the text do not count. -/
def list (base : Path) (beginning : String) (fs : FileSystem) : List String :=
  let front := (withoutSlashes beginning).toList
  (keys base fs).filter fun k => front.isPrefixOf k.toList

end Runbook.LocalDirectory
