import Runbook.Definition.Loader
import Runbook.Yaml.Document

/-!
# Definition files

The name of a file tells in which format it is written: YAML or JSON. A YAML file that holds nothing
stands for an empty object. All line ends of a file count as the usual one.
-/

namespace Runbook.Definition

/-- The last segment of a path. -/
def fileName (path : String) : List Char := (path.toList.reverse.takeWhile (· != '/')).reverse

/-- The ending of a file's name with its point: there must be something on both sides of the
point. -/
def suffix (path : String) : String :=
  let name := fileName path
  let ending := (name.reverse.takeWhile (· != '.')).reverse
  if ending.isEmpty || name.length < ending.length + 2 then "" else String.ofList ('.' :: ending)

/-- A text in which every line end is the usual one. -/
def unifyLineEnds : List Char → List Char
  | '\r' :: '\n' :: rest => '\n' :: unifyLineEnds rest
  | '\r' :: rest => '\n' :: unifyLineEnds rest
  | c :: rest => c :: unifyLineEnds rest
  | [] => []

/-- The document in a YAML file. -/
def yamlDocument (path content : String) : Except Failure Json :=
  match Yaml.read content with
  | .ok x => .ok (if x.truthy then x else .object [])
  | .error .malformed => .error (invalid (some path) "Invalid YAML")
  | .error (.valueless f) => .error (.fault f)

/-- The document in a JSON file. -/
def jsonDocument (path content : String) : Except Failure Json :=
  match Json.read content with
  | .ok x => .ok x
  | .error e => .error (invalid (some path) s!"Invalid JSON: {e.message}")

/-- The document in a file. -/
def document (path content : String) : Except Failure Json :=
  let content := String.ofList (unifyLineEnds content.toList)
  match suffix path with
  | ".yaml" | ".yml" => yamlDocument path content
  | ".json" => jsonDocument path content
  | other => .error (invalid (some path) s!"Unsupported definition format: {other}")

/-- The automation that a file describes; the content is missing when there is no such file. -/
def load (path : String) (content : Option String) : Except Failure Automation :=
  match content with
  | none => .error (invalid (some path) s!"Definition file not found: {path}")
  | some content => do
    match ← document path content with
    | x@(.object _) => read (some path) x
    | _ => throw (invalid (some path) "Definition root must be an object")

end Runbook.Definition
