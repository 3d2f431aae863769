import Runbook.Number.Numeral
import Runbook.Text.Quoted
import Runbook.Text.Split

/-!
# Commands

A command line consists of general options, the name of a command, and the options and operands of
that command; those may come in any order, and after a double dash all are operands. An option takes
its value from the next word, or from what follows an equals sign. The last of several values
counts. `Command.read` gives the command, or the first objection to the line.
-/

namespace Runbook

/-- What a command line asks for. -/
inductive Command where
  /-- Run a definition. -/
  | run (definition : String) (runId : Option String) (headed : Bool)
      (store storage : Option String)
  /-- List the types of action. -/
  | actions
  /-- List the runs of an automation. -/
  | runs (automationId : String) (store : Option String) (limit : Int)
  /-- Explain the usage. -/
  | help
  deriving DecidableEq, Repr

/-- Why a command line is refused. -/
inductive UsageError where
  | noSuchOption (name : String)
  | noSuchCommand (name : String)
  | missingValue (option : String)
  | unwantedValue (option : String)
  | missingCommand
  | missingOperand (name : String)
  | extraOperands (operands : List String)
  | notInteger (option value : String)
  /-- There is nothing to read. -/
  | noFile (operand path : String)
  | directory (operand path : String)
  /-- The line is empty. -/
  | empty
  deriving DecidableEq, Repr

namespace UsageError

/-- The wording of an objection. -/
def message : UsageError → String
  | noSuchOption name => s!"No such option {Text.quoted name}."
  | noSuchCommand name => s!"No such command {Text.quoted name}."
  | missingValue option => s!"Option {Text.quoted option} requires an argument."
  | unwantedValue option => s!"Option {Text.quoted option} does not take a value."
  | missingCommand => "Missing command."
  | missingOperand name => s!"Missing argument {Text.quoted name}."
  | extraOperands operands =>
    "Got unexpected extra argument" ++ (if operands.length = 1 then "" else "s") ++ " ("
      ++ " ".intercalate operands ++ ")"
  | notInteger option value =>
    s!"Invalid value for {Text.quoted option}: {Text.quoted value} is not a valid integer."
  | noFile operand path =>
    s!"Invalid value for {Text.quoted operand}: File {Text.quoted path} does not exist."
  | directory operand path =>
    s!"Invalid value for {Text.quoted operand}: File {Text.quoted path} is a directory."
  | empty => ""

end UsageError

namespace Command

/-- An option. -/
structure KnownOption where
  name : String
  takesValue : Bool

/-- The options and operands on a line. -/
structure Words where
  options : List (String × String) := []
  operands : List String := []
  /-- Whether help was asked for. -/
  help : Bool := false

/-- An option with its value, if it has one. -/
def splitOption (word : String) : String × Option String :=
  let cs := word.toList
  let name := cs.takeWhile (· != '=')
  if name.length = cs.length then (word, none)
  else (String.ofList name, some (String.ofList (cs.drop (name.length + 1))))

/-- Whether a word is an option: it begins with a dash and is not a dash alone. -/
def isOption (word : String) : Bool :=
  match word.toList with
  | '-' :: _ :: _ => true
  | _ => false

/-- The first letter of a short option that is not known; `-h` asks for help. -/
def unknownLetter? (word : String) : Option Char :=
  (word.toList.drop 1).find? (· != 'h')

/-- Reads the words of a line. Where operands do not mix with options, the first operand ends the
options. -/
def words (known : List KnownOption) (mixes : Bool) : Words → List String → Except UsageError Words
  | w, [] => .ok w
  | w, word :: rest =>
    if word == "--" then .ok { w with operands := w.operands ++ rest }
    else if isOption word then
      let (name, value) := splitOption word
      match known.find? fun o => o.name == name with
      | some o =>
        if o.takesValue then
          match value, rest with
          | some v, rest => words known mixes { w with options := w.options ++ [(name, v)] } rest
          | none, v :: rest =>
            words known mixes { w with options := w.options ++ [(name, v)] } rest
          | none, [] => .error (.missingValue name)
        else if value.isSome then .error (.unwantedValue name)
        else words known mixes { w with options := w.options ++ [(name, "")] } rest
      | none =>
        if word == "--help" then words known mixes { w with help := true } rest
        else
          match word.toList with
          | '-' :: '-' :: _ => .error (.noSuchOption name)
          | _ =>
            match unknownLetter? word with
            | some c => .error (.noSuchOption (String.ofList ['-', c]))
            | none => words known mixes { w with help := true } rest
    else if mixes then words known mixes { w with operands := w.operands ++ [word] } rest
    else .ok { w with operands := w.operands ++ word :: rest }

/-- The last value of an option. -/
def Words.value? (w : Words) (name : String) : Option String :=
  (w.options.reverse.lookup name)

/-- The operand of a command that takes one. -/
def operand (name : String) (w : Words) : Except UsageError String :=
  match w.operands with
  | [] => .error (.missingOperand name)
  | x :: _ => .ok x

/-- There must be no operands beyond some number. -/
def noMore (count : Nat) (w : Words) : Except UsageError Unit :=
  match w.operands.drop count with
  | [] => .ok ()
  | extra => .error (.extraOperands extra)

/-- What is found at a path. -/
inductive Found where
  | nothing
  | file
  | directory
  deriving DecidableEq, Repr

/-- A path that must be one of a file. -/
def fileOperand (look : String → Found) (name path : String) : Except UsageError Unit :=
  match look path with
  | .file => .ok ()
  | .nothing => .error (.noFile name path)
  | .directory => .error (.directory name path)

/-- The number that an option gives, or a default. -/
def integer (w : Words) (name : String) (default : Int) : Except UsageError Int :=
  match w.value? name with
  | none => .ok default
  | some s =>
    match Numeral.integer? s with
    | some i => .ok i
    | none => .error (.notInteger name s)

def readRun (look : String → Found) (line : List String) : Except UsageError Command := do
  let w ← words [⟨"--run-id", true⟩, ⟨"--headed", false⟩, ⟨"--db", true⟩, ⟨"--storage-dir", true⟩]
    true {} line
  if w.help then return .help
  let definition ← operand "DEFINITION" w
  fileOperand look "DEFINITION" definition
  noMore 1 w
  return .run definition (w.value? "--run-id") (w.value? "--headed").isSome (w.value? "--db")
    (w.value? "--storage-dir")

def readActions (line : List String) : Except UsageError Command := do
  let w ← words [] true {} line
  if w.help then return .help
  noMore 0 w
  return .actions

def readRuns (line : List String) : Except UsageError Command := do
  let w ← words [⟨"--db", true⟩, ⟨"--limit", true⟩] true {} line
  if w.help then return .help
  let limit ← integer w "--limit" 20
  let automationId ← operand "AUTOMATION_ID" w
  noMore 1 w
  return .runs automationId (w.value? "--db") limit

/-- The command of a line, given what is found at paths. -/
def read (look : String → Found) (line : List String) : Except UsageError Command := do
  if line.isEmpty then throw .empty
  let w ← words [⟨"--log-level", true⟩] false {} line
  if w.help then return .help
  match w.operands with
  | [] => throw .missingCommand
  | "run" :: rest => readRun look rest
  | "actions" :: rest => readActions rest
  | "runs" :: rest => readRuns rest
  | name :: _ => throw (.noSuchCommand name)

end Command

end Runbook
