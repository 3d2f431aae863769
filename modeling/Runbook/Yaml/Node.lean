import Runbook.Yaml.Token

/-!
# Nodes of YAML

Tokens form a tree: scalars, sequences and mappings. A node may be given a name by an anchor, and a
reference to that name stands for the whole node. A text holds one document.

Each reading step is told how many more steps there can be; every step takes a token at least, so
their number is bounded by the number of tokens.
-/

namespace Runbook.Yaml

/-- A tree. -/
inductive Node where
  | scalar (tag : Tag) (text : String)
  | sequence (tag : Tag) (items : List Node)
  | mapping (tag : Tag) (entries : List (Node × Node))

/-- Tokens that are being read. -/
structure Reading where
  tokens : List Token
  anchors : List (String × Node) := []
  /-- What the handles of tags stand for. -/
  handles : List (String × String) := []

/-- A step of reading. -/
abbrev Read := StateT Reading (Except Refusal)

namespace Read

/-- Refuses the text. -/
def malformed {α : Type} : Read α := throw .malformed

/-- The next token. -/
def peek? : Read (Option Token) := return (← get).tokens.head?

/-- Goes on behind the next token. -/
def skip : Read Unit := modify fun s => { s with tokens := s.tokens.drop 1 }

/-- Goes on behind a token if it is next. The reply says whether it was. -/
def accept (t : Token) : Read Bool := do
  if (← peek?) = some t then
    skip
    return true
  else return false

/-- Goes on behind a token that must be next. -/
def demand (t : Token) : Read Unit := do if !(← accept t) then malformed

/-- Whether one of some tokens is next. -/
def sees (ts : List Token) : Read Bool := return (← peek?).any ts.contains

/-- A scalar that is not written. -/
def absent : Node := .scalar .null ""

/-- The anchor that comes next, if there is one. -/
def anchor? : Read (Option String) := do
  match ← peek? with
  | some (.anchor name) =>
    skip
    return some name
  | _ => return none

/-- The name of the tag that comes next, if there is one. -/
def tagName? : Read (Option String) := do
  match ← peek? with
  | some (.tag handle rest) =>
    skip
    match handle with
    | none => return some rest
    | some h =>
      match (← get).handles.lookup h with
      | some beginning => return some (beginning ++ rest)
      | none => malformed
  | _ => return none

/-- The anchor and the tag name in front of a node, in either order. -/
def properties : Read (Option String × Option String) := do
  let anchor ← anchor?
  let tag ← tagName?
  match anchor with
  | some _ => return (anchor, tag)
  | none => return (← anchor?, tag)

/-- The tag of a collection: what is stated, unless it says nothing. -/
def collectionTag (usual : Tag) : Option String → Tag
  | none | some "!" => usual
  | some name => .ofName name

/-- The tag of a scalar: what is stated, or what it is by its form when it stands without quotes. -/
def scalarTag (text : String) (isPlain : Bool) : Option String → Tag
  | none => if isPlain then .ofPlain text else .text
  | some "!" => .ofPlain text
  | some name => .ofName name

/-- Gives a node its name. A name must not be given twice. -/
def named (anchor : Option String) (n : Node) : Read Node := do
  if let some name := anchor then
    if ((← get).anchors.lookup name).isSome then malformed
    modify fun s => { s with anchors := (name, n) :: s.anchors }
  return n

mutual

/-- A node. A block collection is possible only in a block, and a sequence without indentation of
its own only as a part of a block mapping. -/
def node (inBlock mayHang : Bool) : Nat → Read Node
  | 0 => malformed
  | n + 1 => do
    if let some (.reference name) ← peek? then
      skip
      match (← get).anchors.lookup name with
      | some x => return x
      | none => malformed
    else
      let (anchor, tag) ← properties
      let next ← peek?
      if mayHang && next = some .item then
        named anchor (.sequence (collectionTag .sequence tag) (← hangingItems n))
      else
        match next with
        | some (.scalar text isPlain) =>
          skip
          named anchor (.scalar (scalarTag text isPlain tag) text)
        | some .flowSequenceStart =>
          skip
          named anchor (.sequence (collectionTag .sequence tag) (← flowItems true n))
        | some .flowMappingStart =>
          skip
          named anchor (.mapping (collectionTag .mapping tag) (← flowEntries true n))
        | some .sequenceStart =>
          if !inBlock then malformed
          skip
          named anchor (.sequence (collectionTag .sequence tag) (← blockItems n))
        | some .mappingStart =>
          if !inBlock then malformed
          skip
          named anchor (.mapping (collectionTag .mapping tag) (← blockEntries n))
        | _ =>
          if anchor.isSome || tag.isSome then
            named anchor (.scalar (scalarTag "" true tag) "")
          else malformed

/-- A node, or nothing when one of some tokens is next. -/
def nodeUnless (stops : List Token) (inBlock mayHang : Bool) : Nat → Read Node
  | 0 => malformed
  | n + 1 => do if ← sees stops then return absent else node inBlock mayHang n

/-- The items of a block sequence. -/
def blockItems : Nat → Read (List Node)
  | 0 => malformed
  | n + 1 => do
    if ← accept .item then
      let x ← nodeUnless [.item, .blockEnd] true false n
      return x :: (← blockItems n)
    else
      demand .blockEnd
      return []

/-- The items of a sequence without indentation of its own. -/
def hangingItems : Nat → Read (List Node)
  | 0 => malformed
  | n + 1 => do
    if ← accept .item then
      let x ← nodeUnless [.item, .key, .value, .blockEnd] true false n
      return x :: (← hangingItems n)
    else return []

/-- The entries of a block mapping. -/
def blockEntries : Nat → Read (List (Node × Node))
  | 0 => malformed
  | n + 1 => do
    let stops := [Token.key, .value, .blockEnd]
    if ← accept .key then
      let k ← nodeUnless stops true true n
      let v ← if ← accept .value then nodeUnless stops true true n else pure absent
      return (k, v) :: (← blockEntries n)
    else
      demand .blockEnd
      return []

/-- The items of a flow sequence. A pair in it is a mapping of its own. -/
def flowItems (isFirst : Bool) : Nat → Read (List Node)
  | 0 => malformed
  | n + 1 => do
    if ← accept .flowSequenceEnd then return []
    else
      if !isFirst then demand .comma
      if ← accept .flowSequenceEnd then return []
      else if ← accept .key then
        let k ← nodeUnless [.value, .comma, .flowSequenceEnd] false false n
        let v ← if ← accept .value then nodeUnless [.comma, .flowSequenceEnd] false false n
          else pure absent
        return .mapping .mapping [(k, v)] :: (← flowItems false n)
      else
        let x ← node false false n
        return x :: (← flowItems false n)

/-- The entries of a flow mapping. -/
def flowEntries (isFirst : Bool) : Nat → Read (List (Node × Node))
  | 0 => malformed
  | n + 1 => do
    if ← accept .flowMappingEnd then return []
    else
      if !isFirst then demand .comma
      if ← accept .flowMappingEnd then return []
      else if ← accept .key then
        let k ← nodeUnless [.value, .comma, .flowMappingEnd] false false n
        let v ← if ← accept .value then nodeUnless [.comma, .flowMappingEnd] false false n
          else pure absent
        return (k, v) :: (← flowEntries false n)
      else
        let k ← node false false n
        return (k, absent) :: (← flowEntries false n)

end

/-- Whether a version of YAML can be read. -/
def isKnownVersion (version : String) : Bool :=
  match Text.splitAt '.' version.toList with
  | [major, minor] =>
    Scalar.some1 Char.isDigit major && Scalar.some1 Char.isDigit minor && Numeral.valueOf major = 1
  | _ => false

/-- The directives in front of a document; each may come once. -/
def directives (seen : List String) : Nat → Read Unit
  | 0 => malformed
  | n + 1 => do
    match ← peek? with
    | some (.directive words) =>
      skip
      match words with
      | ["YAML", version] =>
        if seen.contains "YAML" || !isKnownVersion version then malformed
        directives ("YAML" :: seen) n
      | ["TAG", handle, beginning] =>
        if seen.contains handle then malformed
        modify fun s => { s with handles := (handle, beginning) :: s.handles }
        directives (handle :: seen) n
      | "YAML" :: _ | "TAG" :: _ => malformed
      | _ => directives seen n
    | _ => return

/-- Passes over the ends of documents. -/
def documentEnds : Nat → Read Unit
  | 0 => return
  | n + 1 => do if ← accept .documentEnd then documentEnds n

/-- Whether the front of a document is next. -/
def seesFront : Read Bool := do
  match ← peek? with
  | some (.directive _) | some .documentStart => return true
  | _ => return false

/-- Whether the text ends or another document follows. -/
def seesEnd : Read Bool := do
  match ← peek? with
  | none | some (.directive _) | some .documentStart | some .documentEnd => return true
  | _ => return false

/-- The one document of a text; nothing when there is none. -/
def document : Read (Option Node) := do
  let bound := 4 * (← get).tokens.length + 4
  if (← peek?).isNone then return none
  let isMarked ← seesFront
  if isMarked then
    directives [] bound
    demand .documentStart
  let isEmpty ← seesEnd
  let x ← if isMarked && isEmpty then pure absent else node true false bound
  documentEnds bound
  if (← peek?).isSome then malformed
  return some x

end Read

namespace Node

/-- What the handles of tags stand for unless stated otherwise. -/
def usualHandles : List (String × String) := [("!", "!"), ("!!", "tag:yaml.org,2002:")]

/-- The tree that a text writes; nothing when it holds no document. -/
def read (text : String) : Except Refusal (Option Node) := do
  let tokens ← Token.scan text
  (Read.document.run { tokens, handles := usualHandles }).map Prod.fst

end Node

end Runbook.Yaml
