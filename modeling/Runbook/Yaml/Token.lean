import Runbook.Yaml.Scalar

/-!
# Tokens of YAML

A text is cut into tokens. The ends and beginnings of block collections, which are written only as
indentation, become tokens too, and so does the beginning of a key that stands without a question
mark: when its colon comes, the key token is put in before it, and before that the beginning of a
block mapping if the key opens one. Such a key must lie in one line and within 1024 characters of
its colon.

The end of the text is seen as the character `finish`, which no text contains.
-/

namespace Runbook.Yaml

/-- A piece of a text. -/
inductive Token where
  | directive (words : List String)
  | documentStart
  | documentEnd
  | sequenceStart
  | mappingStart
  | blockEnd
  | flowSequenceStart
  | flowSequenceEnd
  | flowMappingStart
  | flowMappingEnd
  | item
  | comma
  | key
  | value
  | reference (name : String)
  | anchor (name : String)
  /-- A handle, if there is one, and what follows it. -/
  | tag (handle : Option String) (rest : String)
  | scalar (text : String) (isPlain : Bool)
  deriving DecidableEq, Repr

/-- What is seen at the end of a text. -/
def finish : Char := Char.ofNat 0

/-- The mark that may stand at the front of a text. -/
def byteOrderMark : Char := Char.ofNat 0xfeff

/-- Line and paragraph separators. -/
def isSeparator (c : Char) : Bool := c.toNat = 0x2028 || c.toNat = 0x2029

/-- Characters that end a line. -/
def isBreak (c : Char) : Bool := c == '\n' || c == '\r' || c.toNat = 0x85 || isSeparator c

/-- Whether a line, or the text, ends here. -/
def endsLine (c : Char) : Bool := c == finish || isBreak c

/-- Whether a blank stands here, or a line ends. -/
def endsWord (c : Char) : Bool := endsLine c || c == ' ' || c == '\t'

/-- Characters of names. -/
def isNameChar (c : Char) : Bool := c.isAlphanum || c == '-' || c == '_'

/-- Whether a text may be YAML at all: it has printable characters only. -/
def isAllowed (c : Char) : Bool :=
  let n := c.toNat
  n == 9 || n == 10 || n == 13 || (0x20 ≤ n && n ≤ 0x7e) || n == 0x85
    || (0xa0 ≤ n && n ≤ 0xfffd) || 0x10000 ≤ n

/-! ### Moving through a text -/

/-- A place in a text: what is left, and where it is. -/
structure Cursor where
  rest : List Char
  index : Nat := 0
  line : Nat := 0
  column : Nat := 0

namespace Cursor

/-- The character so many places further on. -/
def peek (c : Cursor) (k : Nat) : Char := c.rest.getD k finish

/-- The next place. -/
def next (c : Cursor) : Cursor :=
  match c.rest with
  | [] => c
  | ch :: rest =>
    if isBreak ch then { rest, index := c.index + 1, line := c.line + 1, column := 0 }
    else
      { c with
        rest, index := c.index + 1
        column := if ch == byteOrderMark then c.column else c.column + 1 }

/-- The place so many characters further on. -/
def advance : Nat → Cursor → Cursor
  | 0, c => c
  | n + 1, c => advance n c.next

/-- Whether three characters and then the end of a word follow. -/
def seesMark (c : Cursor) (ch : Char) : Bool :=
  c.peek 0 == ch && c.peek 1 == ch && c.peek 2 == ch && endsWord (c.peek 3)

/-- Whether a document begins or ends here. -/
def seesBoundary (c : Cursor) : Bool := c.seesMark '-' || c.seesMark '.'

end Cursor

/-- A step through a text that may be refused. -/
abbrev Scan := StateT Cursor (Except Refusal)

namespace Scan

/-- Refuses the text. -/
def malformed {α : Type} : Scan α := throw .malformed

/-- Refuses the text unless something holds. -/
def expect (b : Bool) : Scan Unit := if b then pure () else malformed

/-- The character so many places further on. -/
def peek (k : Nat) : Scan Char := return (← get).peek k

/-- Goes on by so many characters. -/
def skip (n : Nat) : Scan Unit := modify (Cursor.advance n)

/-- Takes characters as long as they are of a class. -/
def takeWhile (p : Char → Bool) : Scan (List Char) := do
  let taken := (← get).rest.takeWhile p
  skip taken.length
  return taken

/-- Takes the end of a line, if it is there. All line ends but separators become the usual one. -/
def lineBreak : Scan (List Char) := do
  let c ← peek 0
  if isBreak c then
    skip 1
    return [if isSeparator c then c else '\n']
  else return []

/-- Blanks and perhaps a comment up to the end of the line. -/
def restOfLine : Scan Unit := do
  let _ ← takeWhile (· == ' ')
  if (← peek 0) == '#' then
    let _ ← takeWhile (!endsLine ·)
  expect (endsLine (← peek 0))
  let _ ← lineBreak

/-- A bound on the steps that can be taken from here. -/
def bound : Scan Nat := return (← get).rest.length + 1

/-! ### Between tokens -/

/-- Goes on to the next token. The reply says whether a line ended on the way. -/
def toNextToken (crossed : Bool) : Nat → Scan Bool
  | 0 => return crossed
  | n + 1 => do
    let _ ← takeWhile (· == ' ')
    if (← peek 0) == '#' then
      let _ ← takeWhile (!endsLine ·)
    let taken ← lineBreak
    if taken.isEmpty then return crossed else toNextToken true n

/-! ### Names and tags -/

/-- The name after `*` or `&`. -/
def anchorName : Scan String := do
  skip 1
  let name ← takeWhile isNameChar
  expect !name.isEmpty
  let c ← peek 0
  expect (endsWord c || "?:,]\x7d%@".toList.contains c || c.toNat = 0x60)
  return String.ofList name

/-- Characters of a tag. -/
def isTagChar (c : Char) : Bool :=
  c.isAlphanum || "-;/?:@&=+$,_.!~*()[]%".toList.contains c || c.toNat = 0x27

/-- The characters of a tag. -/
def tagRest : Scan String := do
  let cs ← takeWhile isTagChar
  expect !cs.isEmpty
  return String.ofList cs

/-- A handle: an exclamation mark, or a name between two. -/
def tagHandle : Scan String := do
  skip 1
  let name ← takeWhile isNameChar
  if name.isEmpty && (← peek 0) != '!' then return "!"
  else
    expect ((← peek 0) == '!')
    skip 1
    return "!" ++ String.ofList name ++ "!"

/-- A tag. -/
def tag : Scan Token := do
  let c ← peek 1
  let token ←
    if c == '<' then do
      skip 2
      let rest ← tagRest
      expect ((← peek 0) == '>')
      skip 1
      pure (Token.tag none rest)
    else if endsWord c then do
      skip 1
      pure (Token.tag none "!")
    else do
      let word := ((← get).rest.drop 1).takeWhile fun c => !endsLine c && c != ' '
      let handle ← if word.contains '!' then tagHandle else do skip 1; pure "!"
      let rest ← tagRest
      pure (Token.tag (some handle) rest)
  let c ← peek 0
  expect (endsLine c || c == ' ')
  return token

/-- The words of a directive. -/
def directive : Scan Token := do
  skip 1
  let line ← takeWhile fun c => !endsLine c && c != '#'
  restOfLine
  let words := (Text.splitAt ' ' line).filter fun w => !w.isEmpty
  expect (words.head?.any fun w => w.all isNameChar)
  return .directive (words.map String.ofList)

/-! ### Block scalars -/

/-- The indentation hint of a block scalar. -/
def hint? : Scan (Option Nat) := do
  let c ← peek 0
  if c.isDigit then
    expect (c != '0')
    skip 1
    return some (c.toNat - 48)
  else return none

/-- What is done with the line ends at the end of a block scalar: kept, dropped, or one is
kept. -/
def chomping? : Scan (Option Bool) := do
  let c ← peek 0
  if c == '+' || c == '-' then
    skip 1
    return some (c == '+')
  else return none

/-- The signs behind the indicator of a block scalar. -/
def blockHeader : Scan (Option Bool × Option Nat) := do
  skip 1
  let before ← chomping?
  let hint ← hint?
  let after ← if before.isSome then pure none else chomping?
  let c ← peek 0
  expect (endsLine c || c == ' ')
  return (before.orElse fun _ => after, hint)

/-- The empty lines at the front of a block scalar, and its deepest indentation. -/
def leadingBreaks (breaks : List Char) (deepest : Nat) : Nat → Scan (List Char × Nat)
  | 0 => return (breaks, deepest)
  | n + 1 => do
    let c ← peek 0
    if c == ' ' then
      skip 1
      leadingBreaks breaks (max deepest (← get).column) n
    else if isBreak c then leadingBreaks (breaks ++ (← lineBreak)) deepest n
    else return (breaks, deepest)

/-- Goes on over blanks, at most up to a column. -/
def indentTo (column : Nat) : Scan Unit := do
  let c ← get
  skip ((c.rest.take (column - c.column)).takeWhile (· == ' ')).length

/-- The empty lines between the lines of a block scalar. -/
def innerBreaks (column : Nat) (breaks : List Char) : Nat → Scan (List Char)
  | 0 => return breaks
  | n + 1 => do
    let taken ← lineBreak
    if taken.isEmpty then return breaks
    else
      indentTo column
      innerBreaks column (breaks ++ taken) n

/-- The lines of a block scalar: the text, the end of its last line and the empty lines after
it. -/
def blockLines (isFolded : Bool) (column : Nat) (text breaks : List Char) :
    Nat → Scan (List Char × List Char × List Char)
  | 0 => return (text, [], breaks)
  | n + 1 => do
    let startsBlank := (← peek 0) == ' ' || (← peek 0) == '\t'
    let line ← takeWhile (!endsLine ·)
    let text := text ++ breaks ++ line
    let ended ← lineBreak
    indentTo column
    let breaks ← innerBreaks column [] (← bound)
    let c ← peek 0
    if (← get).column = column && c != finish then
      let joins := isFolded && ended == ['\n'] && !startsBlank && c != ' ' && c != '\t'
      let text := if joins then (if breaks.isEmpty then text ++ [' '] else text) else text ++ ended
      blockLines isFolded column text breaks n
    else return (text, ended, breaks)

/-- A block scalar inside a block of some indentation. -/
def blockScalar (isFolded : Bool) (indent : Int) : Scan Token := do
  let (chomping, hint) ← blockHeader
  restOfLine
  let least := (max 1 (indent + 1)).toNat
  let (column, breaks) ← match hint with
    | some k => do
      let column := least + k - 1
      indentTo column
      pure (column, ← innerBreaks column [] (← bound))
    | none => do
      let (breaks, deepest) ← leadingBreaks [] 0 (← bound)
      pure (max least deepest, breaks)
  let (text, ended, breaks) ←
    if (← get).column = column && (← peek 0) != finish then
      blockLines isFolded column [] breaks (← bound)
    else pure ([], [], breaks)
  let tail := match chomping with
    | some false => []
    | some true => ended ++ breaks
    | none => ended
  return .scalar (String.ofList (text ++ tail)) false

/-! ### Quoted scalars -/

/-- What a letter after a backslash stands for. -/
def escapes : List (Char × Nat) := [
  ('0', 0), ('a', 7), ('b', 8), ('t', 9), ('\t', 9), ('n', 10), ('v', 11), ('f', 12), ('r', 13),
  ('e', 0x1b), (' ', 0x20), ('"', 0x22), ('\\', 0x5c), ('/', 0x2f), ('N', 0x85), ('_', 0xa0),
  ('L', 0x2028), ('P', 0x2029)]

/-- How many hexadecimal digits follow a letter after a backslash. -/
def codeLength? : Char → Option Nat
  | 'x' => some 2
  | 'u' => some 4
  | 'U' => some 8
  | _ => none

/-- The empty lines inside a quoted scalar. -/
def quotedBreaks (breaks : List Char) : Nat → Scan (List Char)
  | 0 => return breaks
  | n + 1 => do
    expect !(← get).seesBoundary
    let _ ← takeWhile fun c => c == ' ' || c == '\t'
    let taken ← lineBreak
    if taken.isEmpty then return breaks else quotedBreaks (breaks ++ taken) n

/-- The fault of a code beyond all characters. -/
def codeFault (n : Nat) : Fault :=
  if 0x7fffffff < n then ⟨.overflow, "Python int too large to convert to C int"⟩
  else ⟨.badValue, "chr() arg not in range(0x110000)"⟩

/-- Refuses a code beyond all characters. -/
def expectCode (n : Nat) : Scan Unit :=
  if n ≤ 0x10ffff then pure () else throw (.valueless (codeFault n))

/-- What stands after a backslash. -/
def escaped : Scan (List Char) := do
  skip 1
  let c ← peek 0
  match escapes.lookup c, codeLength? c with
  | some n, _ =>
    skip 1
    return [Char.ofNat n]
  | none, some length =>
    skip 1
    let digits := (← get).rest.take length
    match Text.hexNumber? digits with
    | some n =>
      expect (digits.length = length)
      expectCode n
      skip length
      return [if n.isValidChar then Char.ofNat n else Char.ofNat 0xfffd]
    | none => malformed
  | none, none =>
    if isBreak c then
      let _ ← lineBreak
      quotedBreaks [] (← bound)
    else malformed

/-- The blanks and line ends inside a quoted scalar. A single line end becomes a blank. -/
def quotedBlanks : Scan (List Char) := do
  let blanks ← takeWhile fun c => c == ' ' || c == '\t'
  let c ← peek 0
  expect (c != finish)
  let ended ← lineBreak
  if ended.isEmpty then return blanks
  else
    let breaks ← quotedBreaks [] (← bound)
    return (if ended != ['\n'] then ended else if breaks.isEmpty then [' '] else []) ++ breaks

/-- The rest of a quoted scalar. -/
def quotedBody (quote : Char) (text : List Char) : Nat → Scan (List Char)
  | 0 => malformed
  | n + 1 => do
    let isDouble := quote == '"'
    let c ← peek 0
    if c == quote then
      if !isDouble && (← peek 1) == quote then
        skip 2
        quotedBody quote (text ++ [quote]) n
      else
        skip 1
        return text
    else if isDouble && c == '\\' then quotedBody quote (text ++ (← escaped)) n
    else if endsWord c then quotedBody quote (text ++ (← quotedBlanks)) n
    else
      skip 1
      quotedBody quote (text ++ [c]) n

/-- A quoted scalar. -/
def quotedScalar : Scan Token := do
  let quote ← peek 0
  skip 1
  return .scalar (String.ofList (← quotedBody quote [] (← bound))) false

/-! ### Plain scalars -/

/-- Marks of flow collections at which a plain scalar inside one ends. -/
def isFlowMark (c : Char) : Bool := ",?[]\x7b\x7d".toList.contains c

/-- Whether a plain scalar ends here. -/
def endsPlain (inFlow : Bool) : List Char → Bool
  | [] => true
  | c :: rest =>
    endsWord c || (inFlow && isFlowMark c)
      || (c == ':' && (match rest with
        | [] => true
        | d :: _ => endsWord d || (inFlow && ",[]\x7b\x7d".toList.contains d)))

/-- How many characters a plain scalar has in a row. -/
def plainLength (inFlow : Bool) : List Char → Nat
  | [] => 0
  | c :: rest => if endsPlain inFlow (c :: rest) then 0 else plainLength inFlow rest + 1

/-- The empty lines inside a plain scalar, none when a document boundary comes. -/
def plainBreaks (breaks : List Char) : Nat → Scan (Option (List Char))
  | 0 => return some breaks
  | n + 1 => do
    let _ ← takeWhile (· == ' ')
    let taken ← lineBreak
    if taken.isEmpty then return some breaks
    else if (← get).seesBoundary then return none
    else plainBreaks (breaks ++ taken) n

/-- The blanks and line ends inside a plain scalar, and whether a line ended. -/
def plainBlanks : Scan (List Char × Bool) := do
  let blanks ← takeWhile (· == ' ')
  let ended ← lineBreak
  if ended.isEmpty then return (blanks, false)
  else if (← get).seesBoundary then return ([], true)
  else
    match ← plainBreaks [] (← bound) with
    | none => return ([], true)
    | some breaks =>
      return ((if ended != ['\n'] then ended else if breaks.isEmpty then [' '] else []) ++ breaks,
        true)

/-- The rest of a plain scalar, and whether a line ended last. -/
def plainBody (inFlow : Bool) (indent : Int) (text blanks : List Char) (crossed : Bool) :
    Nat → Scan (List Char × Bool)
  | 0 => return (text, crossed)
  | n + 1 => do
    let c ← get
    let length := plainLength inFlow c.rest
    if c.peek 0 == '#' || length = 0 then return (text, crossed)
    else
      skip length
      let text := text ++ blanks ++ c.rest.take length
      let (blanks, crossed) ← plainBlanks
      let c ← get
      if blanks.isEmpty || c.peek 0 == '#' || (!inFlow && (c.column : Int) < indent) then
        return (text, crossed)
      else plainBody inFlow indent text blanks crossed n

end Scan

/-! ### Tokens -/

/-- A place at which a key may have begun. -/
structure KeyPlace where
  /-- The number of tokens before it. -/
  position : Nat
  /-- Whether it must be a key. -/
  required : Bool
  index : Nat
  line : Nat
  column : Nat

/-- A text that is being cut. -/
structure Cutting where
  cursor : Cursor
  tokens : Array Token := #[]
  /-- The column of the innermost block, and of those around it. -/
  indent : Int := -1
  outer : List Int := []
  /-- Whether a key may begin here. -/
  allowsKey : Bool := true
  /-- Where a key may have begun: in the block, or in the innermost flow collection first. -/
  keys : List (Option KeyPlace) := [none]

/-- A step of cutting. -/
abbrev Cut := StateT Cutting (Except Refusal)

namespace Cut

/-- Refuses the text. -/
def malformed {α : Type} : Cut α := throw .malformed

/-- Whether the place is inside a flow collection. -/
def inFlow : Cut Bool := return 1 < (← get).keys.length

/-- Steps through the text. -/
def scan {α : Type} (m : Scan α) : Cut α := do
  let s ← get
  match m.run s.cursor with
  | .ok (a, cursor) =>
    set { s with cursor }
    return a
  | .error e => throw e

/-- Adds a token. -/
def push (t : Token) : Cut Unit := modify fun s => { s with tokens := s.tokens.push t }

/-- Sets whether a key may begin. -/
def allowKey (b : Bool) : Cut Unit := modify fun s => { s with allowsKey := b }

/-- Whether a place is too far back for a key. -/
def KeyPlace.isStale (k : KeyPlace) (c : Cursor) : Bool :=
  k.line ≠ c.line || k.index + 1024 < c.index

/-- Gives up places that are too far back. -/
def dropStale : Cut Unit := do
  let s ← get
  let isStale := fun (k : Option KeyPlace) => k.any fun k => KeyPlace.isStale k s.cursor
  if s.keys.any fun k => isStale k && k.any (·.required) then malformed
  set { s with keys := s.keys.map fun k => if isStale k then none else k }

/-- Gives up the place at which a key may have begun. -/
def dropKey : Cut Unit := do
  let s ← get
  match s.keys with
  | k :: rest =>
    if k.any (·.required) then malformed
    set { s with keys := none :: rest }
  | [] => return

/-- Remembers that a key may begin here. -/
def saveKey : Cut Unit := do
  let s ← get
  if s.allowsKey then
    let required := !(← inFlow) && s.indent == (s.cursor.column : Int)
    dropKey
    let c := s.cursor
    let place : KeyPlace := ⟨s.tokens.size, required, c.index, c.line, c.column⟩
    modify fun s => { s with keys := some place :: s.keys.drop 1 }

/-- Ends the blocks that are deeper than a column. -/
def unwind (column : Int) : Nat → Cut Unit
  | 0 => return
  | n + 1 => do
    let s ← get
    if !(← inFlow) && column < s.indent then
      set { s with
        tokens := s.tokens.push .blockEnd, indent := s.outer.headD (-1), outer := s.outer.drop 1 }
      unwind column n

/-- Ends all blocks that are deeper than a column. -/
def unwindTo (column : Int) : Cut Unit := do unwind column ((← get).outer.length + 1)

/-- Opens a block at a column, if it is deeper. The reply says whether it is. -/
def indentTo (column : Nat) : Cut Bool := do
  let s ← get
  if s.indent < column then
    set { s with indent := column, outer := s.indent :: s.outer }
    return true
  else return false

/-- A scalar, an anchor, a tag or the like, before which a key may begin. -/
def keyed (m : Scan Token) : Cut Unit := do
  saveKey
  allowKey false
  push (← scan m)

/-- The mark at the beginning or the end of a document. -/
def boundary (t : Token) : Cut Unit := do
  unwindTo (-1)
  dropKey
  allowKey false
  scan (Scan.skip 3)
  push t

/-- The beginning of a flow collection. -/
def openFlow (t : Token) : Cut Unit := do
  saveKey
  modify fun s => { s with keys := none :: s.keys, allowsKey := true }
  scan (Scan.skip 1)
  push t

/-- The end of a flow collection. -/
def closeFlow (t : Token) : Cut Unit := do
  dropKey
  if !(← inFlow) then malformed
  modify fun s => { s with keys := s.keys.drop 1, allowsKey := false }
  scan (Scan.skip 1)
  push t

/-- A dash or a question mark that opens an item or a key of a block collection. -/
def opener (t start : Token) (allowsKey : Bool) : Cut Unit := do
  if !(← inFlow) then
    let s ← get
    if !s.allowsKey then malformed
    if ← indentTo s.cursor.column then push start
  allowKey allowsKey
  dropKey
  scan (Scan.skip 1)
  push t

/-- A colon. -/
def colon : Cut Unit := do
  let s ← get
  match s.keys with
  | some place :: rest =>
    set { s with
      tokens := s.tokens.insertIdxIfInBounds place.position .key
      keys := none :: rest
      allowsKey := false }
    if !(← inFlow) then
      if ← indentTo place.column then
        modify fun s => { s with
          tokens := s.tokens.insertIdxIfInBounds place.position .mappingStart }
  | _ =>
    if !(← inFlow) then
      if !s.allowsKey then malformed
      if ← indentTo s.cursor.column then push .mappingStart
    allowKey !(← inFlow)
    dropKey
  scan (Scan.skip 1)
  push .value

/-- A plain scalar. -/
def plain : Cut Unit := do
  saveKey
  let s ← get
  let inFlow ← inFlow
  let (text, crossed) ← scan do
    Scan.plainBody inFlow (s.indent + 1) [] [] false (← Scan.bound)
  allowKey crossed
  push (.scalar (String.ofList text) true)

/-- Whether a plain scalar may begin with a character. -/
def startsPlain (inFlow : Bool) (c d : Char) : Bool :=
  !(endsWord c || "-?:,[]\x7b\x7d#&*!|>\"%@".toList.contains c || c.toNat = 0x27 || c.toNat = 0x60)
    || (!endsWord d && (c == '-' || (!inFlow && (c == '?' || c == ':'))))

/-- Cuts off the next token. The reply says whether there was one. -/
def next : Cut Bool := do
  let crossed ← scan do Scan.toNextToken false (← Scan.bound)
  if crossed && !(← inFlow) then allowKey true
  dropStale
  unwindTo (← get).cursor.column
  let cursor := (← get).cursor
  let c := cursor.peek 0
  let d := cursor.peek 1
  let atMargin := cursor.column = 0
  let inFlow ← inFlow
  if c == finish then
    unwindTo (-1)
    dropKey
    return false
  if c == '%' && atMargin then
    unwindTo (-1)
    dropKey
    allowKey false
    push (← scan Scan.directive)
  else if c == '-' && atMargin && cursor.seesMark '-' then boundary .documentStart
  else if c == '.' && atMargin && cursor.seesMark '.' then boundary .documentEnd
  else if c == '[' then openFlow .flowSequenceStart
  else if c == '\x7b' then openFlow .flowMappingStart
  else if c == ']' then closeFlow .flowSequenceEnd
  else if c == '\x7d' then closeFlow .flowMappingEnd
  else if c == ',' then do
    allowKey true
    dropKey
    scan (Scan.skip 1)
    push .comma
  else if c == '-' && endsWord d then opener .item .sequenceStart true
  else if c == '?' && (inFlow || endsWord d) then opener .key .mappingStart !inFlow
  else if c == ':' && (inFlow || endsWord d) then colon
  else if c == '*' then keyed do return .reference (← Scan.anchorName)
  else if c == '&' then keyed do return .anchor (← Scan.anchorName)
  else if c == '!' then keyed Scan.tag
  else if (c == '|' || c == '>') && !inFlow then do
    allowKey true
    dropKey
    push (← scan (Scan.blockScalar (c == '>') (← get).indent))
  else if c == '"' || c.toNat = 0x27 then keyed Scan.quotedScalar
  else if startsPlain inFlow c d then plain
  else malformed
  return true

/-- Cuts off at most so many tokens. -/
def all : Nat → Cut Unit
  | 0 => malformed
  | n + 1 => do if ← next then all n

end Cut

namespace Token

/-- The tokens of a text. -/
def scan (text : String) : Except Refusal (List Token) :=
  let cs := text.toList
  if cs.all isAllowed then
    let cs := if cs.head? == some byteOrderMark then cs.drop 1 else cs
    ((Cut.all (cs.length + 2)).run { cursor := { rest := cs } }).map fun r => r.2.tokens.toList
  else .error .malformed

end Token

end Runbook.Yaml
