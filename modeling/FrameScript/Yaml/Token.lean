import FrameScript.Yaml.Tag
import FrameScript.Yaml.Text

set_option autoImplicit false

/-!
# Tokens of YAML text

How a text falls into tokens. Tokens for the starts and ends of blocks stand where the indentation
changes. A key on one line shows only at its colon, so whatever may turn out to be a key is kept in
mind, together with the slot in front of it, until the line ends or the colon is too far away.

## Main definitions

* `YamlToken` — a token.
* `YamlTokenizer` — the text ahead, the tokens so far, and what matters for those to come.
* `Tokenizing` — computations that add tokens and may fail.
* `YamlToken.ofText?` — the tokens of a text.

## Implementation notes

The tokenizer runs on fuel. Each step passes over a character at least, so the length of the text
always suffices.
-/

namespace FrameScript

/-- A token. -/
inductive YamlToken
  /-- A line that tells about the document. -/
  | directive
  /-- The mark in front of a document. -/
  | documentStart
  /-- The mark behind a document. -/
  | documentEnd
  /-- The start of a list in a block. -/
  | listStart
  /-- The start of a table in a block. -/
  | tableStart
  /-- The end of a list or a table in a block. -/
  | blockEnd
  /-- The mark of an item of a list in a block. -/
  | item
  /-- The mark of a key. -/
  | key
  /-- The mark of a value. -/
  | value
  /-- An opening bracket. -/
  | openBracket
  /-- A closing bracket. -/
  | closeBracket
  /-- An opening brace. -/
  | openBrace
  /-- A closing brace. -/
  | closeBrace
  /-- A comma between brackets or braces. -/
  | comma
  /-- The use of a node by its name. -/
  | reuse (name : String)
  /-- A name for the node that follows. -/
  | anchor (name : String)
  /-- A tag of the node that follows. -/
  | tag (t : YamlTag)
  /-- A scalar, in quotes or as a block of lines, or without quotes. -/
  | scalar (text : String) (isQuoted : Bool)
  deriving DecidableEq, Repr

/-- What may turn out to be a key. -/
structure KeyCandidate where
  /-- Where it starts. -/
  start : YamlPlace
  /-- The slot in front of it. -/
  slot : Nat
  /-- Whether it has to be a key. -/
  isRequired : Bool

/-- The text ahead, the tokens so far, and what matters for those to come. -/
structure YamlTokenizer where
  /-- Where the text ahead starts. -/
  cursor : YamlCursor
  /-- The tokens so far, by slots. The slot in front of a candidate stays empty until that turns out
  to be a key. -/
  slots : Array (List YamlToken) := #[]
  /-- Whether a key or an item of a block may start here. -/
  isFresh : Bool := true
  /-- What may turn out to be a key inside the innermost brackets. -/
  candidate? : Option KeyCandidate := none
  /-- What may turn out to be a key around each pair of brackets, the innermost first. -/
  outer : List (Option KeyCandidate) := []
  /-- The column of the innermost block. -/
  indent : Int := -1
  /-- The columns of the blocks around it, the innermost first. -/
  outerIndents : List Int := []
  /-- The place behind the last scalar in quotes. -/
  quotedEnd : Nat := 0

/-- Computations that add tokens and may fail. -/
abbrev Tokenizing : Type → Type := StateT YamlTokenizer Option

namespace Tokenizing

variable {α : Type}

/-! ## The text ahead -/

/-- Moves along the text. -/
def ofReading (reading : Reading α) : Tokenizing α := fun s =>
  (reading.run s.cursor).map fun (a, cursor) => (a, { s with cursor })

/-- Passes over a number of characters. -/
def drop (n : Nat) : Tokenizing Unit :=
  ofReading (Reading.drop n)

/-- Whether this is between brackets or braces. -/
def inFlow : Tokenizing Bool := do
  return !(← get).outer.isEmpty

/-- States whether a key or an item of a block may start here. -/
def setFresh (isFresh : Bool) : Tokenizing Unit :=
  modify ({ · with isFresh })

/-- Passes over white space and comments from a place on. Outside of brackets a line end makes the
place fresh, and a tab is white space only where nothing may start. -/
def skipFrom (flow : Bool) (isFresh comment : Bool) (p : YamlCursor) :
    List Char → Bool × YamlCursor
  | [] => (isFresh, p)
  | c :: cs =>
    if YamlText.isBreak c then skipFrom flow (isFresh || !flow) false p.next cs
    else if comment || c == '#' then skipFrom flow isFresh true p.next cs
    else if c == ' ' || (c == '\t' && (flow || !isFresh)) then skipFrom flow isFresh false p.next cs
    else (isFresh, p)

/-- Passes over white space and comments. -/
def skip : Tokenizing Unit :=
  modify fun s =>
    let (isFresh, cursor) := skipFrom (!s.outer.isEmpty) s.isFresh false s.cursor s.cursor.rest
    { s with isFresh, cursor }

/-! ## Tokens -/

/-- Adds a token. -/
def emit (t : YamlToken) : Tokenizing Unit :=
  modify fun s => { s with slots := s.slots.push [t] }

/-- Passes over a number of characters that are a token. -/
def emitMark (length : Nat) (t : YamlToken) : Tokenizing Unit := do
  drop length
  emit t

/-! ## Keys -/

/-- How far a key may be from its colon. -/
def maxKeyLength : Nat := 1024

/-- Whether a candidate can no longer turn out to be a key. -/
def isStale (p : YamlPlace) (k : KeyCandidate) : Bool :=
  k.start.line < p.line || k.start.index + maxKeyLength < p.index

/-- What is left of a candidate at a place. -/
def renew (p : YamlPlace) : Option KeyCandidate → Option (Option KeyCandidate)
  | none => some none
  | some k =>
    if !isStale p k then some (some k)
    else if k.isRequired then none
    else some none

/-- Forgets the candidates that can no longer turn out to be keys. -/
def renewCandidates : Tokenizing Unit := fun s => do
  let p := s.cursor.toYamlPlace
  let candidate? ← renew p s.candidate?
  let outer ← s.outer.mapM (renew p)
  return ((), { s with candidate?, outer })

/-- Forgets the candidate, as what stands here is no colon. -/
def dropCandidate : Tokenizing Unit := fun s =>
  if (s.candidate?.map (·.isRequired)).getD false then none
  else some ((), { s with candidate? := none })

/-- Takes what starts here as a candidate, if a key may start here. -/
def proposeKey : Tokenizing Unit := do
  if (← get).isFresh then do
    dropCandidate
    modify fun s =>
      let start := s.cursor.toYamlPlace
      let slot := s.slots.size
      let isRequired := !s.outer.isEmpty && s.indent == Int.ofNat start.column
      { s with
        slots := s.slots.push []
        candidate? := some { start, slot, isRequired } }

/-! ## Blocks -/

/-- The tokens for the ends of the blocks that are further in than a column, with the columns of the
blocks that stay, the innermost first. -/
def blockEnds (column : Int) : Int → List Int → List YamlToken × Int × List Int
  | indent, [] => ([], indent, [])
  | indent, outer :: indents =>
    if column < indent then
      let (ends, indents) := blockEnds column outer indents
      (.blockEnd :: ends, indents)
    else ([], indent, outer :: indents)

/-- Ends the blocks that are further in than a column. -/
def closeBlocks (column : Int) : Tokenizing Unit :=
  modify fun s =>
    if s.outer.isEmpty then
      let (ends, indent, outerIndents) := blockEnds column s.indent s.outerIndents
      { s with slots := s.slots.push ends, indent, outerIndents }
    else s

/-- Starts a block in a column, unless it is there already. The answer is its token. -/
def openBlock (column : Nat) (start : YamlToken) : Tokenizing (List YamlToken) :=
  modifyGet fun s =>
    if s.outer.isEmpty && s.indent < Int.ofNat column then
      ([start],
        { s with indent := Int.ofNat column, outerIndents := s.indent :: s.outerIndents })
    else ([], s)

/-- Starts a block at the mark that stands here. -/
def openBlockHere (start : YamlToken) : Tokenizing Unit := do
  let s ← get
  if s.outer.isEmpty then do
    guard s.isFresh
    let tokens ← openBlock s.cursor.column start
    modify fun s => { s with slots := s.slots.push tokens }

/-! ## Marks -/

/-- Ends all blocks in front of a mark or a directive of the document. -/
def leaveBlocks : Tokenizing Unit := do
  closeBlocks (-1)
  dropCandidate
  setFresh false

/-- How many brackets and braces may lie inside each other. -/
def maxFlowNesting : Nat := 255

/-- Takes an opening bracket or brace. -/
def readOpening (t : YamlToken) : Tokenizing Unit := do
  proposeKey
  guard ((← get).outer.length < maxFlowNesting)
  modify fun s =>
    { s with candidate? := none, outer := s.candidate? :: s.outer, isFresh := true }
  emitMark 1 t

/-- Takes a closing bracket or brace. -/
def readClosing (t : YamlToken) : Tokenizing Unit := do
  dropCandidate
  modify fun s =>
    match s.outer with
    | [] => { s with isFresh := false }
    | candidate? :: outer => { s with candidate?, outer, isFresh := false }
  emitMark 1 t

/-- Takes a comma between brackets or braces. -/
def readComma : Tokenizing Unit := do
  dropCandidate
  setFresh true
  emitMark 1 .comma

/-- Takes the mark of an item. -/
def readItem : Tokenizing Unit := do
  guard !(← inFlow)
  openBlockHere .listStart
  dropCandidate
  setFresh true
  emitMark 1 .item

/-- Takes the mark of a key. -/
def readKey : Tokenizing Unit := do
  openBlockHere .tableStart
  dropCandidate
  setFresh !(← inFlow)
  emitMark 1 .key

/-- Takes the colon in front of a value. If there is a candidate, that becomes a key. -/
def readValue : Tokenizing Unit := do
  match (← get).candidate? with
  | some k => do
    let start ← openBlock k.start.column .tableStart
    modify fun s =>
      { s with
        slots := s.slots.setIfInBounds k.slot (start ++ [.key])
        candidate? := none
        isFresh := false }
  | none => do
    openBlockHere .tableStart
    setFresh !(← inFlow)
  emitMark 1 .value

/-! ## Nodes -/

/-- Takes a token that may be or start a key on one line. -/
def readInline (reading : Reading YamlToken) : Tokenizing Unit := do
  proposeKey
  setFresh false
  emit (← ofReading reading)

/-- Takes a scalar in quotes. -/
def readQuoted (quote : Char) (fuel : Nat) : Tokenizing Unit := do
  readInline do return .scalar (← YamlText.readQuoted quote fuel) true
  modify fun s => { s with quotedEnd := s.cursor.index }

/-- Takes a scalar without quotes. -/
def readPlain (fuel : Nat) : Tokenizing Unit := do
  proposeKey
  let s ← get
  let (text, isFresh) ← ofReading (YamlText.readPlain (!s.outer.isEmpty) s.indent fuel)
  setFresh isFresh
  emit (.scalar text false)

/-- Takes a block of lines. -/
def readBlock (literal : Bool) (fuel : Nat) : Tokenizing Unit := do
  proposeKey
  setFresh true
  let text ← ofReading (YamlText.readBlock literal (← get).indent fuel)
  emit (.scalar text true)

/-! ## Texts -/

/-- Whether a colon stands in front of a value: white space follows it, or between brackets
something that structures them or, behind a scalar in quotes, anything. -/
def isValueMark (s : YamlTokenizer) (following : List Char) : Bool :=
  YamlText.startsBlank following ||
    (!s.outer.isEmpty &&
      ((following.head?.map YamlText.isFlowMark).getD false || s.cursor.index == s.quotedEnd))

/-- Takes the token in front of a text, given by its first character and the rest. -/
def readToken (fuel : Nat) (c : Char) (cs : List Char) : Tokenizing Unit := do
  let s ← get
  let flow := !s.outer.isEmpty
  if s.cursor.column == 0 && c == '%' then do
    leaveBlocks
    ofReading (YamlText.readDirective fuel)
    emit .directive
  else if s.cursor.atMark then do
    leaveBlocks
    emitMark 3 (if c == '-' then .documentStart else .documentEnd)
  else if c == '[' then readOpening .openBracket
  else if c == '\x7b' then readOpening .openBrace
  else if c == ']' then readClosing .closeBracket
  else if c == '\x7d' then readClosing .closeBrace
  else if c == ',' then readComma
  else if c == '-' && YamlText.startsBlank cs then readItem
  else if c == '?' && YamlText.startsBlank cs then readKey
  else if c == ':' && isValueMark s cs then readValue
  else if c == '*' then readInline do return .reuse (← YamlText.readName)
  else if c == '&' then readInline do return .anchor (← YamlText.readName)
  else if c == '!' then readInline do return .tag (← YamlText.readTag fuel)
  else if c == '|' && !flow then readBlock true fuel
  else if c == '>' && !flow then readBlock false fuel
  else if c == '\'' || c == '"' then readQuoted c fuel
  else if c == '%' || c == '@' || c == '\x60' then failure
  else readPlain fuel

/-- Takes all tokens of the text. -/
def readTokens : Nat → Tokenizing Unit
  | 0 => failure
  | fuel + 1 => do
    skip
    renewCandidates
    closeBlocks (Int.ofNat (← get).cursor.column)
    match (← get).cursor.rest with
    | [] => leaveBlocks
    | c :: cs => do
      readToken fuel c cs
      readTokens fuel

end Tokenizing

namespace YamlToken

/-- A text with every pair of a carriage return and a line feed as one line feed, up to the first
null character, which ends it. -/
def unifyLineEnds : List Char → List Char
  | '\r' :: '\n' :: cs => '\n' :: unifyLineEnds cs
  | c :: cs => if c.toNat == 0 then [] else c :: unifyLineEnds cs
  | [] => []

/-- The tokens of a text. -/
def ofText? (s : String) : Option (List YamlToken) :=
  let text := unifyLineEnds s.toList
  let start : YamlTokenizer := { cursor := { rest := text } }
  ((Tokenizing.readTokens (text.length + 2)).run start).map fun (_, final) =>
    final.slots.toList.flatten

end YamlToken

end FrameScript
