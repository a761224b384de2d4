import FrameScript.Text.Hex
import FrameScript.Yaml.Cursor

set_option autoImplicit false

/-!
# Texts of YAML scalars

How the text of a scalar is put together from its lines. Between two words on different lines, a
single line end counts as a space, and each further one as a line end.

## Main definitions

* `Gap`, `YamlText.readGap` — white space inside a scalar.
* `YamlText.readPlain` — scalars without quotes.
* `YamlText.readQuoted` — scalars in single or double quotes.
* `YamlText.readBlock` — blocks of lines behind a bar or an angle bracket.

## Implementation notes

The readers run on fuel. Each call passes over a character before it calls itself again, so the
length of the text always suffices.
-/

namespace FrameScript

/-! ## White space -/

/-- White space inside a scalar. -/
structure Gap where
  /-- The spaces and tabs in front of the first line end, in reverse order. -/
  blanks : List Char := []
  /-- How many line ends there are. -/
  breaks : Nat := 0
  /-- The leftmost column of a tab behind a line end. -/
  tab? : Option Nat := none

namespace Gap

/-- Whether there is no white space. -/
def isEmpty (g : Gap) : Bool :=
  g.blanks.isEmpty && g.breaks == 0

/-- The text that the gap counts as, in reverse order. -/
def text (g : Gap) : List Char :=
  match g.breaks with
  | 0 => g.blanks
  | 1 => [' ']
  | n + 2 => List.replicate (n + 1) '\n'

end Gap

namespace YamlText

/-- Reads white space from a place. -/
def gapFrom (g : Gap) (p : YamlCursor) : List Char → Gap × YamlCursor
  | [] => (g, p)
  | c :: cs =>
    if isBreak c then gapFrom { g with breaks := g.breaks + 1 } p.next cs
    else if isBlank c then
      if g.breaks == 0 then gapFrom { g with blanks := c :: g.blanks } p.next cs
      else if c == '\t' then
        gapFrom { g with tab? := some (min p.column (g.tab?.getD p.column)) } p.next cs
      else gapFrom g p.next cs
    else (g, p)

/-- Reads white space. -/
def readGap : Reading Gap :=
  modifyGet fun p => gapFrom {} p p.rest

/-! ## Scalars without quotes -/

/-- Whether a character of a scalar without quotes ends it: a colon with white space behind it, and
inside brackets whatever structures them. -/
def endsPlain (flow : Bool) : List Char → Bool
  | [] => true
  | ':' :: cs => startsBlank cs || (flow && (cs.head?.map isFlowMark).getD true)
  | c :: _ => flow && isFlowMark c

/-- Reads on in a scalar without quotes inside a block in the column `indent`; `read` is what is
read so far, in reverse order. White space behind the scalar is passed over, and the answer tells
whether there is a line end in it. -/
def readPlainFrom (flow : Bool) (indent : Int) : Nat → List Char → Reading (String × Bool)
  | 0, _ => failure
  | fuel + 1, read => do
    let gap ← readGap
    let p ← get
    let isTabbed := (gap.tab?.map fun column => decide (Int.ofNat column ≤ indent)).getD false
    Reading.require !isTabbed
    let isOutside := gap.breaks > 0 && !flow && Int.ofNat p.column ≤ indent
    let isComment := !gap.isEmpty && p.rest.head? == some '#'
    match p.rest with
    | [] => return (String.ofList read.reverse, gap.breaks > 0)
    | c :: _ =>
      if isOutside || isComment || p.atMark || endsPlain flow p.rest then
        return (String.ofList read.reverse, gap.breaks > 0)
      else do
        Reading.drop 1
        readPlainFrom flow indent fuel (c :: (gap.text ++ read))

/-- Reads a scalar without quotes. -/
def readPlain (flow : Bool) (indent : Int) (fuel : Nat) : Reading (String × Bool) :=
  readPlainFrom flow indent fuel []

/-! ## Scalars in quotes -/

/-- The character that a letter behind a backslash stands for. -/
def escaped? (c : Char) : Option Char :=
  match c with
  | '0' => some (Char.ofNat 0)
  | 'a' => some (Char.ofNat 7)
  | 'b' => some (Char.ofNat 8)
  | 't' | '\t' => some '\t'
  | 'n' => some '\n'
  | 'v' => some (Char.ofNat 0xB)
  | 'f' => some (Char.ofNat 0xC)
  | 'r' => some '\r'
  | 'e' => some (Char.ofNat 0x1B)
  | ' ' | '"' | '\'' | '\\' => some c
  | 'N' => some (Char.ofNat 0x85)
  | '_' => some (Char.ofNat 0xA0)
  | 'L' => some (Char.ofNat 0x2028)
  | 'P' => some (Char.ofNat 0x2029)
  | _ => none

/-- How many digits of a code point follow a letter behind a backslash. -/
def codeLength? (c : Char) : Option Nat :=
  match c with
  | 'x' => some 2
  | 'u' => some 4
  | 'U' => some 8
  | _ => none

/-- The character of an escape behind its backslash, and how long the escape is. -/
def escape? : List Char → Option (Char × Nat)
  | [] => none
  | c :: cs =>
    match codeLength? c with
    | some n =>
      let digits := cs.take n
      if digits.length == n then (hexChar? digits).map fun x => (x, n + 1) else none
    | none => (escaped? c).map fun x => (x, 1)

/-- Reads up to the closing quote; `read` is what is read so far, in reverse order. In double quotes
escapes count, and a backslash joins its line with the next one. -/
def readQuotedFrom (quote : Char) : Nat → List Char → Reading String
  | 0, _ => failure
  | fuel + 1, read => do
    let gap ← readGap
    let p ← get
    Reading.require !p.atMark
    let read := gap.text ++ read
    match p.rest with
    | [] => failure
    | c :: cs =>
      if c == quote then
        if quote == '\'' && cs.head? == some quote then do
          Reading.drop 2
          readQuotedFrom quote fuel (quote :: read)
        else do
          Reading.drop 1
          return String.ofList read.reverse
      else if c == '\\' && quote == '"' then
        if (cs.head?.map isBreak).getD false then do
          Reading.drop 2
          let joined ← readGap
          readQuotedFrom quote fuel (List.replicate joined.breaks '\n' ++ read)
        else
          match escape? cs with
          | some (x, n) => do
            Reading.drop (n + 1)
            readQuotedFrom quote fuel (x :: read)
          | none => failure
      else do
        Reading.drop 1
        readQuotedFrom quote fuel (c :: read)

/-- Reads a scalar in quotes from its opening quote on. -/
def readQuoted (quote : Char) (fuel : Nat) : Reading String := do
  Reading.drop 1
  readQuotedFrom quote fuel []

/-! ## Blocks of lines -/

/-- What becomes of the line ends behind the last line of a block. -/
inductive Chomping
  /-- All are dropped. -/
  | strip
  /-- One stays. -/
  | clip
  /-- All stay. -/
  | keep
  deriving DecidableEq, Repr

/-- Reads the marks behind the sign that starts a block: what to do with the line ends at its end,
and how far in its lines are. -/
def blockMarks? : List Char → Option (Chomping × Nat × List Char)
  | cs =>
    let chomping? : List Char → Chomping × List Char
      | '+' :: cs => (.keep, cs)
      | '-' :: cs => (.strip, cs)
      | cs => (.clip, cs)
    let (before, cs) := chomping? cs
    let (digit, cs) := match cs with
      | c :: rest => if c.isDigit then (some (c.toNat - '0'.toNat), rest) else (none, cs)
      | [] => (none, [])
    let (behind, cs) := if before == .clip && digit.isSome then chomping? cs else (.clip, cs)
    if digit == some 0 then none
    else some (if before == .clip then behind else before, digit.getD 0, cs)

/-- Reads the marks, and passes over a comment up to the end of the line. -/
def readBlockMarks : Reading (Chomping × Nat) := do
  let marked := (← Reading.rest).take 2
  match blockMarks? marked with
  | none => failure
  | some (chomping, increment, cs) => do
    Reading.drop (marked.length - cs.length)
    Reading.endLine
    return (chomping, increment)

/-- Passes over the indentation of a line, as far as it belongs to a block in the column `indent`,
or as far as it goes where that is not known, and over empty lines. The answer is how many these are
and how far in the widest was. -/
def readBreaks (indent? : Option Nat) : Nat → Nat → Nat → Reading (Nat × Nat)
  | 0, _, _ => failure
  | fuel + 1, breaks, widest => do
    let p ← get
    let width := (p.rest.takeWhile (· == ' ')).length
    Reading.drop ((indent?.map fun indent => min width (indent - p.column)).getD width)
    let p ← get
    let widest := max widest p.column
    let isShort := (indent?.map fun indent => decide (p.column < indent)).getD true
    match p.rest with
    | [] => return (breaks, widest)
    | c :: _ =>
      if isBreak c then do
        Reading.drop 1
        readBreaks indent? fuel (breaks + 1) widest
      else do
        Reading.require !(c == '\t' && isShort)
        return (breaks, widest)

/-- A block of lines, as far as it is read. -/
structure BlockText where
  /-- The text up to the last line, in reverse order. -/
  read : List Char := []
  /-- Whether a line end waits behind the last line. -/
  hasBreak : Bool := false
  /-- How many empty lines wait behind it. -/
  breaks : Nat := 0
  /-- Whether the last line starts with white space. -/
  isIndented : Bool := false

namespace BlockText

/-- Adds a line. In a folded block the line end in front of it is a space, or nothing where empty
lines follow that line end, unless one of the two lines starts with white space. -/
def addLine (literal : Bool) (line : List Char) (b : BlockText) : BlockText :=
  let isIndented := (line.head?.map isBlank).getD false
  let folds := !literal && b.hasBreak && !b.isIndented && !isIndented
  let joint :=
    if folds then if b.breaks == 0 then [' '] else []
    else if b.hasBreak then ['\n']
    else []
  { read := line.reverse ++ (List.replicate b.breaks '\n' ++ (joint ++ b.read)), isIndented }

/-- The text of the block. -/
def text (chomping : Chomping) (b : BlockText) : String :=
  let last := if chomping != .strip && b.hasBreak then ['\n'] else []
  let more := if chomping == .keep then List.replicate b.breaks '\n' else []
  String.ofList (more ++ (last ++ b.read)).reverse

end BlockText

/-- Reads the lines of a block in the column `indent`. -/
def readBlockLines (literal : Bool) (indent : Nat) : Nat → BlockText → Reading BlockText
  | 0, _ => failure
  | fuel + 1, b => do
    let p ← get
    if p.column != indent || p.rest.isEmpty then return b
    else do
      let line ← Reading.takeWhile (!isBreak ·)
      let b := b.addLine literal line
      if (← Reading.rest).isEmpty then return b
      else do
        Reading.drop 1
        let (breaks, _) ← readBreaks (some indent) fuel 0 0
        readBlockLines literal indent fuel { b with hasBreak := true, breaks }

/-- Reads a block of lines from the sign that starts it on, inside a block in the column
`indent`. -/
def readBlock (literal : Bool) (indent : Int) (fuel : Nat) : Reading String := do
  Reading.drop 1
  let (chomping, increment) ← readBlockMarks
  let declared? := if increment == 0 then none else some ((max indent 0).toNat + increment)
  let (breaks, widest) ← readBreaks declared? fuel 0 0
  let column := declared?.getD (max widest (max (indent + 1).toNat 1))
  let b ← readBlockLines literal column fuel { breaks }
  return b.text chomping

end YamlText

end FrameScript
