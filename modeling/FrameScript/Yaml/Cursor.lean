set_option autoImplicit false

/-!
# Places in YAML text

Where a reader of YAML stands. Indentation carries meaning, and a key has to stand close to its
colon, so a place knows its column, its line and how far it is from the start.

## Main definitions

* `YamlPlace`, `YamlCursor` — a place, and a place with the text from there on.
* `YamlCursor.next` — the place behind one character.
* `YamlCursor.atMark` — whether a document starts or ends here.
* `Reading` — computations that move along and may fail.
-/

namespace FrameScript

/-! ## Characters -/

namespace YamlText

/-- Whether a character is a space or a tab. -/
def isBlank (c : Char) : Bool :=
  c == ' ' || c == '\t'

/-- Whether a character ends a line. -/
def isBreak (c : Char) : Bool :=
  c == '\n' || c == '\r'

/-- Whether a text starts with white space or ends here. -/
def startsBlank : List Char → Bool
  | [] => true
  | c :: _ => isBlank c || isBreak c

/-- Whether a text ends or goes on in another line. -/
def startsBreak : List Char → Bool
  | [] => true
  | c :: _ => isBreak c

/-- Whether a character structures a collection between brackets or braces. -/
def isFlowMark (c : Char) : Bool :=
  c == ',' || c == '[' || c == ']' || c == '\x7b' || c == '\x7d'

/-- Whether a character may stand in the name of a node, a handle or a directive. -/
def isNameChar (c : Char) : Bool :=
  c.isAlphanum || c == '-' || c == '_'

end YamlText

open YamlText

/-! ## Places -/

/-- A place in a text. -/
structure YamlPlace where
  /-- How many characters stand in front. -/
  index : Nat := 0
  /-- How many lines stand in front. -/
  line : Nat := 0
  /-- How many characters stand in front on the line. -/
  column : Nat := 0

/-- A place in a text, with what follows it. -/
structure YamlCursor extends YamlPlace where
  /-- The text from here on. -/
  rest : List Char

namespace YamlCursor

/-- The place behind one character. A carriage return ends a line, but the columns go on. -/
def next (p : YamlCursor) : YamlCursor :=
  match p.rest with
  | [] => p
  | '\n' :: cs => { rest := cs, index := p.index + 1, line := p.line + 1, column := 0 }
  | _ :: cs => { p with rest := cs, index := p.index + 1, column := p.column + 1 }

/-- The place behind a number of characters. -/
def advance (p : YamlCursor) : Nat → YamlCursor
  | 0 => p
  | n + 1 => (p.next).advance n

/-- The place behind the characters of a class at the front. -/
def skipWhile (p : YamlCursor) (inClass : Char → Bool) : YamlCursor :=
  p.advance (p.rest.takeWhile inClass).length

/-- Whether a document starts or ends here. -/
def atMark (p : YamlCursor) : Bool :=
  p.column == 0 &&
    match p.rest with
    | '-' :: '-' :: '-' :: cs => startsBlank cs
    | '.' :: '.' :: '.' :: cs => startsBlank cs
    | _ => false

end YamlCursor

/-! ## Computations -/

/-- Computations that move along a text and may fail. -/
abbrev Reading : Type → Type := StateT YamlCursor Option

namespace Reading

/-- Fails unless a condition holds. -/
def require (holds : Bool) : Reading Unit :=
  if holds then pure () else failure

/-- Passes over a number of characters. -/
def drop (n : Nat) : Reading Unit :=
  modify (·.advance n)

/-- Passes over the characters of a class. -/
def dropWhile (inClass : Char → Bool) : Reading Unit :=
  modify (·.skipWhile inClass)

/-- Reads the characters of a class. -/
def takeWhile (inClass : Char → Bool) : Reading (List Char) := do
  let taken := (← get).rest.takeWhile inClass
  drop taken.length
  return taken

/-- The text from the present place on. -/
def rest : Reading (List Char) := do
  return (← get).rest

/-- Passes over white space and a comment up to the end of the line. -/
def endLine : Reading Unit := do
  dropWhile isBlank
  if (← rest).head? == some '#' then dropWhile (!isBreak ·)
  require (startsBreak (← rest))
  drop 1

end Reading

end FrameScript
