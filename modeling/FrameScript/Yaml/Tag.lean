import FrameScript.Text.Hex
import FrameScript.Yaml.Cursor

set_option autoImplicit false

/-!
# Names, tags and directives of YAML

What a document tells about its nodes and about itself. A node may be given a name, by which it can
be used again, and a tag, which tells what kind of node it is.

## Main definitions

* `YamlTag` — a tag.
* `YamlTag.read` — tags.
* `YamlText.readName` — names of nodes.
* `YamlText.readDirective` — lines that tell about the document. Nothing depends on them, but they
  have to be well formed.
-/

namespace FrameScript

/-- A tag in front of a node. -/
inductive YamlTag
  /-- A name behind one exclamation mark. -/
  | choice (name : String)
  /-- A name behind two exclamation marks. -/
  | standard (name : String)
  /-- Any other tag. -/
  | other
  deriving DecidableEq, Repr

namespace YamlText

/-! ## Names -/

/-- Whether the name of a node may end in front of a text. -/
def endsName (cs : List Char) : Bool :=
  startsBlank cs || "?:,]\x7d%@`".toList.any fun c => cs.head? == some c

/-- Reads the name of a node from the sign in front of it on. -/
def readName : Reading String := do
  Reading.drop 1
  let name ← Reading.takeWhile isNameChar
  Reading.require (!name.isEmpty && endsName (← Reading.rest))
  return String.ofList name

/-! ## Tags -/

/-- Whether a character may stand in a tag as it is. -/
def isTagChar (c : Char) : Bool :=
  isNameChar c || ";/?:@&=+$,.!~*'()[]".toList.contains c

/-- How many bytes a character has in UTF-8 whose first byte is given. -/
def byteCount? (byte : Nat) : Option Nat :=
  if byte < 0x80 then some 1
  else if byte < 0xC0 then none
  else if byte < 0xE0 then some 2
  else if byte < 0xF0 then some 3
  else if byte < 0xF8 then some 4
  else none

/-- The byte of an escape in front of a text, and what follows it. -/
def escapedByte? : List Char → Option (Nat × List Char)
  | '%' :: a :: b :: cs => (hexNumber? [a, b]).map (·, cs)
  | _ => none

/-- The bytes in front of a text that continue a character, with the number `code` that the bytes
before them make up. -/
def escapedFrom? (code : Nat) : Nat → List Char → Option (Nat × List Char)
  | 0, cs => some (code, cs)
  | n + 1, cs =>
    match escapedByte? cs with
    | some (byte, cs) =>
      if 0x80 ≤ byte && byte < 0xC0 then escapedFrom? (0x100 * code + byte) n cs else none
    | none => none

/-- The character that the escapes in front of a text stand for, and how many there are. The number
of the character is made up of its bytes, one behind the other. -/
def escapedChar? (cs : List Char) : Option (Char × Nat) := do
  let (byte, rest) ← escapedByte? cs
  let count ← byteCount? byte
  let (code, _) ← escapedFrom? byte (count - 1) rest
  if code.isValidChar then some (Char.ofNat code, count) else none

/-- Reads the part of a tag that names something, with what is read so far in reverse order. -/
def readTagName : Nat → List Char → Reading (List Char)
  | 0, _ => failure
  | fuel + 1, read => do
    match ← Reading.rest with
    | '%' :: cs => do
      let (c, count) ← escapedChar? ('%' :: cs)
      Reading.drop (3 * count)
      readTagName fuel (c :: read)
    | c :: _ =>
      if isTagChar c then do
        Reading.drop 1
        readTagName fuel (c :: read)
      else return read.reverse
    | [] => return read.reverse

/-- Reads a handle: the start of a tag, a name that may end with a second exclamation mark. The
answer is the name, and whether there is a second mark. -/
def readHandle : Reading (List Char × Bool) := do
  Reading.require ((← Reading.rest).head? == some '!')
  Reading.drop 1
  let name ← Reading.takeWhile isNameChar
  let isClosed := (← Reading.rest).head? == some '!'
  if isClosed then Reading.drop 1
  return (name, isClosed)

/-- Reads a tag up to white space. -/
def readTag (fuel : Nat) : Reading YamlTag := do
  let tag ← match ← Reading.rest with
    | '!' :: '<' :: _ => do
      Reading.drop 2
      let name ← readTagName fuel []
      Reading.require (!name.isEmpty && (← Reading.rest).head? == some '>')
      Reading.drop 1
      pure YamlTag.other
    | _ => do
      let (handle, isClosed) ← readHandle
      let name ← readTagName fuel []
      if isClosed then do
        Reading.require !name.isEmpty
        if handle.isEmpty then pure (YamlTag.standard (String.ofList name))
        else pure YamlTag.other
      else
        let name := handle ++ name
        pure (if name.isEmpty then YamlTag.other else YamlTag.choice (String.ofList name))
  Reading.require (startsBlank (← Reading.rest))
  return tag

/-! ## Directives -/

/-- Reads a part of a version: up to nine digits. -/
def readVersionPart : Reading Unit := do
  let digits ← Reading.takeWhile Char.isDigit
  Reading.require (!digits.isEmpty && digits.length < 10)

/-- Reads a version behind its name. -/
def readVersion : Reading Unit := do
  Reading.dropWhile isBlank
  readVersionPart
  Reading.require ((← Reading.rest).head? == some '.')
  Reading.drop 1
  readVersionPart

/-- Reads what a handle stands for: the handle and the start of a tag. -/
def readHandleMeaning (fuel : Nat) : Reading Unit := do
  Reading.dropWhile isBlank
  let (name, isClosed) ← readHandle
  Reading.require (isClosed || name.isEmpty)
  Reading.dropWhile isBlank
  let meaning ← readTagName fuel []
  Reading.require (!meaning.isEmpty && startsBlank (← Reading.rest))

/-- Reads a directive with its line. -/
def readDirective (fuel : Nat) : Reading Unit := do
  Reading.drop 1
  let name ← Reading.takeWhile isNameChar
  Reading.require (!name.isEmpty && startsBlank (← Reading.rest))
  if name == "YAML".toList then readVersion
  else if name == "TAG".toList then readHandleMeaning fuel
  else Reading.dropWhile (!isBreak ·)
  Reading.endLine

end YamlText

end FrameScript
