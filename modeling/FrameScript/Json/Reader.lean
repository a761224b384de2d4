import FrameScript.Json.Number
import FrameScript.Text.Hex

set_option autoImplicit false

/-!
# Reading JSON text

A strict reader of JSON text. What is malformed makes the whole text unreadable; what is well
formed but has no value, such as a number that is too large, an unpaired surrogate or an array
inside too many others, makes only that part unreadable, and matters only to those who ask for it.

## Main definitions

* `Document.ofJsonText?` — the raw document of a text.
* `Json.maxNesting` — how many arrays and objects may contain each other.
* `Json.parse?` — the free-form document of a text.

## Implementation notes

The readers run on fuel. A reader of a value consumes a character before it calls the reader of the
parts of a value, and each of these consumes one before it calls itself again, so twice the length
of the text always suffices.
-/

namespace FrameScript

namespace Json

/-- How many arrays and objects may contain each other. -/
def maxNesting : Nat := 127

end Json

namespace JsonText

/-! ## Characters -/

/-- Passes over the white space at the front. -/
def skipBlank : List Char → List Char
  | [] => []
  | c :: cs => if c == ' ' || c == '\n' || c == '\t' || c == '\r' then skipBlank cs else c :: cs

/-- A code unit that starts a surrogate pair. -/
def isHighSurrogate (code : Nat) : Bool :=
  0xD800 ≤ code && code < 0xDC00

/-- A code unit that ends a surrogate pair. -/
def isLowSurrogate (code : Nat) : Bool :=
  0xDC00 ≤ code && code < 0xE000

/-- The character that a surrogate pair stands for. -/
def ofSurrogates (high low : Nat) : Char :=
  Char.ofNat (0x10000 + (high - 0xD800) * 0x400 + (low - 0xDC00))

/-- The character that a letter behind a backslash stands for. -/
def escaped? (c : Char) : Option Char :=
  if c == '"' || c == '\\' || c == '/' then some c
  else if c == 'n' then some '\n'
  else if c == 'r' then some '\r'
  else if c == 't' then some '\t'
  else if c == 'b' then some (Char.ofNat 8)
  else if c == 'f' then some (Char.ofNat 12)
  else none

/-! ## Quoted texts -/

/-- Reads a quoted text behind its opening quote, with what is read so far in reverse order. The
text is missing from the result if an unpaired surrogate makes it unsound. -/
def readString (read : List Char) (sound : Bool) :
    List Char → Option (Option String × List Char)
  | [] => none
  | c :: cs =>
    if c == '"' then
      some (if sound then some (String.ofList read.reverse) else none, cs)
    else if c == '\\' then
      match cs with
      | [] => none
      | 'u' :: a :: b :: c :: d :: rest =>
        match hexNumber? [a, b, c, d] with
        | none => none
        | some high =>
          if isHighSurrogate high then
            match rest with
            | '\\' :: 'u' :: a :: b :: c :: d :: rest =>
              match hexNumber? [a, b, c, d] with
              | none => none
              | some low =>
                if isLowSurrogate low then readString (ofSurrogates high low :: read) sound rest
                else readString read false rest
            | rest => readString read false rest
          else if isLowSurrogate high then readString read false rest
          else readString (Char.ofNat high :: read) sound rest
      | e :: rest =>
        match escaped? e with
        | none => none
        | some char => readString (char :: read) sound rest
    else if c.toNat < 32 then none
    else readString (c :: read) sound cs

/-! ## Documents -/

/-- A container, if there is room for one more inside those around it. -/
def inRoom (room : Nat) (d : Document) : Document :=
  if room == 0 then .unreadable else d

/-- The document of a number. -/
def ofNumber (t : NumberText) : Document :=
  .leaf { value? := t.scalar?, text? := none, choice? := none }

/-- The document of a quoted text. -/
def ofString : Option String → Document
  | some s => .ofText s
  | none => .unreadable

mutual

/-- Reads a value at the front of a text; `room` more containers may be entered. -/
def readValue : Nat → Nat → List Char → Option (Document × List Char)
  | 0, _, _ => none
  | fuel + 1, room, cs =>
    match skipBlank cs with
    | [] => none
    | '"' :: rest => (readString [] true rest).map fun (s, rest) => (ofString s, rest)
    | '[' :: rest =>
      match skipBlank rest with
      | ']' :: rest => some (inRoom room (.list []), rest)
      | rest => (readItems fuel (room - 1) [] rest).map fun (items, rest) =>
          (inRoom room (.list items), rest)
    | '{' :: rest =>
      match skipBlank rest with
      | '}' :: rest => some (inRoom room (.table []), rest)
      | rest => (readEntries fuel (room - 1) [] rest).map fun (entries, rest) =>
          (inRoom room (.table entries), rest)
    | 'n' :: 'u' :: 'l' :: 'l' :: rest => some (.ofScalar .null, rest)
    | 't' :: 'r' :: 'u' :: 'e' :: rest => some (.ofScalar (.bool true), rest)
    | 'f' :: 'a' :: 'l' :: 's' :: 'e' :: rest => some (.ofScalar (.bool false), rest)
    | cs => (NumberText.read? cs).map fun (t, rest) => (ofNumber t, rest)

/-- Reads the items of an array up to its end, with those read so far in reverse order. -/
def readItems : Nat → Nat → List Document → List Char → Option (List Document × List Char)
  | 0, _, _, _ => none
  | fuel + 1, room, read, cs =>
    match readValue fuel room cs with
    | none => none
    | some (item, cs) =>
      match skipBlank cs with
      | ',' :: rest => readItems fuel room (item :: read) rest
      | ']' :: rest => some ((item :: read).reverse, rest)
      | _ => none

/-- Reads the members of an object up to its end, with those read so far in reverse order. -/
def readEntries : Nat → Nat → List (Document × Document) → List Char →
    Option (List (Document × Document) × List Char)
  | 0, _, _, _ => none
  | fuel + 1, room, read, cs =>
    match skipBlank cs with
    | '"' :: cs =>
      match readString [] true cs with
      | none => none
      | some (key, cs) =>
        match skipBlank cs with
        | ':' :: cs =>
          match readValue fuel room cs with
          | none => none
          | some (value, cs) =>
            match skipBlank cs with
            | ',' :: rest => readEntries fuel room ((ofString key, value) :: read) rest
            | '}' :: rest => some (((ofString key, value) :: read).reverse, rest)
            | _ => none
        | _ => none
    | _ => none

end

/-- Reads a text that holds one value and white space, with `room` for nested containers. -/
def read? (room : Nat) (s : String) : Option Document :=
  let cs := s.toList
  match readValue (2 * cs.length + 2) room cs with
  | some (d, rest) => if (skipBlank rest).isEmpty then some d else none
  | none => none

end JsonText

/-- The raw document of a JSON text. -/
def Document.ofJsonText? (s : String) : Option Document :=
  JsonText.read? Json.maxNesting s

/-- The free-form document of a JSON text. -/
def Json.parse? (s : String) : Option Json :=
  (Document.ofJsonText? s).bind Document.toJson?

end FrameScript
