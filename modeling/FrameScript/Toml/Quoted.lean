import FrameScript.Text.Hex

set_option autoImplicit false

/-!
# Quoted texts in TOML

Texts come in four forms: in double quotes with escapes or in single quotes as they stand, and
either on one line or, between tripled quotes, over several lines.

## Main definitions

* `TomlText.readLine` — a text on one line.
* `TomlText.read` — a text in any form.

Readers take the characters from the opening quote on, and return the text and what follows the
closing quote.
-/

namespace FrameScript

namespace TomlText

/-! ## Characters -/

/-- Whether a character may stand in a text or a comment: anything but control characters, except
for the tab. -/
def isAllowed (c : Char) : Bool :=
  c == '\t' || (c.toNat ≥ 0x20 && c.toNat != 0x7F)

/-- The character a single letter behind a backslash stands for. -/
def escaped? (c : Char) : Option Char :=
  if c == '"' || c == '\\' then some c
  else if c == 'n' then some '\n'
  else if c == 'r' then some '\r'
  else if c == 't' then some '\t'
  else if c == 'b' then some (Char.ofNat 8)
  else if c == 'f' then some (Char.ofNat 12)
  else if c == 'e' then some (Char.ofNat 27)
  else none

/-- Reads an escape behind its backslash. -/
def readEscape : List Char → Option (Char × List Char)
  | 'x' :: a :: b :: rest => (hexChar? [a, b]).map fun x => (x, rest)
  | 'u' :: a :: b :: c :: d :: rest => (hexChar? [a, b, c, d]).map fun x => (x, rest)
  | 'U' :: a :: b :: c :: d :: e :: f :: g :: h :: rest =>
    (hexChar? [a, b, c, d, e, f, g, h]).map fun x => (x, rest)
  | c :: rest => (escaped? c).map fun x => (x, rest)
  | [] => none

/-- Whether a character is a space or a tab. -/
def isBlank (c : Char) : Bool :=
  c == ' ' || c == '\t'

/-- Passes over a line end, if there is one. -/
def afterLineEnd? : List Char → Option (List Char)
  | '\n' :: cs => some cs
  | '\r' :: '\n' :: cs => some cs
  | _ => none

/-- Passes over blanks and line ends. -/
def skipSpace : List Char → List Char
  | '\r' :: '\n' :: cs => skipSpace cs
  | c :: cs => if isBlank c || c == '\n' then skipSpace cs else c :: cs
  | [] => []

/-! ## Texts on one line -/

/-- Reads up to a double quote; `read` is what is read so far, in reverse order. -/
def readBasic : Nat → List Char → List Char → Option (String × List Char)
  | 0, _, _ => none
  | _ + 1, _, [] => none
  | fuel + 1, read, c :: cs =>
    if c == '"' then some (String.ofList read.reverse, cs)
    else if c == '\\' then
      (readEscape cs).bind fun (x, rest) => readBasic fuel (x :: read) rest
    else if isAllowed c then readBasic fuel (c :: read) cs
    else none

/-- Reads up to a single quote. -/
def readLiteral (cs : List Char) : Option (String × List Char) :=
  match cs.span fun c => c != '\'' && isAllowed c with
  | (text, '\'' :: rest) => some (String.ofList text, rest)
  | _ => none

/-! ## Texts over several lines -/

/-- Reads the quotes that end a text: three of them, and up to two more that belong to the text. -/
def afterClosing? (quote : Char) : List Char → Option (List Char × List Char)
  | a :: b :: c :: cs =>
    if a == quote && b == quote && c == quote then
      match cs with
      | d :: e :: rest =>
        if d == quote && e == quote then some ([quote, quote], rest)
        else if d == quote then some ([quote], e :: rest)
        else some ([], cs)
      | [d] => if d == quote then some ([quote], []) else some ([], cs)
      | [] => some ([], [])
    else none
  | _ => none

/-- Reads up to tripled quotes; with double quotes, escapes count, and a backslash at the end of a
line joins it with the next. -/
def readLong (quote : Char) : Nat → List Char → List Char → Option (String × List Char)
  | 0, _, _ => none
  | _ + 1, _, [] => none
  | fuel + 1, read, c :: cs =>
    match afterClosing? quote (c :: cs) with
    | some (more, rest) => some (String.ofList (more ++ read).reverse, rest)
    | none =>
      match afterLineEnd? (c :: cs) with
      | some rest => readLong quote fuel ('\n' :: read) rest
      | none =>
        if c == '\\' && quote == '"' then
          match afterLineEnd? (cs.dropWhile isBlank) with
          | some rest => readLong quote fuel read (skipSpace rest)
          | none => (readEscape cs).bind fun (x, rest) => readLong quote fuel (x :: read) rest
        else if isAllowed c then readLong quote fuel (c :: read) cs
        else none

/-! ## Any text -/

/-- Reads a text on one line. -/
def readLine : List Char → Option (String × List Char)
  | '"' :: cs => readBasic (cs.length + 1) [] cs
  | '\'' :: cs => readLiteral cs
  | _ => none

/-- A line end right behind tripled quotes is not part of the text. -/
def skipFirstLineEnd (cs : List Char) : List Char :=
  (afterLineEnd? cs).getD cs

/-- Reads a text in any form. -/
def read : List Char → Option (String × List Char)
  | '"' :: '"' :: '"' :: cs => readLong '"' (cs.length + 1) [] (skipFirstLineEnd cs)
  | '\'' :: '\'' :: '\'' :: cs => readLong '\'' (cs.length + 1) [] (skipFirstLineEnd cs)
  | cs => readLine cs

end TomlText

end FrameScript
