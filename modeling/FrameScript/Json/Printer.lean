import FrameScript.Decimal.FloatText
import FrameScript.Json.Basic

set_option autoImplicit false

/-!
# Printing JSON

The compact text of a document: no white space, members in order, and only quotes, backslashes and
control characters escaped.

## Main definitions

* `Json.write` — the text of a document in front of a given text.
* `Json.text` — the text of a document.

## Implementation notes

Every printer puts its output in front of a given rest. No text is copied twice, and a statement
about a printer and a reader needs no append.
-/

namespace FrameScript

namespace Json

/-! ## Scalars -/

/-- The decimal text of an integer. -/
def intText (n : Int) : List Char :=
  if n < 0 then '-' :: Nat.toDigits 10 n.natAbs else Nat.toDigits 10 n.natAbs

/-- A character inside a quoted text. -/
def writeChar (c : Char) (rest : List Char) : List Char :=
  if c == '"' then '\\' :: '"' :: rest
  else if c == '\\' then '\\' :: '\\' :: rest
  else if c == '\n' then '\\' :: 'n' :: rest
  else if c == '\r' then '\\' :: 'r' :: rest
  else if c == '\t' then '\\' :: 't' :: rest
  else if c.toNat == 8 then '\\' :: 'b' :: rest
  else if c.toNat == 12 then '\\' :: 'f' :: rest
  else if c.toNat < 32 then
    '\\' :: 'u' :: '0' :: '0' ::
      Nat.digitChar (c.toNat / 16) :: Nat.digitChar (c.toNat % 16) :: rest
  else c :: rest

/-- The characters of a quoted text and its closing quote. -/
def writeChars (cs : List Char) (rest : List Char) : List Char :=
  cs.foldr writeChar ('"' :: rest)

/-- A quoted text. -/
def writeString (s : String) (rest : List Char) : List Char :=
  '"' :: writeChars s.toList rest

/-! ## Documents -/

mutual

/-- The text of a document, in front of `rest`. -/
def write : Json → List Char → List Char
  | .null, rest => 'n' :: 'u' :: 'l' :: 'l' :: rest
  | .bool true, rest => 't' :: 'r' :: 'u' :: 'e' :: rest
  | .bool false, rest => 'f' :: 'a' :: 'l' :: 's' :: 'e' :: rest
  | .int n, rest => intText n ++ rest
  | .float x, rest => FloatStyle.json.write x.val ++ rest
  | .str s, rest => writeString s rest
  | .arr [], rest => '[' :: ']' :: rest
  | .arr (item :: items), rest => '[' :: write item (writeItems items (']' :: rest))
  | .obj [], rest => '{' :: '}' :: rest
  | .obj ((name, value) :: members), rest =>
    '{' :: writeString name (':' :: write value (writeMembers members ('}' :: rest)))

/-- The items of an array behind its first, each after a comma. -/
def writeItems : List Json → List Char → List Char
  | [], rest => rest
  | item :: items, rest => ',' :: write item (writeItems items rest)

/-- The members of an object behind its first, each after a comma. -/
def writeMembers : List (String × Json) → List Char → List Char
  | [], rest => rest
  | (name, value) :: members, rest =>
    ',' :: writeString name (':' :: write value (writeMembers members rest))

end

/-- The compact text of a document. -/
def text (j : Json) : String :=
  String.ofList (j.write [])

end Json

end FrameScript
