import FrameScript.Text.CharTables

set_option autoImplicit false

/-!
# Character classes

Which characters are white space, letters and parts of a name, over the whole of Unicode.

## Main definitions

* `Text.isWhiteSpace`, `Text.isAlphabetic`, `Text.isAlphanumeric` — the classes a type name is
  read with.
* `Text.trimStart`, `Text.trimEnd`, `Text.trim` — a text without the white space around it.
* `Text.isIdentifier` — a letter or underscore, then letters, digits, underscores and dots.
-/

namespace FrameScript

namespace Text

/-! ## Membership in a table -/

/-- Whether `c` lies in one of the closed ranges. -/
def inRanges (ranges : List (Nat × Nat)) (c : Char) : Bool :=
  ranges.any fun range => range.1 ≤ c.toNat && c.toNat ≤ range.2

/-! ## The classes -/

/-- The property White_Space. -/
def isWhiteSpace (c : Char) : Bool :=
  inRanges whiteSpaceRanges c

/-- The property Alphabetic. -/
def isAlphabetic (c : Char) : Bool :=
  if c.toNat < 128 then c.isAlpha else inRanges alphabeticRanges c

/-- Alphabetic, or a number of any kind. -/
def isAlphanumeric (c : Char) : Bool :=
  if c.toNat < 128 then c.isAlphanum
  else inRanges alphabeticRanges c || inRanges numericRanges c

/-! ## Texts -/

/-- Drops the white space in front. -/
def trimStart (cs : List Char) : List Char :=
  cs.dropWhile isWhiteSpace

/-- Drops the white space behind. -/
def trimEnd (cs : List Char) : List Char :=
  (cs.reverse.dropWhile isWhiteSpace).reverse

/-- Drops the white space on both sides. -/
def trim (cs : List Char) : List Char :=
  trimEnd (trimStart cs)

/-- A character that may start a name. -/
def startsName (c : Char) : Bool :=
  isAlphabetic c || c == '_'

/-- A character that may continue a name. -/
def continuesName (c : Char) : Bool :=
  isAlphanumeric c || c == '_' || c == '.'

/-- A name: a letter or underscore, then letters, digits, underscores and dots. -/
def isIdentifier : List Char → Bool
  | [] => false
  | c :: cs => startsName c && cs.all continuesName

end Text

end FrameScript
