import FrameScript.Text.CharTables
import FrameScript.Text.CharClass

set_option autoImplicit false

/-!
# Letter case

Upper and lower case of a text over the whole of Unicode, without regard to any language.

## Main definitions

* `Text.upper` — every character by its upper case, which may be several characters.
* `Text.lower` — every character by its lower case; a capital sigma that ends a word becomes the
  final form of the letter.
-/

namespace FrameScript

namespace Text

/-! ## Single characters -/

/-- The mapping of a code point by a table of shifted runs, if a run holds it. -/
def shifted? (runs : List (Nat × Nat × Nat × Int)) (code : Nat) : Option Nat :=
  (runs.find? fun (first, last, step, _) =>
    first ≤ code && code ≤ last && (code - first) % step == 0).map
      fun (_, _, _, distance) => (Int.ofNat code + distance).toNat

/-- The upper case of one character. -/
def upperChar (c : Char) : List Char :=
  if c.toNat < 128 then [c.toUpper]
  else match upperExpansions.find? (·.1 == c.toNat) with
    | some (_, codes) => codes.map Char.ofNat
    | none => [Char.ofNat ((shifted? upperShifts c.toNat).getD c.toNat)]

/-- The lower case of one character away from the end of a word. Only the capital I with a dot
above becomes two characters. -/
def lowerChar (c : Char) : List Char :=
  if c.toNat < 128 then [c.toLower]
  else if c == 'İ' then ['i', Char.ofNat 0x307]
  else [Char.ofNat ((shifted? lowerShifts c.toNat).getD c.toNat)]

/-! ## Texts -/

/-- Whether the first character that is not passed over is a cased letter. -/
def meetsCased (cs : List Char) : Bool :=
  match cs.dropWhile (inRanges caseIgnorableRanges) with
  | [] => false
  | c :: _ => inRanges casedRanges c

/-- Lowers a text; `afterCased` tells whether the word before `cs` has shown a cased letter. A
capital sigma after such a letter and before none takes its final form. -/
def lowerFrom (afterCased : Bool) : List Char → List Char
  | [] => []
  | c :: cs =>
    let here :=
      if c == 'Σ' then (if afterCased && !meetsCased cs then ['ς'] else ['σ']) else lowerChar c
    let afterCased :=
      if inRanges caseIgnorableRanges c then afterCased else inRanges casedRanges c
    here ++ lowerFrom afterCased cs

/-- The text in upper case. -/
def upper (s : String) : String :=
  String.ofList (s.toList.flatMap upperChar)

/-- The text in lower case. -/
def lower (s : String) : String :=
  String.ofList (lowerFrom false s.toList)

end Text

end FrameScript
