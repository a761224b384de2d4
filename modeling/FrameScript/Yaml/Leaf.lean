import FrameScript.Decimal.Read
import FrameScript.Document.Basic
import FrameScript.Integer
import FrameScript.Text.Hex
import FrameScript.Yaml.Tag

set_option autoImplicit false

/-!
# YAML scalars

What a scalar of a YAML document stands for. A scalar in quotes is a text; one without is a number,
a truth value or null if it looks like one; a tag decides it otherwise. Where a text is wanted every
scalar is taken as it is written.

## Main definitions

* `YamlScalar.plain?` — what scalars without quotes stand for.
* `YamlTag.scalar?` — what scalars with a tag stand for.
* `Leaf.ofYaml` — the readings of a scalar.
-/

namespace FrameScript

namespace YamlScalar

/-! ## Integers -/

/-- The value of a digit of a base up to sixteen. -/
def digit? (base : Nat) (c : Char) : Option Nat :=
  (hexValue? c).filter (· < base)

/-- The number that digits of a base write. -/
def natural? (base : Nat) : List Char → Option Nat
  | [] => none
  | cs => cs.foldlM (fun n c => (digit? base c).map (base * n + ·)) 0

/-- The base that a letter behind a zero marks. -/
def markedBase? (c : Char) : Option Nat :=
  if c == 'x' then some 16
  else if c == 'o' then some 8
  else if c == 'b' then some 2
  else none

/-- The sign in front of a number, as whether it is a minus, and what follows it. -/
def sign : List Char → Bool × List Char
  | '-' :: cs => (true, cs)
  | '+' :: cs => (false, cs)
  | cs => (false, cs)

/-- The integer with the given sign and magnitude. -/
def signed (negative : Bool) (n : Nat) : Int :=
  if negative then -Int.ofNat n else Int.ofNat n

/-- Whether an integer fits into the given number of bits, with or without a sign. -/
def fits (bits : Nat) : Int → Bool
  | .ofNat n => n < Nat.pow 2 bits
  | .negSucc n => n < Nat.pow 2 (bits - 1)

/-- The integer with a mark of its base, if it fits. Behind the mark a plus may stand, unless there
is a minus in front. -/
def markedInt? (cs : List Char) : Option Int :=
  let (negative, cs) := sign cs
  match cs with
  | '0' :: mark :: digits =>
    let digits := match digits, negative with
      | '+' :: digits, false => digits
      | digits, _ => digits
    (markedBase? mark).bind fun base =>
      ((natural? base digits).map (signed negative)).filter (fits 64)
  | _ => none

/-- Whether these are digits behind a zero, which make no number. -/
def isPadded (cs : List Char) : Bool :=
  match (sign cs).2 with
  | '0' :: c :: digits => (c :: digits).all Char.isDigit
  | _ => false

/-- The decimal integer, of any size. -/
def decimalInt? (cs : List Char) : Option Int :=
  let (negative, digits) := sign cs
  (natural? 10 digits).map (signed negative)

/-! ## Floating point numbers -/

/-- The names of infinity. -/
def infinities : List String :=
  [".inf", ".Inf", ".INF"]

/-- The names of the undefined number. -/
def undefined : List String :=
  [".nan", ".NaN", ".NAN"]

/-- The floating point number that a text writes, if it is finite or one of the named ones. -/
def float? (s : String) : Option Float :=
  let cs := s.toList
  if infinities.contains (String.ofList (cs.dropWhile (· == '+'))) then some (1.0 / 0.0)
  else if cs.head? == some '-' && infinities.contains (String.ofList cs.tail) then
    some (-1.0 / 0.0)
  else if undefined.contains s then some (0.0 / 0.0)
  else (floatOfText? s).filter Float.isFinite

/-! ## Scalars without quotes -/

/-- The number that a text writes, or the text. An integer that does not fit into 64 bits has no
value unless it does not fit into 128 bits either, which makes it a floating point number. -/
def numberOrText (s : String) : Option Scalar :=
  let cs := s.toList
  let other : Option Scalar :=
    match float? s with
    | some x => some (.float x)
    | none => some (.str s)
  match markedInt? cs with
  | some n => some (.int n)
  | none =>
    if isPadded cs then some (.str s)
    else
      match decimalInt? cs with
      | some n =>
        if fits 64 n then some (.int n)
        else if fits 128 n then none
        else other
      | none => other

/-- What a scalar without quotes stands for. -/
def plain? (s : String) : Option Scalar :=
  if s == "~" || s == "null" then some .null
  else if s == "true" then some (.bool true)
  else if s == "false" then some (.bool false)
  else numberOrText s

end YamlScalar

/-! ## Tags -/

open YamlScalar in
/-- What a scalar with a tag stands for: a text, unless the tag is a standard one that tells
otherwise. -/
def YamlTag.scalar? (s : String) : YamlTag → Option Scalar
  | .standard "bool" =>
    if s == "true" then some (.bool true)
    else if s == "false" then some (.bool false)
    else none
  | .standard "int" =>
    ((decimalInt? s.toList).filter fun n => (Integer.ofInt? n).isSome).map Scalar.int
  | .standard "float" => (floatOfText? s).map Scalar.float
  | .standard "null" => if s == "~" || s == "null" then some .null else none
  | _ => some (.str s)

/-- The choice that a tag marks. -/
def YamlTag.choice? : YamlTag → Option String
  | .choice name => some name
  | _ => none

/-- The readings of a scalar with its text, its tag and whether it stands in quotes or is a block of
lines. -/
def Leaf.ofYaml (tag? : Option YamlTag) (isQuoted : Bool) (s : String) : Leaf where
  value? :=
    match tag? with
    | some tag => tag.scalar? s
    | none => if isQuoted then some (.str s) else YamlScalar.plain? s
  text? := some s
  choice? := tag?.bind YamlTag.choice?
  isQuoted := isQuoted

end FrameScript
