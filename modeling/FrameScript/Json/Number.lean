import FrameScript.Decimal.Read
import FrameScript.Document.Basic

set_option autoImplicit false

/-!
# Numbers in JSON text

The grammar of numbers and the scalar each one stands for.

## Main definitions

* `NumberText` — the parts of a written number.
* `NumberText.read?` — a number at the front of a text.
* `NumberText.scalar?` — the integer, or the double: the digits that fit 64 bits, scaled by a power
  of ten in floating point arithmetic. A number beyond the largest double stands for nothing.
-/

namespace FrameScript

/-- A number as written. -/
structure NumberText where
  /-- Whether it has a minus sign. -/
  negative : Bool
  /-- The digits before the point. -/
  whole : List Char
  /-- The digits behind the point, if it has one. -/
  fraction? : Option (List Char)
  /-- The sign and the digits of the exponent, if it has one. -/
  exponent? : Option (Bool × List Char)
  deriving DecidableEq, Repr

namespace NumberText

/-! ## Grammar -/

/-- The digits before the point: a single zero, or digits that start with none. -/
def readWhole? (cs : List Char) : Option (List Char × List Char) :=
  match spanDigits cs with
  | ([], _) => none
  | ('0' :: _ :: _, _) => none
  | found => some found

/-- A point with at least one digit, or nothing. -/
def readFraction? : List Char → Option (Option (List Char) × List Char)
  | '.' :: cs =>
    match spanDigits cs with
    | ([], _) => none
    | (digits, rest) => some (some digits, rest)
  | cs => some (none, cs)

/-- The sign of an exponent. -/
def readSign : List Char → Bool × List Char
  | '-' :: cs => (true, cs)
  | '+' :: cs => (false, cs)
  | cs => (false, cs)

/-- An exponent mark with an optional sign and at least one digit, or nothing. -/
def readExponent? : List Char → Option (Option (Bool × List Char) × List Char)
  | [] => some (none, [])
  | c :: cs =>
    if c == 'e' || c == 'E' then
      let (negative, cs) := readSign cs
      match spanDigits cs with
      | ([], _) => none
      | (digits, rest) => some (some (negative, digits), rest)
    else some (none, c :: cs)

/-- A number behind its sign. -/
def readUnsigned? (negative : Bool) (cs : List Char) : Option (NumberText × List Char) := do
  let (whole, cs) ← readWhole? cs
  let (fraction?, cs) ← readFraction? cs
  let (exponent?, cs) ← readExponent? cs
  some (⟨negative, whole, fraction?, exponent?⟩, cs)

/-- The number at the front of a text, and the rest. -/
def read? : List Char → Option (NumberText × List Char)
  | '-' :: cs => readUnsigned? true cs
  | cs => readUnsigned? false cs

/-! ## Value -/

/-- Appends digits to a number as long as it fits into 64 bits, and returns those left over. -/
def absorb : Nat → List Char → Nat × List Char
  | n, [] => (n, [])
  | n, d :: ds =>
    let next := 10 * n + digitValue d
    if next < UInt64.size then absorb next ds else (n, d :: ds)

/-- The double nearest to a power of ten. -/
def powerOfTen (n : Nat) : Float :=
  Float.ofScientific 1 false n

/-- Scales a number by a power of ten, at most 308 places at a time. Beyond the largest double there
is no result; after four steps down nothing is left of a 64-bit number. -/
def scale? : Nat → Float → Int → Option Float
  | 0, _, _ => some 0.0
  | fuel + 1, x, exponent =>
    if exponent.natAbs ≤ 308 then
      if 0 ≤ exponent then
        let y := x * powerOfTen exponent.natAbs
        if y.isInf then none else some y
      else some (x / powerOfTen exponent.natAbs)
    else if x == 0.0 then some x
    else if 0 ≤ exponent then none
    else scale? fuel (x / powerOfTen 308) (exponent + 308)

/-- The magnitude of a number with a point or an exponent, or one too long for an integer. -/
def magnitude? (significand : Nat) (places : Int) (exponent? : Option (Bool × List Char)) :
    Option Float :=
  let x := (UInt64.ofNat significand).toFloat
  match exponent? with
  | none => scale? 5 x places
  | some (negative, digits) =>
    let n := ofDigits digits
    if n < 0x80000000 then
      scale? 5 x (if negative then places - Int.ofNat n else places + Int.ofNat n)
    else if significand != 0 && !negative then none
    else some 0.0

/-- The scalar a number stands for. -/
def scalar? (t : NumberText) : Option Scalar :=
  let (whole, skipped) := absorb 0 t.whole
  let signed (x : Float) : Float := if t.negative then -x else x
  match t.fraction?, t.exponent?, skipped with
  | none, none, [] =>
    if !t.negative then some (.int (Int.ofNat whole))
    else if whole == 0 || 0x8000000000000000 < whole then
      some (.float (-(UInt64.ofNat whole).toFloat))
    else some (.int (-Int.ofNat whole))
  | fraction?, exponent?, skipped =>
    let fraction := fraction?.getD []
    let (significand, unread) := absorb whole fraction
    let places := Int.ofNat skipped.length - Int.ofNat (fraction.length - unread.length)
    (magnitude? significand places exponent?).map fun x => .float (signed x)

end NumberText

end FrameScript
