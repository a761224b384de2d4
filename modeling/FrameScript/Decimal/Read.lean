set_option autoImplicit false

/-!
# Reading decimals

Texts of floating point numbers and the doubles they stand for.

## Main definitions

* `DecimalText` — a scanned decimal: sign, digits and exponent.
* `DecimalText.nearest` — the double nearest to it, ties going to the even one.
* `floatOfText?` — the free-standing form of a number: an optional sign, then digits with an
  optional point and exponent, or the name of an infinity or of the undefined number.
-/

namespace FrameScript

/-! ## Digits -/

/-- The value of a decimal digit. -/
def digitValue (c : Char) : Nat :=
  c.toNat - '0'.toNat

/-- The natural number that a list of decimal digits writes. -/
def ofDigits (cs : List Char) : Nat :=
  cs.foldl (fun n c => 10 * n + digitValue c) 0

/-- The decimal digits at the front, and what follows them. -/
def spanDigits (cs : List Char) : List Char × List Char :=
  cs.span Char.isDigit

/-! ## Scanned decimals -/

/-- A decimal as written: the digits before and behind the point, and the power of ten. -/
structure DecimalText where
  /-- Whether it has a minus sign. -/
  negative : Bool
  /-- The digits before the point. -/
  whole : List Char
  /-- The digits behind the point. -/
  fraction : List Char
  /-- The written exponent. -/
  exponent : Int
  deriving DecidableEq, Repr

namespace DecimalText

/-- The nearest double. Exponents far outside the range of doubles are decided without computing
the power. -/
def nearest (d : DecimalText) : Float :=
  let digits := ofDigits (d.whole ++ d.fraction)
  let exponent := d.exponent - Int.ofNat d.fraction.length
  let size : Int := exponent + Int.ofNat (d.whole ++ d.fraction).length
  let magnitude : Float :=
    if digits == 0 || size < -400 then 0.0
    else if exponent > 400 then 1.0 / 0.0
    else Float.ofScientific digits (exponent < 0) exponent.natAbs
  if d.negative then -magnitude else magnitude

/-- Reads an exponent behind its mark: a sign if there is one, and at least one digit. -/
def exponent? (cs : List Char) : Option (Int × List Char) :=
  let (negative, cs) := match cs with
    | '-' :: rest => (true, rest)
    | '+' :: rest => (false, rest)
    | rest => (false, rest)
  match spanDigits cs with
  | ([], _) => none
  | (digits, rest) =>
    let n := Int.ofNat (ofDigits digits)
    some (if negative then -n else n, rest)

/-- Reads digits with an optional point and an optional exponent that make up all of `cs`. At least
one digit is needed, on either side of the point. -/
def ofUnsigned? (negative : Bool) (cs : List Char) : Option DecimalText :=
  let (whole, cs) := spanDigits cs
  let (fraction, cs) := match cs with
    | '.' :: rest => spanDigits rest
    | rest => ([], rest)
  if whole.isEmpty && fraction.isEmpty then none
  else match cs with
    | [] => some ⟨negative, whole, fraction, 0⟩
    | c :: rest =>
      if c == 'e' || c == 'E' then
        match exponent? rest with
        | some (exponent, []) => some ⟨negative, whole, fraction, exponent⟩
        | _ => none
      else none

end DecimalText

/-! ## Numbers -/

/-- The double that a text writes: a decimal, or a name of an infinity or of the undefined number
in any letter case. -/
def floatOfText? (s : String) : Option Float :=
  let (negative, cs) := match s.toList with
    | '-' :: rest => (true, rest)
    | '+' :: rest => (false, rest)
    | rest => (false, rest)
  match String.ofList (cs.map Char.toLower) with
  | "inf" | "infinity" => some (if negative then -1.0 / 0.0 else 1.0 / 0.0)
  | "nan" => some (0.0 / 0.0)
  | _ => (DecimalText.ofUnsigned? negative cs).map DecimalText.nearest

end FrameScript
