import FrameScript.Decimal.Shortest

set_option autoImplicit false

/-!
# Floating point numbers as text

Finite doubles are written with the fewest digits that read back to the same number, positionally
in the middle of the range and scientifically outside it.

## Main definitions

* `FloatStyle` — what the two written forms differ in.
* `FloatStyle.json`, `FloatStyle.plain` — the form inside documents and the form a program prints.
* `FloatStyle.write` — the text of a finite double.
-/

namespace FrameScript

/-- The choices of a written form. -/
structure FloatStyle where
  /-- The least power of ten of a leading digit that is written positionally. -/
  leastPositional : Int
  /-- The least power of ten of a leading digit that is written scientifically again. -/
  leastScientific : Int
  /-- Whether a positive exponent shows its sign. -/
  plusSign : Bool
  deriving DecidableEq, Repr

namespace FloatStyle

/-- Inside documents a positive exponent has a plus sign. -/
def json : FloatStyle := ⟨-5, 16, true⟩

/-- Printed by a program, a positive exponent has none. -/
def plain : FloatStyle := ⟨-5, 16, false⟩

/-- Digits with a point in them, and at least one digit on both sides of it. -/
def positional (d : Decimal) : List Char :=
  let digits := Nat.toDigits 10 d.digits
  let leading := d.exponent + Int.ofNat digits.length
  if 0 ≤ d.exponent then digits ++ List.replicate d.exponent.toNat '0' ++ ['.', '0']
  else if 0 < leading then digits.take leading.toNat ++ '.' :: digits.drop leading.toNat
  else '0' :: '.' :: (List.replicate (-leading).toNat '0' ++ digits)

/-- One digit, the others behind a point if there are any, and the exponent. -/
def scientific (style : FloatStyle) (d : Decimal) : List Char :=
  let digits := Nat.toDigits 10 d.digits
  let exponent := d.exponent + Int.ofNat digits.length - 1
  let mantissa := match digits with
    | first :: second :: rest => first :: '.' :: second :: rest
    | short => short
  let sign := if exponent < 0 then ['-'] else if style.plusSign then ['+'] else []
  mantissa ++ 'e' :: (sign ++ Nat.toDigits 10 exponent.natAbs)

/-- The text of a positive decimal. -/
def writeDecimal (style : FloatStyle) (d : Decimal) : List Char :=
  let exponent := d.exponent + Int.ofNat (Nat.toDigits 10 d.digits).length - 1
  if style.leastPositional ≤ exponent && exponent < style.leastScientific then positional d
  else style.scientific d

/-- The text of a finite double; a negative zero keeps its sign. -/
def write (style : FloatStyle) (x : Float) : List Char :=
  let sign := if Binary64.isNegative x then ['-'] else []
  let magnitude := Binary64.ofFloat x
  if magnitude.mantissa == 0 then sign ++ ['0', '.', '0']
  else sign ++ style.writeDecimal magnitude.shortest

end FloatStyle

end FrameScript
