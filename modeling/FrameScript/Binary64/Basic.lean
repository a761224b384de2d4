set_option autoImplicit false

/-!
# Doubles as integers

The exact value of a finite double, as an integer times a power of two.

## Main definitions

* `Binary64` — a magnitude `mantissa · 2 ^ exponent`, and `Binary64.ofFloat`, that of a double.
* `Binary64.toFloat` — the double with a sign and a magnitude that is one exactly.
* `Binary64.truncate` — the integer part of a double.
* `Binary64.remainder` — the exact remainder of a division of doubles.
-/

namespace FrameScript

/-- The magnitude `mantissa · 2 ^ exponent`, with the mark of a power of two whose lower neighbour
is only half as far away as its upper one. -/
structure Binary64 where
  /-- The significand as an integer, below `2 ^ 53`. -/
  mantissa : Nat
  /-- The power of two the last bit stands at. -/
  exponent : Int
  /-- Whether the gap below is half the gap above. -/
  narrowBelow : Bool
  deriving DecidableEq, Repr

namespace Binary64

/-! ## Decoding and encoding -/

/-- Whether the sign bit is set, also that of a zero. -/
def isNegative (x : Float) : Bool :=
  x.toBits >>> 63 == 1

/-- The weight of the leading bit of a full mantissa, which is the 52nd power of two. -/
def leadingBit : Nat := 0x10000000000000

/-- The magnitude of a finite double, from its bits. -/
def ofFloat (x : Float) : Binary64 :=
  let bits := x.toBits.toNat
  let fraction := bits % leadingBit
  let biased := bits / leadingBit % 0x800
  if biased == 0 then ⟨fraction, -1074, false⟩
  else ⟨leadingBit + fraction, Int.ofNat biased - 1075, fraction == 0 && biased > 1⟩

/-- The double with the magnitude `mantissa · 2 ^ exponent`, for a mantissa below `2 ^ 53` and an
exponent of at least -1074 for which it is one. -/
def toFloat (negative : Bool) (mantissa : Nat) (exponent : Int) : Float :=
  -- Doubling the mantissa up to 53 bits, as far as the exponent allows.
  let shift := min (52 - mantissa.log2) (exponent + 1074).toNat
  let significand := mantissa * Nat.pow 2 shift
  let exponent := exponent - Int.ofNat shift
  let biased : Int := if significand < leadingBit then 0 else exponent + 1075
  let bits := biased.toNat * leadingBit + significand % leadingBit
  Float.ofBits (UInt64.ofNat (if negative then 0x8000000000000000 + bits else bits))

/-! ## Operations -/

/-- The integer part of a finite double. -/
def truncate (x : Float) : Int :=
  let b := ofFloat x
  let magnitude := b.mantissa * Nat.pow 2 b.exponent.toNat / Nat.pow 2 (-b.exponent).toNat
  if isNegative x then -Int.ofNat magnitude else Int.ofNat magnitude

/-- What is left of `x` after taking away `y` as often as possible, with the sign of `x`. It is
computed in units of the finer of the two last bits, so it is exact. -/
def remainder (x y : Float) : Float :=
  if x.isNaN || y.isNaN || x.isInf || y == 0.0 then 0.0 / 0.0
  else if y.isInf then x
  else
    let a := ofFloat x
    let b := ofFloat y
    let unit := min a.exponent b.exponent
    let rest := a.mantissa * Nat.pow 2 (a.exponent - unit).toNat %
      (b.mantissa * Nat.pow 2 (b.exponent - unit).toNat)
    toFloat (isNegative x) rest unit

end Binary64

end FrameScript
