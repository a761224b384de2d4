import FrameScript.Binary64.Basic

set_option autoImplicit false

/-!
# Shortest decimals

The decimal with the fewest digits that reads back as a given floating point number, computed in
exact natural number arithmetic.

## Main definitions

* `Decimal` — a natural number of digits times a power of ten.
* `Binary64.shortest` — the shortest decimal in the interval of reals that round to it; of several
  of that length the nearest one, and of two equally near the one with an even last digit.

## Design

A decimal with `n` digits near a number lies on the grid of multiples of `10 ^ p`, where `p` is
fixed by the magnitude of the number. If any point of a grid rounds to the number, so does one of
the two grid points next to it, so only these two are tried, on ever finer grids.
-/

namespace FrameScript

/-! ## Decimals -/

/-- The number `digits · 10 ^ exponent`. -/
structure Decimal where
  /-- The digits, read as one natural number. -/
  digits : Nat
  /-- The power of ten the last digit stands at. -/
  exponent : Int
  deriving DecidableEq, Repr

/-- Moves up to `fuel` zeros at the end of the digits into the exponent. -/
def Decimal.dropZeros : Nat → Decimal → Decimal
  | 0, d => d
  | fuel + 1, d =>
    if d.digits % 10 == 0 && d.digits != 0 then
      dropZeros fuel ⟨d.digits / 10, d.exponent + 1⟩
    else d

/-! ## The shortest decimal -/

namespace Binary64

/-- How many decimal digits a natural number has. -/
def digitCount (n : Nat) : Nat :=
  (Nat.toDigits 10 n).length

/-- The largest `k` with `10 ^ k` at most the number. -/
def magnitude (b : Binary64) : Int :=
  let numerator := b.mantissa * Nat.pow 2 b.exponent.toNat
  let denominator := Nat.pow 2 (-b.exponent).toNat
  let guess : Int := Int.ofNat (digitCount numerator) - Int.ofNat (digitCount denominator)
  if denominator * Nat.pow 10 guess.toNat ≤ numerator * Nat.pow 10 (-guess).toNat then guess
  else guess - 1

/-- The point of the grid of multiples of `10 ^ p` that is nearest to the number among those that
round to it. -/
def nearestOnGrid? (b : Binary64) (p : Int) : Option Nat :=
  -- Quarters of the last bit, so that the ends of the interval are integers.
  let scale := Nat.pow 2 (b.exponent - 2).toNat * Nat.pow 10 (-p).toNat
  let unit := Nat.pow 2 (2 - b.exponent).toNat * Nat.pow 10 p.toNat
  let value := 4 * b.mantissa * scale
  let low := (4 * b.mantissa - if b.narrowBelow then 1 else 2) * scale
  let high := (4 * b.mantissa + 2) * scale
  let rounds (point : Nat) : Bool :=
    if b.mantissa % 2 == 0 then low ≤ point * unit && point * unit ≤ high
    else low < point * unit && point * unit < high
  let below := value / unit
  let above := below + 1
  match rounds below, rounds above with
  | false, false => none
  | true, false => some below
  | false, true => some above
  | true, true =>
    let down := value - below * unit
    let up := above * unit - value
    if down < up then some below
    else if up < down then some above
    else if below % 2 == 0 then some below else some above

/-- The shortest decimal that rounds to the number. Seventeen digits always suffice. -/
def shortest (b : Binary64) : Decimal :=
  let k := b.magnitude
  let tries := (List.range 17).findSome? fun n =>
    (b.nearestOnGrid? (k - Int.ofNat n)).map fun point => (⟨point, k - Int.ofNat n⟩ : Decimal)
  Decimal.dropZeros 17 (tries.getD ⟨0, 0⟩)

end Binary64

end FrameScript
