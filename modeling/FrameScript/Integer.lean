import FrameScript.Binary64.Basic

set_option autoImplicit false

/-!
# Exact 64-bit integers

Integers of 64 bits whose operations never wrap around: an operation is computed on the mathematical
integers and has a result only if that lies in range.

## Main definitions

* `Integer.ofInt?` — the 64-bit integer with a given value.
* `Integer.add?`, `Integer.sub?`, `Integer.mul?`, `Integer.neg?` — exact operations.
* `Integer.div?`, `Integer.mod?` — quotient toward zero and its remainder, for a nonzero divisor.
* `Integer.toFloat`, `Integer.ofFloat?` — conversions to and from doubles.
-/

namespace FrameScript

namespace Integer

/-- The 64-bit integer with the given value, if there is one. -/
def ofInt? (n : Int) : Option Int64 :=
  if Int64.minValue.toInt ≤ n ∧ n ≤ Int64.maxValue.toInt then some (Int64.ofInt n) else none

/-- The exact sum. -/
def add? (a b : Int64) : Option Int64 :=
  ofInt? (a.toInt + b.toInt)

/-- The exact difference. -/
def sub? (a b : Int64) : Option Int64 :=
  ofInt? (a.toInt - b.toInt)

/-- The exact product. -/
def mul? (a b : Int64) : Option Int64 :=
  ofInt? (a.toInt * b.toInt)

/-- The exact quotient, rounded toward zero. -/
def div? (a b : Int64) : Option Int64 :=
  ofInt? (a.toInt.tdiv b.toInt)

/-- The remainder `a - b * q` of the quotient `q` rounded toward zero. A quotient out of range
leaves no remainder either. -/
def mod? (a b : Int64) : Option Int64 :=
  (div? a b).bind fun _ => ofInt? (a.toInt.tmod b.toInt)

/-- The exact negation. -/
def neg? (a : Int64) : Option Int64 :=
  ofInt? (-a.toInt)

/-- The nearest double. -/
def toFloat (a : Int64) : Float :=
  if a < 0 then -(0 - a).toUInt64.toFloat else a.toUInt64.toFloat

/-- The integer part of a finite double, if it is a 64-bit integer. -/
def ofFloat? (x : Float) : Option Int64 :=
  if x.isFinite then ofInt? (Binary64.truncate x) else none

end Integer

end FrameScript
