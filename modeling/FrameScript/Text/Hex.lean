set_option autoImplicit false

/-!
# Hexadecimal digits

## Main definitions

* `hexValue?` — the value of a digit.
* `hexNumber?` — the number that digits write.
* `hexChar?` — the character whose code point digits write.
-/

namespace FrameScript

/-- The value of a hexadecimal digit. -/
def hexValue? (c : Char) : Option Nat :=
  if c.isDigit then some (c.toNat - '0'.toNat)
  else if 'a' ≤ c && c ≤ 'f' then some (c.toNat - 'a'.toNat + 10)
  else if 'A' ≤ c && c ≤ 'F' then some (c.toNat - 'A'.toNat + 10)
  else none

/-- The number that hexadecimal digits write. -/
def hexNumber? (cs : List Char) : Option Nat :=
  cs.foldlM (fun n c => (hexValue? c).map (16 * n + ·)) 0

/-- The character whose code point hexadecimal digits write. Surrogates and numbers beyond the last
code point are no characters. -/
def hexChar? (cs : List Char) : Option Char :=
  (hexNumber? cs).bind fun n => if n.isValidChar then some (Char.ofNat n) else none

end FrameScript
