import Mathlib

set_option autoImplicit false

/-!
# Doubles of whole numbers

A whole number of 64 bits, with or without a sign, is far below the largest double, so the double
nearest to it is finite. The proof follows the exponent through the steps of the conversion. Packing
a number turns it into an infinity only if the exponent does not fit, and rounding raises the
exponent by no more than the length of the mantissa.

## Main definitions

* `ExponentAtMost` — a zero, or a number whose exponent is bounded.

## Main results

* `isFinite_iff_exponentAtMost` — which doubles are finite.
* `isFinite_ofInt` — the double of a whole number of 64 bits is finite.
-/

namespace FrameScript

open Float.Model

/-- A zero, or a number whose exponent is at most `bound`. -/
def ExponentAtMost (bound : Int) : UnpackedFloat → Prop
  | .zero _ => True
  | .finite _ _ exponent _ => exponent ≤ bound
  | _ => False

/-! ## Packing -/

theorem exponentAtMost_unpack_packComponents {bound : Int} (hlow : -1074 ≤ bound)
    (sign : UnpackedFloat.Sign) (biased : BitVec 11) (mantissa : BitVec 52)
    (hbound : (biased.toNat : Int) ≤ bound + 1075) (hbiased : biased.toNat < 2047) :
    ExponentAtMost bound (UnpackedFloat.unpack .binary64
      (UnpackedFloat.packComponents .binary64 sign biased mantissa)) := by
  have hne : biased ≠ -1#_ := by
    rintro rfl
    exact absurd hbiased (by decide)
  have hbias : (Format.binary64.exponentBias : Int) = 1023 := by decide
  simp only [UnpackedFloat.unpack, UnpackedFloat.unpackExponent_packComponents,
    UnpackedFloat.unpackMantissa_packComponents, if_neg hne, hbias]
  split_ifs with hzero hfraction
  · trivial
  · subst hzero
    simpa [ExponentAtMost] using hlow
  · simp only [ExponentAtMost]
    push_cast
    omega

/-- A number whose exponent fits is packed as it is. -/
theorem exponentAtMost_unpack_pack {bound : Int} (hlow : -1074 ≤ bound) (hhigh : bound ≤ 971)
    {x : UnpackedFloat} (hx : ExponentAtMost bound x) :
    ExponentAtMost bound (UnpackedFloat.unpack .binary64 (UnpackedFloat.pack .binary64 x)) := by
  have hbias : (Format.binary64.exponentBias : Int) = 1023 := by decide
  match x, hx with
  | .zero sign, _ =>
    exact exponentAtMost_unpack_packComponents hlow sign 0 0 (by simpa using by omega) (by decide)
  | .finite sign m e hm, hx =>
    simp only [ExponentAtMost] at hx
    simp only [UnpackedFloat.pack, hbias]
    rw [if_neg (by simp; omega)]
    split_ifs with hnormal
    · have hmod := Nat.mod_le (e + 1023 + 52).toNat 2048
      refine exponentAtMost_unpack_packComponents hlow sign _ _ ?_ ?_ <;> simp <;> omega
    · exact exponentAtMost_unpack_packComponents hlow sign 0 _ (by simpa using by omega) (by decide)

/-- A double is finite if its exponent is not the one kept for infinities. -/
theorem isFinite_iff_exponentAtMost (x : Float) :
    x.isFinite = true ↔ ExponentAtMost 971 x.toModel.unpack := by
  unfold Float.isFinite Float.Model.isFinite Float.Model.unpack
  have hbias : (Format.binary64.exponentBias : Int) = 1023 := by decide
  generalize x.toModel.toBits.toBitVec = bits
  simp only [UnpackedFloat.unpack, hbias]
  split_ifs with hones hfraction hzero hfraction
  · simp [ExponentAtMost, UnpackedFloat.isFinite]
  · simp [ExponentAtMost, UnpackedFloat.isFinite]
  · simp [ExponentAtMost, UnpackedFloat.isFinite]
  · simp [ExponentAtMost, UnpackedFloat.isFinite, hzero]
  · have hlt : (@UnpackedFloat.unpackExponent .binary64 bits).toNat < 2 ^ 11 :=
      (@UnpackedFloat.unpackExponent .binary64 bits).isLt
    have hne : (@UnpackedFloat.unpackExponent .binary64 bits).toNat ≠ 2047 := fun h =>
      hones (BitVec.eq_of_toNat_eq (h.trans (by decide)))
    simp only [ExponentAtMost, UnpackedFloat.isFinite, true_iff]
    push_cast
    omega

theorem isFinite_ofModel_pack {x : UnpackedFloat} (hx : ExponentAtMost 971 x) :
    (Float.ofModel (.pack x)).isFinite = true :=
  (isFinite_iff_exponentAtMost _).mpr (exponentAtMost_unpack_pack (by decide) (by decide) hx)

theorem isFinite_neg {x : Float} (hx : x.isFinite = true) : (-x).isFinite = true := by
  rw [isFinite_iff_exponentAtMost] at hx
  refine isFinite_ofModel_pack ?_
  rcases hunpack : x.toModel.unpack with s | _ | s | ⟨s, m, e, hm⟩ <;> rw [hunpack] at hx <;>
    exact hx

theorem mantissa_unpack_lt {bits : BitVec 64} {sign : UnpackedFloat.Sign} {m : Nat} {e : Int}
    {hm : 0 < m} (h : UnpackedFloat.unpack .binary64 bits = .finite sign m e hm) : m < 2 ^ 53 := by
  simp only [UnpackedFloat.unpack] at h
  split_ifs at h with hones hfraction hzero hfraction
  · cases h
    exact (BitVec.isLt _).trans (by decide)
  · cases h
    exact BitVec.isLt _

/-! ## Rounding -/

theorem shiftRight_mantissa_le (em : UnpackedFloat.ExtendedMantissa) (n : Nat) :
    (em >>> n).mantissa ≤ em.mantissa := by
  change (n.repeat _ em).mantissa ≤ _
  induction n with
  | zero => exact le_rfl
  | succ n ih => exact (Nat.div_le_self _ 2).trans ih

theorem roundedMantissa_le (em : UnpackedFloat.ExtendedMantissa) :
    em.roundedMantissa ≤ em.mantissa + 1 := by
  rcases em with ⟨m, _ | _, _ | _⟩ <;>
    simp only [UnpackedFloat.ExtendedMantissa.roundedMantissa,
      UnpackedFloat.ExtendedMantissa.accuracy, UnpackedFloat.Accuracy.roundToNearestEven] <;> omega

theorem ofMantissaAndAccuracy_mantissa (m : Nat) (a : UnpackedFloat.Accuracy) :
    (UnpackedFloat.ExtendedMantissa.ofMantissaAndAccuracy m a).mantissa = m := by
  rcases a with _ | (_ | _ | _) <;> rfl

theorem shiftToTargetExponent_mantissa_le (m : Nat) (e : Int) (a : UnpackedFloat.Accuracy) :
    (UnpackedFloat.shiftToTargetExponent .binary64 m e a).1.mantissa ≤ m :=
  (shiftRight_mantissa_le _ _).trans (ofMantissaAndAccuracy_mantissa m a).le

theorem shiftToTargetExponent_exponent (m : Nat) (e : Int) (a : UnpackedFloat.Accuracy) :
    (UnpackedFloat.shiftToTargetExponent .binary64 m e a).2 =
      max e (max (m.log2 + 1 + e - 53) (-1074)) := by
  have hmin : Format.binary64.minExponent = -1074 := by decide
  have hbits : (Format.binary64.mantissaBits : Int) = 53 := by decide
  simp only [UnpackedFloat.shiftToTargetExponent, UnpackedFloat.shiftToExponent,
    Format.targetExponent, totalExponent, hmin, hbits]
  omega

/-- Rounding raises the exponent only as far as the mantissa is too long, once before and once after
the last digit is rounded. -/
theorem exponentAtMost_roundWithAccuracy {m size : Nat} {e bound : Int} (hm : m < 2 ^ size)
    (hlow : size - 1074 ≤ bound) (hbound : e + 2 * size ≤ bound)
    (sign : UnpackedFloat.Sign) (a : UnpackedFloat.Accuracy) :
    ExponentAtMost bound (UnpackedFloat.roundWithAccuracy .binary64 sign m e a) := by
  have log2_le {n : Nat} (hn : n ≤ 2 ^ size) : n.log2 ≤ size := by
    rw [Nat.log2_eq_log_two]
    exact (Nat.log_mono_right hn).trans (Nat.log_pow (by decide) size).le
  simp only [UnpackedFloat.roundWithAccuracy]
  set shifted := UnpackedFloat.shiftToTargetExponent .binary64 m e a
  have hfirst : shifted.2 = max e (max (m.log2 + 1 + e - 53) (-1074)) :=
    shiftToTargetExponent_exponent m e a
  have hmantissa : shifted.1.mantissa ≤ m := shiftToTargetExponent_mantissa_le m e a
  have hrounded : shifted.1.roundedMantissa ≤ 2 ^ size :=
    (roundedMantissa_le _).trans (by omega)
  have hlog := log2_le hm.le
  have hlog' := log2_le hrounded
  split_ifs with hzero
  · trivial
  · simp only [ExponentAtMost, shiftToTargetExponent_exponent]
    omega

/-! ## Whole numbers -/

/-- A number that a mantissa can hold is converted digit by digit. -/
theorem exponentAtMost_ofUInt64 {n : UInt64} (hn : n.toNat < 2 ^ 53) :
    ExponentAtMost 210 (UnpackedFloat.ofUInt64 .binary64 n) := by
  have hmin : Format.binary64.minExponent = -1074 := by decide
  have hbits : (Format.binary64.mantissaBits : Int) = 53 := by decide
  have hlog : n.toNat.log2 ≤ 52 := by
    rcases Nat.eq_zero_or_pos n.toNat with hzero | hpos
    · simp [hzero]
    · exact Nat.le_of_lt_succ ((Nat.log2_lt hpos.ne').mpr hn)
  simp only [UnpackedFloat.ofUInt64, UnpackedFloat.ofNat, UnpackedFloat.ofInt,
    UnpackedFloat.normalize]
  split
  next hneg => exact absurd (Int.compare_eq_lt.mp hneg) (by omega)
  · trivial
  · simp only [UnpackedFloat.round, UnpackedFloat.decreaseExponent, Int.toNat_natCast,
      Format.targetExponent, totalExponent, hmin, hbits, Nat.shiftLeft_eq]
    have hdigits : n.toNat * 2 ^ (0 - max (n.toNat.log2 + 1 + 0 - 53 : Int) (-1074)).toNat <
        2 ^ 105 :=
      calc n.toNat * 2 ^ (0 - max (n.toNat.log2 + 1 + 0 - 53 : Int) (-1074)).toNat
          ≤ n.toNat * 2 ^ 52 := Nat.mul_le_mul_left _ (Nat.pow_le_pow_right (by decide) (by omega))
        _ < 2 ^ 105 := by omega
    exact exponentAtMost_roundWithAccuracy hdigits (by decide) (by omega) _ _

/-- Any other number is rounded. -/
theorem exponentAtMost_ofScientific {n : Nat} {e : Int} (hn : n < 2 ^ 64) (he : e = 0) :
    ExponentAtMost 971 (UnpackedFloat.ofScientific .binary64 n e) := by
  have hbits : Format.binary64.mantissaBits = 53 := by decide
  have hsize : Format.binary64.exponentBits = 11 := by decide
  unfold UnpackedFloat.ofScientific
  split_ifs with hzero hhigh hlow hpos
  · trivial
  · exact absurd hhigh (by rw [he, hsize]; decide)
  · trivial
  · have hm : n <<< Format.binary64.mantissaBits * 10 ^ e.toNat < 2 ^ 117 := by
      rw [he, hbits, show 10 ^ (0 : Int).toNat = 1 from rfl, Nat.mul_one, Nat.shiftLeft_eq]
      omega
    simp only [UnpackedFloat.mul]
    exact exponentAtMost_roundWithAccuracy hm (by decide) (by rw [hbits]; decide) _ _
  · exact absurd he.ge hpos

theorem ofNat_of_small {n : Nat} (hn : n < 2 ^ 53) :
    Float.ofNat n = .ofModel (.pack (.mul .binary64 (Float.Model.ofUInt64 n.toUInt64).unpack
      (.finite .positive (2 ^ 52) (-52) (by decide)))) := by
  have hone : Float.exactlyRepresentablePowersOfTen[0].toModel.unpack =
      .finite .positive (2 ^ 52) (-52) (by decide) := by rfl
  change Float.ofScientific n false 0 = _
  unfold Float.ofScientific
  rw [dif_pos ⟨hn, by decide⟩, ← hone]
  rfl

theorem ofNat_of_large {n : Nat} (hn : ¬n < 2 ^ 53) :
    Float.ofNat n = .ofModel (.pack (.ofScientific .binary64 n 0)) :=
  dif_neg fun h => hn h.1

theorem isFinite_ofNat {n : Nat} (hn : n < 2 ^ 64) : (Float.ofNat n).isFinite = true := by
  by_cases hsmall : n < 2 ^ 53
  · rw [ofNat_of_small hsmall]
    refine isFinite_ofModel_pack ?_
    have hdigits : ExponentAtMost 210 (Float.Model.ofUInt64 n.toUInt64).unpack :=
      exponentAtMost_unpack_pack (by decide) (by decide) (exponentAtMost_ofUInt64 (by simp; omega))
    rcases hunpack : (Float.Model.ofUInt64 n.toUInt64).unpack with s | _ | s | ⟨s, m, e, hm⟩ <;>
      rw [hunpack] at hdigits
    · exact hdigits.elim
    · exact hdigits.elim
    · trivial
    · have hlt := mantissa_unpack_lt hunpack
      have hproduct : m * 2 ^ 52 < 2 ^ 105 := by omega
      simp only [ExponentAtMost] at hdigits
      simp only [UnpackedFloat.mul]
      exact exponentAtMost_roundWithAccuracy hproduct (by decide) (by omega) _ _
  · rw [ofNat_of_large hsmall]
    exact isFinite_ofModel_pack (exponentAtMost_ofScientific hn rfl)

/-- The double of a whole number of 64 bits is finite. -/
theorem isFinite_ofInt {n : Int} (hlow : -2 ^ 64 < n) (hhigh : n < 2 ^ 64) :
    (Float.ofInt n).isFinite = true := by
  rcases n with n | n
  · exact isFinite_ofNat (by simp at hhigh; omega)
  · exact isFinite_neg (isFinite_ofNat (by omega))

end FrameScript
