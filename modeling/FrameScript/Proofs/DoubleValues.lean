import FrameScript.Proofs.Doubles
import FrameScript.Proofs.Integers

set_option autoImplicit false

/-!
# Doubles as rational numbers

The number that a finite double stands for, read off its unpacked form. What is computed from the
bits of a double with integers only, its magnitude and its integer part, agrees with that number. A
double that has an integer part beyond the range of integers lies beyond that range itself, since
doubles of that size are whole numbers.

## Main definitions

* `Binary64.value` — the number that a finite double stands for.

## Main results

* `Binary64.value_eq` — the magnitude computed from the bits is that of the number.
* `Binary64.truncate_eq` — the integer part is the number rounded toward zero.
* `Integer.ofFloat?_eq_some_iff`, `Integer.isSome_ofFloat?_iff` — which doubles convert to integers,
  and to which.
-/

namespace FrameScript

open Float.Model Integer

namespace Binary64

/-! ## The number of a double -/

/-- The sign as a factor. -/
def factor : UnpackedFloat.Sign → ℚ
  | .positive => 1
  | .negative => -1

/-- The number that an unpacked double stands for. Infinities and undefined numbers stand for none
and count as zero. -/
def unpackedValue : UnpackedFloat → ℚ
  | .finite sign mantissa exponent _ => factor sign * (mantissa * 2 ^ exponent)
  | _ => 0

/-- The number that a finite double stands for. -/
def value (x : Float) : ℚ :=
  unpackedValue x.toModel.unpack

/-- The magnitude as a number. -/
def toRat (b : Binary64) : ℚ :=
  b.mantissa * 2 ^ b.exponent

/-! ## Bits -/

section Bits

variable (x : Float)

theorem toNat_unpackMantissa :
    (@UnpackedFloat.unpackMantissa .binary64 x.toBits.toBitVec).toNat =
      x.toBits.toNat % leadingBit := by
  simp [UnpackedFloat.unpackMantissa, BitVec.extractLsb_toNat, Format.binary64, leadingBit]

theorem toNat_unpackExponent :
    (@UnpackedFloat.unpackExponent .binary64 x.toBits.toBitVec).toNat =
      x.toBits.toNat / leadingBit % 0x800 := by
  simp [UnpackedFloat.unpackExponent, BitVec.extractLsb_toNat, Format.binary64, leadingBit,
    Nat.shiftRight_eq_div_pow]

theorem ofBitVec_unpackSign :
    UnpackedFloat.Sign.ofBitVec (@UnpackedFloat.unpackSign .binary64 x.toBits.toBitVec) =
      if isNegative x then .negative else .positive := by
  have hsign : (@UnpackedFloat.unpackSign .binary64 x.toBits.toBitVec).toNat =
      x.toBits.toNat / 2 ^ 63 := by
    have := x.toBits.toNat_lt
    simp [UnpackedFloat.unpackSign, BitVec.extractLsb_toNat, Format.binary64,
      Nat.shiftRight_eq_div_pow]
    omega
  have hneg : isNegative x = true ↔ x.toBits.toNat / 2 ^ 63 = 1 := by
    rw [isNegative, beq_iff_eq, ← UInt64.toNat_inj]
    simp [Nat.shiftRight_eq_div_pow]
  unfold UnpackedFloat.Sign.ofBitVec
  have hlt : x.toBits.toNat / 2 ^ 63 < 2 := by
    have := x.toBits.toNat_lt
    omega
  by_cases h : isNegative x = true
  · rw [if_pos h, if_neg]
    intro hzero
    rw [hzero] at hsign
    have := hneg.mp h
    simp at hsign
    omega
  · rw [if_neg h, if_pos]
    refine BitVec.eq_of_toNat_eq ?_
    rw [hsign]
    have := mt hneg.mpr h
    simp
    omega

/-- A finite double stands for its magnitude, with its sign. -/
theorem value_eq (hx : x.isFinite = true) :
    value x = (if isNegative x then -1 else 1) * (ofFloat x).toRat := by
  have hmantissa := toNat_unpackMantissa x
  have hexponent := toNat_unpackExponent x
  have hfactor : factor (.ofBitVec (@UnpackedFloat.unpackSign .binary64 x.toBits.toBitVec)) =
      if isNegative x then -1 else 1 := by
    rw [ofBitVec_unpackSign]
    cases isNegative x <;> rfl
  have hbias : (Format.binary64.exponentBias : Int) = 1023 := by decide
  change (UnpackedFloat.unpack .binary64 x.toBits.toBitVec).isFinite = true at hx
  change unpackedValue (UnpackedFloat.unpack .binary64 x.toBits.toBitVec) = _
  unfold ofFloat toRat
  generalize x.toBits.toBitVec = bits at *
  generalize x.toBits.toNat = n at *
  simp only [UnpackedFloat.unpack, hbias] at hx ⊢
  generalize UnpackedFloat.Sign.ofBitVec (@UnpackedFloat.unpackSign .binary64 bits) = sign at *
  -- the highest exponent is kept for infinities and undefined numbers
  by_cases hones : @UnpackedFloat.unpackExponent .binary64 bits = -1#_
  · rw [if_pos hones] at hx
    split at hx <;> cases hx
  rw [if_neg hones]
  by_cases hzero : @UnpackedFloat.unpackExponent .binary64 bits = 0#_
  · have hbiased : n / leadingBit % 0x800 = 0 := by rw [← hexponent, hzero]; rfl
    rw [if_pos hzero, if_pos (beq_iff_eq.mpr hbiased)]
    by_cases hfraction : @UnpackedFloat.unpackMantissa .binary64 bits = 0#_
    · have hnone : n % leadingBit = 0 := by rw [← hmantissa, hfraction]; rfl
      rw [dif_pos hfraction]
      simp [unpackedValue, hnone]
    · rw [dif_neg hfraction]
      simp only [unpackedValue, hfactor, hmantissa, hexponent, hbiased]
      rfl
  · have hbiased : n / leadingBit % 0x800 ≠ 0 := fun h =>
      hzero (BitVec.eq_of_toNat_eq (hexponent.trans h))
    have hdigits : (1#1 ++ @UnpackedFloat.unpackMantissa .binary64 bits).toNat =
        leadingBit + n % leadingBit := by
      rw [BitVec.toNat_append, ← hmantissa,
        ← Nat.shiftLeft_add_eq_or_of_lt (@UnpackedFloat.unpackMantissa .binary64 bits).isLt]
      rfl
    rw [if_neg hzero, if_neg (mt beq_iff_eq.mp hbiased)]
    simp only [unpackedValue, hfactor, hdigits, hexponent]
    rfl

end Bits

/-! ## Rounding toward zero -/

/-- A magnitude rounded toward zero is computed with shifts. -/
theorem towardZero_toRat (b : Binary64) :
    towardZero b.toRat =
      (b.mantissa * Nat.pow 2 b.exponent.toNat / Nat.pow 2 (-b.exponent).toNat : Nat) := by
  rw [← towardZero_natCast_div]
  congr 1
  have hpos : (0 : ℚ) < 2 ^ (-b.exponent).toNat := by positivity
  have hsplit : b.exponent + ((-b.exponent).toNat : Int) = (b.exponent.toNat : Int) := by omega
  rw [toRat, Nat.pow_eq, Nat.pow_eq, eq_div_iff (by exact_mod_cast hpos.ne')]
  push_cast
  rw [mul_assoc, ← zpow_natCast (2 : ℚ) (-b.exponent).toNat, ← zpow_add₀ (by norm_num), hsplit,
    zpow_natCast]

variable {x : Float}

/-- The integer part of a finite double is its value rounded toward zero. -/
theorem truncate_eq (hx : x.isFinite = true) : truncate x = towardZero (value x) := by
  have hmagnitude := towardZero_toRat (ofFloat x)
  rw [value_eq x hx, truncate]
  cases isNegative x with
  | true => rw [if_pos rfl, if_pos rfl, neg_one_mul, towardZero_neg, hmagnitude]; rfl
  | false => rw [if_neg nofun, if_neg nofun, one_mul, hmagnitude]; rfl

/-! ## The range of integers -/

theorem mantissa_lt (x : Float) : (ofFloat x).mantissa < 2 ^ 53 := by
  have hfraction : x.toBits.toNat % leadingBit < 2 ^ 52 := Nat.mod_lt _ (by decide)
  unfold ofFloat
  dsimp only
  split
  · dsimp only
    omega
  · simp only [leadingBit] at *
    omega

/-- A magnitude of more than 53 bits is a whole number, since its mantissa has no more. -/
theorem toRat_eq_natCast {b : Binary64} (hm : b.mantissa < 2 ^ 53) (hb : 2 ^ 53 ≤ b.toRat) :
    ∃ n : Nat, b.toRat = n := by
  have hexponent : 0 ≤ b.exponent := by
    by_contra hneg
    have hscale : (2 : ℚ) ^ b.exponent ≤ 1 := zpow_le_one_of_nonpos₀ (by norm_num) (by omega)
    have hsmall : b.toRat < 2 ^ 53 :=
      calc b.toRat ≤ b.mantissa := mul_le_of_le_one_right (by positivity) hscale
        _ < 2 ^ 53 := by exact_mod_cast hm
    linarith
  refine ⟨b.mantissa * 2 ^ b.exponent.toNat, ?_⟩
  rw [toRat]
  push_cast
  rw [← zpow_natCast (2 : ℚ) b.exponent.toNat, Int.toNat_of_nonneg hexponent]

/-- No double lies between the least integer and the one below, so rounding toward zero brings none
into range. -/
theorem inRange_towardZero_iff (hx : x.isFinite = true) :
    InRange (towardZero (value x)) ↔ -2 ^ 63 ≤ value x ∧ value x < 2 ^ 63 := by
  have hvalue := value_eq x hx
  generalize value x = q at *
  unfold InRange towardZero
  by_cases hq : 0 ≤ q
  · rw [if_pos hq]
    have hfloor : 0 ≤ ⌊q⌋ := Int.floor_nonneg.mpr hq
    have hhigh : ⌊q⌋ < 2 ^ 63 ↔ q < 2 ^ 63 := by
      rw [Int.floor_lt]
      norm_num
    rw [hhigh]
    exact and_congr_left fun _ => iff_of_true (by omega) (by linarith)
  · rw [if_neg hq]
    have hceil : ⌈q⌉ ≤ 0 := Int.ceil_le.mpr (by push_cast; linarith)
    refine and_congr ⟨fun hlow => ?_, fun hlow => ?_⟩ (iff_of_true (by omega) (by linarith))
    · by_contra hbelow
      have hneg : isNegative x = true := by
        by_contra hpos
        rw [if_neg hpos, one_mul] at hvalue
        have : 0 ≤ (ofFloat x).toRat := by unfold toRat; positivity
        linarith
      rw [if_pos hneg, neg_one_mul] at hvalue
      obtain ⟨n, hn⟩ := toRat_eq_natCast (mantissa_lt x) (by linarith)
      have hwhole : q = ((-n : Int) : ℚ) := by rw [hvalue, hn]; push_cast; rfl
      rw [hwhole, Int.ceil_intCast] at hlow
      rw [hwhole] at hbelow
      exact hbelow (by exact_mod_cast hlow)
    · have := Int.le_ceil q
      have hcast : ((-2 ^ 63 : Int) : ℚ) ≤ (⌈q⌉ : ℚ) := by push_cast; linarith
      exact_mod_cast hcast

end Binary64

namespace Integer

open Binary64

/-- A double converts to the integer that it is when rounded toward zero. -/
theorem ofFloat?_eq_some_iff {x : Float} {n : Int64} :
    ofFloat? x = some n ↔ x.isFinite = true ∧ n.toInt = towardZero (value x) := by
  unfold ofFloat?
  by_cases hx : x.isFinite = true
  · rw [if_pos hx, truncate_eq hx]
    refine ⟨fun h => ⟨hx, toInt_of_ofInt? h⟩, fun ⟨_, hn⟩ => ?_⟩
    rw [← hn, ofInt?_toInt]
  · rw [if_neg hx]
    simp [hx]

/-- A double converts exactly if it is finite and in the range of integers. -/
theorem isSome_ofFloat?_iff {x : Float} :
    (ofFloat? x).isSome = true ↔ x.isFinite = true ∧ -2 ^ 63 ≤ value x ∧ value x < 2 ^ 63 := by
  unfold ofFloat?
  by_cases hx : x.isFinite = true
  · rw [if_pos hx, truncate_eq hx, ← inRange_towardZero_iff hx]
    by_cases hrange : InRange (towardZero (value x))
    · simp [ofInt?_of_inRange hrange, hrange, hx]
    · simp [ofInt?_of_not_inRange hrange, hrange]
  · simp [hx]

end Integer

end FrameScript
