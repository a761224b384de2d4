import FrameScript.Operation
import Mathlib.Data.Rat.Floor

set_option autoImplicit false

/-!
# Arithmetic on integers

Operators on integers are compared with the operations of the mathematical integers, where the
quotient is the one of rational numbers, rounded toward zero. The result is the exact one if that
has 64 bits, and otherwise there is none. One result is missed: the remainder of the least integer
by minus one is zero, but the quotient it belongs to has no 64 bits.

## Main definitions

* `Integer.InRange` — the integers of 64 bits.
* `Integer.towardZero` — rounding of rational numbers toward zero.
* `BinaryOp.unbounded?` — what an operator makes of two mathematical integers.
* `BinaryOp.LosesRemainder` — the remainder that is missed.

## Main results

* `Integer.towardZero_div` — truncated division is division rounded toward zero.
* `BinaryOp.apply_int` — what an operator makes of two integers of 64 bits.
* `integers_exact_or_fault` — results are exact, and each fault has its own reason.
* `remainder_overflows` — the remainder that is missed.
-/

namespace FrameScript

namespace Integer

/-! ## Integers of 64 bits -/

/-- The integer has 64 bits with a sign. -/
def InRange (n : Int) : Prop :=
  -2 ^ 63 ≤ n ∧ n < 2 ^ 63

instance (n : Int) : Decidable (InRange n) :=
  inferInstanceAs (Decidable (_ ∧ _))

theorem inRange_toInt (a : Int64) : InRange a.toInt :=
  ⟨a.le_toInt, a.toInt_lt⟩

theorem toInt_ofInt {n : Int} (h : InRange n) : (Int64.ofInt n).toInt = n :=
  Int64.toInt_ofInt_of_le h.1 h.2

theorem ofInt?_of_inRange {n : Int} (h : InRange n) : ofInt? n = some (Int64.ofInt n) := by
  have hmin : Int64.minValue.toInt = -2 ^ 63 := rfl
  have hmax : Int64.maxValue.toInt = 2 ^ 63 - 1 := rfl
  obtain ⟨hlow, hhigh⟩ := h
  exact if_pos ⟨by omega, by omega⟩

theorem ofInt?_of_not_inRange {n : Int} (h : ¬InRange n) : ofInt? n = none := by
  have hmin : Int64.minValue.toInt = -2 ^ 63 := rfl
  have hmax : Int64.maxValue.toInt = 2 ^ 63 - 1 := rfl
  refine if_neg fun hrange => h ⟨?_, ?_⟩ <;> omega

theorem ofInt?_toInt (a : Int64) : ofInt? a.toInt = some a := by
  rw [ofInt?_of_inRange (inRange_toInt a), Int64.ofInt_toInt]

theorem toInt_of_ofInt? {n : Int} {a : Int64} (h : ofInt? n = some a) : a.toInt = n := by
  by_cases hn : InRange n
  · rw [ofInt?_of_inRange hn] at h
    cases h
    exact toInt_ofInt hn
  · rw [ofInt?_of_not_inRange hn] at h
    cases h

/-! ## Division -/

/-- The integer next to a rational number in the direction of zero. -/
def towardZero (q : ℚ) : Int :=
  if 0 ≤ q then ⌊q⌋ else ⌈q⌉

theorem towardZero_neg (q : ℚ) : towardZero (-q) = -towardZero q := by
  unfold towardZero
  rcases lt_trichotomy q 0 with hq | rfl | hq
  · rw [if_pos (by linarith), if_neg (by linarith), Int.floor_neg]
  · simp
  · rw [if_neg (by linarith), if_pos hq.le, Int.ceil_neg]

theorem towardZero_natCast_div (m n : Nat) : towardZero ((m : ℚ) / n) = (m / n : Nat) := by
  rw [towardZero, if_pos (by positivity), Rat.floor_natCast_div_natCast]
  rfl

/-- Truncated division is division rounded toward zero. -/
theorem towardZero_div (a b : Int) : towardZero ((a : ℚ) / b) = a.tdiv b := by
  obtain ⟨m, rfl | rfl⟩ := a.eq_nat_or_neg <;> obtain ⟨n, rfl | rfl⟩ := b.eq_nat_or_neg <;>
    push_cast <;>
    simp only [neg_div, div_neg, neg_neg, towardZero_neg, towardZero_natCast_div,
      Int.neg_tdiv, Int.tdiv_neg, Int.ofNat_tdiv]

/-- The only quotient of integers of 64 bits that is none itself is that of the least one by minus
one. -/
theorem inRange_tdiv_iff {a b : Int64} (hb : b ≠ 0) :
    InRange (a.toInt.tdiv b.toInt) ↔ ¬(a = Int64.minValue ∧ b = -1) := by
  have hb : b.toInt ≠ 0 := fun h => hb (Int64.toInt_inj.mp h)
  have ha : InRange a.toInt := inRange_toInt a
  rw [← Int64.toInt_inj, ← Int64.toInt_inj, show Int64.minValue.toInt = -2 ^ 63 from rfl,
    show (-1 : Int64).toInt = -1 from rfl]
  generalize a.toInt = a, b.toInt = b at *
  unfold InRange at *
  by_cases hone : b.natAbs = 1
  · obtain rfl | rfl : b = 1 ∨ b = -1 := by omega
    · rw [Int.tdiv_one]
      omega
    · rw [Int.tdiv_neg, Int.tdiv_one]
      omega
  · -- a divisor of more than one halves the quotient at least
    have hquotient : (a.tdiv b).natAbs ≤ a.natAbs / 2 := by
      rw [Int.natAbs_tdiv]
      exact Nat.div_le_div_left (by omega) (by decide)
    omega

end Integer

/-! ## Operators -/

namespace BinaryOp

open Integer

/-- What an arithmetic operator makes of two mathematical integers. -/
def unbounded? (op : BinaryOp) (a b : Int) : Option Int :=
  match op with
  | .add => some (a + b)
  | .sub => some (a - b)
  | .mul => some (a * b)
  | .div => if b = 0 then none else some (towardZero (a / b))
  | .mod => if b = 0 then none else some (a - b * towardZero (a / b))
  | _ => none

/-- The remainder that is missed: that of the least integer by minus one. -/
def LosesRemainder (op : BinaryOp) (a b : Int64) : Prop :=
  op = .mod ∧ a = Int64.minValue ∧ b = -1

instance (op : BinaryOp) (a b : Int64) : Decidable (op.LosesRemainder a b) :=
  inferInstanceAs (Decidable (_ ∧ _))

variable {op : BinaryOp} {a b : Int64}

/-- A result is missing for a division by zero only. -/
theorem unbounded?_eq_none_iff (hop : op.isArithmetic = true) :
    op.unbounded? a.toInt b.toInt = none ↔ (op = .div ∨ op = .mod) ∧ b = 0 := by
  have hzero : b.toInt = 0 ↔ b = 0 := Int64.toInt_inj (y := 0)
  cases op <;> simp_all [unbounded?, isArithmetic]

/-- The operator computes the exact result, where there is one, and fits it into 64 bits. -/
theorem intExact?_eq {n : Int} (hn : op.unbounded? a.toInt b.toInt = some n)
    (hkept : ¬op.LosesRemainder a b) : op.intExact? a b = ofInt? n := by
  cases op with
  | add | sub | mul =>
    cases hn
    rfl
  | div =>
    simp only [unbounded?, Option.ite_none_left_eq_some, towardZero_div, Option.some.injEq] at hn
    exact hn.2 ▸ rfl
  | mod =>
    simp only [unbounded?, Option.ite_none_left_eq_some, towardZero_div, Option.some.injEq,
      ← Int.tmod_def] at hn
    obtain ⟨hzero, rfl⟩ := hn
    have hb : b ≠ 0 := fun h => hzero (by rw [h]; rfl)
    have hquotient : InRange (a.toInt.tdiv b.toInt) :=
      (inRange_tdiv_iff hb).mpr fun h => hkept ⟨rfl, h⟩
    simp only [intExact?, Integer.mod?, Integer.div?, ofInt?_of_inRange hquotient,
      Option.bind_some]
  | _ => cases hn

/-- What an operator makes of two integers of 64 bits. -/
theorem apply_int (heap : Heap) (hop : op.isArithmetic = true) :
    op.apply heap (.int a) (.int b) =
      match op.unbounded? a.toInt b.toInt with
      | none => .error (.arithmetic .divisionByZero)
      | some n =>
        if InRange n ∧ ¬op.LosesRemainder a b then .ok (.int (Int64.ofInt n))
        else .error (.arithmetic .overflow) := by
  have happly : op.apply heap (.int a) (.int b) = op.intResult a b := by
    simp [apply, hop, Value.isNull, arithmetic]
  rw [happly, intResult]
  cases hn : op.unbounded? a.toInt b.toInt with
  | none =>
    obtain ⟨hdivides, rfl⟩ := (unbounded?_eq_none_iff hop).mp hn
    rw [if_pos (by simpa using hdivides)]
  | some n =>
    have hdivisor : ¬((op = .div ∨ op = .mod) ∧ b = 0) := by
      rw [← unbounded?_eq_none_iff hop, hn]
      simp
    rw [if_neg (by simpa using hdivisor)]
    by_cases hloses : op.LosesRemainder a b
    · obtain ⟨rfl, rfl, rfl⟩ := hloses
      exact (if_neg fun h => h.2 ⟨rfl, rfl, rfl⟩).symm
    · rw [intExact?_eq hn hloses]
      by_cases hrange : InRange n
      · rw [ofInt?_of_inRange hrange]
        exact (if_pos ⟨hrange, hloses⟩).symm
      · rw [ofInt?_of_not_inRange hrange]
        exact (if_neg fun h => hrange h.1).symm

end BinaryOp

open Integer

/-- What negation makes of an integer of 64 bits. -/
theorem UnaryOp.apply_neg_int (a : Int64) :
    UnaryOp.neg.apply (.int a) =
      if InRange (-a.toInt) then .ok (.int (Int64.ofInt (-a.toInt)))
      else .error (.arithmetic .overflow) := by
  simp only [UnaryOp.apply, Integer.neg?]
  by_cases hrange : InRange (-a.toInt)
  · rw [ofInt?_of_inRange hrange, if_pos hrange]
  · rw [ofInt?_of_not_inRange hrange, if_neg hrange]

/-! ## Exact results and faults -/

/-- A result is the exact one, and where it is not, there is a fault for a reason: no exact result
at all, or one that has no 64 bits. Results under `missed` are overflows, too. -/
structure ExactOrFaults (ideal? : Option Int) (missed : Prop) (result : Except Fault Value) :
    Prop where
  exact : ∀ n, ideal? = some n → InRange n → ¬missed →
    ∃ r : Int64, r.toInt = n ∧ result = .ok (.int r)
  only : ∀ v, result = .ok v → ∃ r : Int64, v = .int r ∧ ideal? = some r.toInt ∧ ¬missed
  divisionByZero : (∃ f, result = .error f ∧ f.message = "division by zero") ↔ ideal? = none
  overflow : (∃ f, result = .error f ∧ f.message = "integer overflow") ↔
    (∃ n, ideal? = some n ∧ ¬InRange n) ∨ missed

namespace ExactOrFaults

/-- A division by zero is a fault. -/
theorem none {missed : Prop} (hmissed : ¬missed) :
    ExactOrFaults none missed (.error (.arithmetic .divisionByZero)) where
  exact := nofun
  only := nofun
  divisionByZero := iff_of_true ⟨_, rfl, rfl⟩ rfl
  overflow := by
    refine iff_of_false ?_ (by simpa using hmissed)
    rintro ⟨f, hf, hmessage⟩
    cases hf
    exact absurd hmessage (by decide)

/-- A result that has 64 bits is there, any other one is an overflow. -/
theorem some (missed : Prop) [Decidable missed] (n : Int) :
    ExactOrFaults (some n) missed
      (if InRange n ∧ ¬missed then .ok (.int (Int64.ofInt n))
        else .error (.arithmetic .overflow)) := by
  split
  next h =>
    exact {
      exact := fun m hm hrange _ => by
        cases hm
        exact ⟨_, toInt_ofInt hrange, rfl⟩
      only := fun v hv => by
        cases hv
        exact ⟨_, rfl, by rw [toInt_ofInt h.1], h.2⟩
      divisionByZero := iff_of_false nofun nofun
      overflow := iff_of_false nofun (by simpa using h) }
  next h =>
    exact {
      exact := fun m hm hrange hkept => by
        cases hm
        exact absurd ⟨hrange, hkept⟩ h
      only := nofun
      divisionByZero := by
        refine iff_of_false ?_ nofun
        rintro ⟨f, hf, hmessage⟩
        cases hf
        exact absurd hmessage (by decide)
      overflow := iff_of_true ⟨_, rfl, rfl⟩ (by
        rcases not_and_or.mp h with hrange | hmissed
        · exact .inl ⟨n, rfl, hrange⟩
        · exact .inr (not_not.mp hmissed)) }

end ExactOrFaults

/-- **Arithmetic on integers is exact or fails**, with one exception. What an operator makes of two
integers of 64 bits is what it makes of mathematical integers, if that has 64 bits, where quotients
are rounded toward zero and remainders are what is left of the dividend. There is a division by zero
just where a zero divides, and an overflow just where the exact result has no 64 bits; but the
remainder of the least integer by minus one, which is zero, is an overflow, too. Negation is exact,
or overflows where the exact result has no 64 bits.

**Proof sketch.** The operators compute on mathematical integers. Truncated division is the division
of rational numbers rounded toward zero (`towardZero_div`). A remainder is looked for only where the
quotient has 64 bits, and just one quotient has not (`inRange_tdiv_iff`). -/
theorem integers_exact_or_fault (heap : Heap) (op : BinaryOp) (hop : op.isArithmetic = true)
    (a b : Int64) :
    ExactOrFaults (op.unbounded? a.toInt b.toInt) (op.LosesRemainder a b)
      (op.apply heap (.int a) (.int b)) ∧
    (op.unbounded? a.toInt b.toInt = none ↔ (op = .div ∨ op = .mod) ∧ b = 0) ∧
    ExactOrFaults (some (-a.toInt)) False (UnaryOp.neg.apply (.int a)) := by
  refine ⟨?_, BinaryOp.unbounded?_eq_none_iff hop, ?_⟩
  · rw [BinaryOp.apply_int heap hop]
    cases hn : op.unbounded? a.toInt b.toInt with
    | none =>
      obtain ⟨-, rfl⟩ := (BinaryOp.unbounded?_eq_none_iff hop).mp hn
      exact .none fun h => absurd h.2.2 (by decide)
    | some n => exact .some _ n
  · rw [UnaryOp.apply_neg_int]
    simpa using ExactOrFaults.some False (-a.toInt)

/-- A division that is rounded toward zero, and the quotient that has no 64 bits. -/
theorem integers_exact_or_fault_division :
    (∃ r : Int64, r.toInt = -3 ∧ BinaryOp.div.apply {} (.int (-7)) (.int 2) = .ok (.int r)) ∧
    ∃ f, BinaryOp.div.apply {} (.int Int64.minValue) (.int (-1)) = .error f ∧
      f.message = "integer overflow" := by
  obtain ⟨hrounded, -, -⟩ := integers_exact_or_fault {} .div rfl (-7) 2
  obtain ⟨hleast, -, -⟩ := integers_exact_or_fault {} .div rfl Int64.minValue (-1)
  refine ⟨hrounded.exact (-3) ?_ (by decide) (by decide),
    hleast.overflow.mpr (.inl ⟨2 ^ 63, ?_, by decide⟩)⟩
  · rw [BinaryOp.unbounded?, if_neg (by decide), towardZero_div]
    rfl
  · rw [BinaryOp.unbounded?, if_neg (by decide), towardZero_div]
    rfl

/-- **A remainder is missed**: that of the least integer by minus one is zero, but it is said to be
an overflow. -/
theorem remainder_overflows :
    BinaryOp.mod.unbounded? Int64.minValue.toInt (-1 : Int64).toInt = some 0 ∧ InRange 0 ∧
    BinaryOp.mod.apply {} (.int Int64.minValue) (.int (-1)) = .error (.arithmetic .overflow) ∧
    (Fault.arithmetic .overflow).message = "integer overflow" := by
  refine ⟨?_, by decide, rfl, rfl⟩
  rw [BinaryOp.unbounded?, if_neg (by decide), towardZero_div]
  rfl

end FrameScript
