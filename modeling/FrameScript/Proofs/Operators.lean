import FrameScript.Check.Infer
import FrameScript.Operation
import FrameScript.Proofs.Loading

set_option autoImplicit false

/-!
# Types of operator results

What an operator makes of two values has a type that the types of the values determine: operators
other than the arithmetic ones yield truth values, a text makes the sum a text, two integers make an
integer, and any other numbers a double.

## Main definitions

* `BinaryOp.resultType` — the type of the result, by the types of the operands.

## Main results

* `BinaryOp.ty_of_apply`, `UnaryOp.ty_of_apply` — results have these types.
-/

namespace FrameScript

/-- Negation keeps the type of its operand. -/
theorem UnaryOp.ty_of_apply {op : UnaryOp} {v w : Value} (h : op.apply v = .ok w) :
    w.ty = v.ty ∧ w.ty.isValueType = true ∧ (op = .not → w.ty = .boolean) := by
  unfold UnaryOp.apply at h
  split at h
  · cases h
  · cases h
    exact ⟨rfl, rfl, fun _ => rfl⟩
  · split at h
    · cases h
      exact ⟨rfl, rfl, nofun⟩
    · cases h
  · cases h
    exact ⟨rfl, rfl, nofun⟩
  · cases h

namespace BinaryOp

/-- The type of the result of an operator, by the types of its operands. -/
def resultType (op : BinaryOp) (l r : Ty) : Ty :=
  if op.isArithmetic then
    if l = .string ∨ r = .string then .string
    else if l = .int ∧ r = .int then .int
    else .float
  else .boolean

variable {h : Heap} {op : BinaryOp} {l r w : Value}

theorem ty_of_intResult {a b : Int64} (hw : op.intResult a b = .ok w) : w.ty = .int := by
  unfold intResult at hw
  split at hw
  · cases hw
  · split at hw
    · cases hw
      rfl
    · cases hw

/-- Arithmetic on two integers yields an integer, on other numbers a double, and with a text a
text. -/
theorem ty_of_arithmetic (hop : op.isArithmetic = true) (hw : op.arithmetic h l r = .ok w) :
    w.ty = op.resultType l.ty r.ty := by
  simp only [resultType, hop, if_true]
  unfold arithmetic at hw
  split at hw
  · rw [ty_of_intResult hw]
    rfl
  · cases hw
    rfl
  · cases hw
    rfl
  · cases hw
    rfl
  · split at hw
    · cases hw
      simp [Value.ty]
    · cases hw
  · split at hw
    · cases hw
      simp [Value.ty]
    · cases hw
  · cases hw

theorem ty_of_logical (hw : op.logical l r = .ok w) : w.ty = .boolean := by
  unfold logical at hw
  split at hw
  · cases hw
    rfl
  · split at hw <;> cases hw

/-- **Results of operators have the types that their operands determine.** -/
theorem ty_of_apply (hw : op.apply h l r = .ok w) : w.ty = op.resultType l.ty r.ty := by
  unfold apply at hw
  split at hw
  next hop =>
    split at hw
    · cases hw
    · exact ty_of_arithmetic hop hw
  next hop =>
    simp only [resultType, hop]
    split at hw
    · exact ty_of_logical hw
    · rcases hc : op.compare l r with e | b
      · rw [hc] at hw
        cases hw
      · rw [hc] at hw
        cases hw
        rfl

/-- Results of operators are numbers, truth values and texts. -/
theorem isValueType_of_apply (hw : op.apply h l r = .ok w) : w.ty.isValueType = true := by
  rw [ty_of_apply hw]
  unfold resultType
  split
  · split
    · rfl
    · split <;> rfl
  · rfl

end BinaryOp

/-- Values of value types are never null. -/
theorem Value.isNull_of_isValueType {v : Value} (h : v.ty.isValueType = true) :
    v.isNull = false := by
  cases v with
  | null tag => cases h
  | _ => rfl

end FrameScript
