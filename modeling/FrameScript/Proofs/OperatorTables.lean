import FrameScript.Proofs.Defects

set_option autoImplicit false

/-!
# Operators in the checker and on values

The checker and the evaluator have a table of operators each: the one from types to the type of the
result, the other from values to the result. Both are compared here with a third one that only says
which types an operator is defined on, and so with each other.

## Main definitions

* `BinaryOp.isDefinedOn` — the types of the operands of a binary operator, nulls left aside.

## Main results

* `BinaryOp.resultType_of_clean`, `BinaryOp.clean_of_isDefinedOn` — the checker finds nothing just
  where an operator is defined, and infers the type of the result.
* `BinaryOp.apply_of_isDefinedOn`, `BinaryOp.apply_of_not_isDefinedOn` — an operator applies to
  values just where it is defined on their types, save arithmetic.
* `operator_tables_agree` — the two tables agree.
-/

namespace FrameScript

open Checker

/-- A value that is there has a type other than that of the bare null. -/
theorem Value.isNullLiteral_ty {v : Value} (hv : v.isNull = false) :
    v.ty.isNullLiteral = false := by
  cases v <;> first | rfl | cases hv

/-- No value has the top type. -/
theorem Value.ty_ne_any (v : Value) : v.ty ≠ .any := by
  cases v <;> exact Ty.noConfusion

namespace BinaryOp

/-- Whether an operator is defined on operands of these types that are there. -/
def isDefinedOn : BinaryOp → Ty → Ty → Bool
  | .eq, _, _ | .ne, _, _ => true
  | .and, l, r | .or, l, r => l == .boolean && r == .boolean
  | .gt, l, r | .lt, l, r | .ge, l, r | .le, l, r =>
    (l.isNumeric && r.isNumeric) || (l == .string && r == .string)
  | .add, l, r => (l.isNumeric && r.isNumeric) || l == .string || r == .string
  | .sub, l, r | .mul, l, r | .div, l, r | .mod, l, r => l.isNumeric && r.isNumeric

/-! ## The checker -/

section Checking

variable {op : BinaryOp} {l r : Ty}

/-- Where the checker finds nothing, an operator is defined. -/
theorem isDefinedOn_of_clean (hany : l ≠ .any ∧ r ≠ .any) (hclean : (binaryType op l r).2 = []) :
    op.isDefinedOn l r = true := by
  obtain ⟨harithmetic, hlogical, hordering, -⟩ := binaryType_clean hclean
  cases op with
  | eq | ne => rfl
  | and | or =>
    obtain ⟨rfl, rfl⟩ := logicalOperand_clean hany (hlogical rfl)
    rfl
  | gt | lt | ge | le => simpa [isDefinedOn, ordered, hany] using hordering rfl
  | add | sub | mul | div | mod =>
    have h := arithmeticType_clean hany (harithmetic rfl)
    simp only [isDefinedOn, Bool.or_eq_true, Bool.and_eq_true, beq_iff_eq]
    tauto

theorem arithmeticType_resultType (hop : op.isArithmetic = true) (hany : l ≠ .any ∧ r ≠ .any)
    (hclean : (arithmeticType op l r).2 = []) :
    (arithmeticType op l r).1 = op.resultType l r := by
  have hdefined := arithmeticType_clean hany hclean
  unfold arithmeticType resultType
  rw [if_neg (by simpa using hany), if_pos hop]
  by_cases htext : l = .string ∨ r = .string
  · have hadd : op = .add := by
      rcases hdefined with ⟨rfl, -⟩ | ⟨hl, hr⟩
      · rfl
      · rcases htext with rfl | rfl
        · cases hl
        · cases hr
    rw [if_pos htext, if_pos (by simpa [hadd] using htext)]
  · rw [if_neg htext, if_neg (by simp [htext])]
    have hnumeric := hdefined.resolve_left (htext ·.2)
    by_cases hint : l = .int ∧ r = .int
    · rw [if_pos hint, if_pos (by simpa using hint)]
    · rw [if_neg hint, if_neg (by simpa using hint), if_pos (by simpa using hnumeric)]

/-- Where the checker finds nothing, it infers the type of the result. -/
theorem resultType_of_clean (hany : l ≠ .any ∧ r ≠ .any) (hclean : (binaryType op l r).2 = []) :
    (binaryType op l r).1 = op.resultType l r := by
  rcases Value.Fits.isArithmetic_or op with hop | ⟨hop, heq, hlog, hord⟩
  · rw [Value.Fits.binaryType_boolean hop, resultType, if_neg (by simp [hop])]
  · have harithmetic := arithmeticType_resultType hop hany ((binaryType_clean hclean).1 hop)
    unfold binaryType at hclean ⊢
    simp only [heq, hlog, hord, Bool.false_eq_true, if_false] at hclean ⊢
    split at hclean
    · cases hclean
    next hnull => rw [if_neg hnull, harithmetic]

theorem arithmeticType_of_isDefinedOn (hop : op.isArithmetic = true)
    (h : op.isDefinedOn l r = true) : (arithmeticType op l r).2 = [] := by
  unfold arithmeticType
  split
  · rfl
  split
  · rfl
  next htext =>
    split
    · rfl
    split
    · rfl
    next hnumeric =>
      cases op <;> simp_all [isDefinedOn, isArithmetic]

/-- Where an operator other than equality is defined on types other than that of the bare null, the
checker finds nothing. -/
theorem clean_of_isDefinedOn (hop : op.isEquality = false)
    (hnull : l.isNullLiteral = false ∧ r.isNullLiteral = false)
    (h : op.isDefinedOn l r = true) : (binaryType op l r).2 = [] := by
  cases op with
  | eq | ne => cases hop
  | and | or =>
    simp only [isDefinedOn, Bool.and_eq_true, beq_iff_eq] at h
    obtain ⟨rfl, rfl⟩ := h
    rfl
  | gt | lt | ge | le =>
    have hordered : ordered l r = true := by
      simp only [isDefinedOn, ordered, Bool.or_eq_true] at h ⊢
      tauto
    simp [binaryType, isEquality, isLogical, isOrdering, hnull, hordered]
  | add | sub | mul | div | mod =>
    simp only [binaryType, isEquality, isLogical, isOrdering, hnull, Bool.or_self,
      Bool.false_eq_true, if_false]
    exact arithmeticType_of_isDefinedOn rfl h

end Checking

/-! ## Values -/

section Applying

variable {heap : Heap} {op : BinaryOp} {a b : Value}

/-- Arithmetic on two integers yields one, unless the result is none of 64 bits. -/
theorem intResult_cases (m n : Int64) :
    (∃ w, op.intResult m n = .ok w) ∨ ∃ cause, op.intResult m n = .error (.arithmetic cause) := by
  unfold intResult
  split
  · exact .inr ⟨_, rfl⟩
  · split
    · exact .inl ⟨_, rfl⟩
    · exact .inr ⟨_, rfl⟩

/-- Arithmetic that is defined yields a value, unless it fails on two integers. -/
theorem arithmetic_of_isDefinedOn (hop : op.isArithmetic = true)
    (h : op.isDefinedOn a.ty b.ty = true) :
    (∃ w, op.arithmetic heap a b = .ok w) ∨
      ∃ cause, op.arithmetic heap a b = .error (.arithmetic cause) := by
  have hoperands : (a.ty.isNumeric = true ∧ b.ty.isNumeric = true) ∨
      (op = .add ∧ (a.ty = .string ∨ b.ty = .string)) := by
    cases op <;> simp_all [isDefinedOn, isArithmetic, or_assoc]
  rcases hoperands with ⟨ha, hb⟩ | ⟨rfl, ha | hb⟩
  · rcases (Value.Fits.of_ty rfl).of_isNumeric ha with ⟨m, rfl⟩ | ⟨x, rfl⟩ <;>
      rcases (Value.Fits.of_ty rfl).of_isNumeric hb with ⟨n, rfl⟩ | ⟨y, rfl⟩
    · exact intResult_cases m n
    all_goals exact .inl ⟨_, rfl⟩
  · obtain ⟨s, rfl⟩ := (Value.Fits.of_ty ha).exists_str
    exact .inl ⟨_, rfl⟩
  · obtain ⟨s, rfl⟩ := (Value.Fits.of_ty hb).exists_str
    cases a <;> exact .inl ⟨_, rfl⟩

/-- An order that is defined is there. -/
theorem order_of_isDefinedOn (hop : op.isOrdering = true) (h : op.isDefinedOn a.ty b.ty = true) :
    ∃ w, op.order a b = .ok w := by
  have hoperands : (a.ty.isNumeric = true ∧ b.ty.isNumeric = true) ∨
      (a.ty = .string ∧ b.ty = .string) := by
    cases op <;> simp_all [isDefinedOn, isOrdering]
  rcases hoperands with ⟨ha, hb⟩ | ⟨ha, hb⟩
  · rcases (Value.Fits.of_ty rfl).of_isNumeric ha with ⟨m, rfl⟩ | ⟨x, rfl⟩ <;>
      rcases (Value.Fits.of_ty rfl).of_isNumeric hb with ⟨n, rfl⟩ | ⟨y, rfl⟩ <;>
      exact ⟨_, rfl⟩
  · obtain ⟨s, rfl⟩ := (Value.Fits.of_ty ha).exists_str
    obtain ⟨t, rfl⟩ := (Value.Fits.of_ty hb).exists_str
    exact ⟨_, rfl⟩

/-- Values that are there can be compared. -/
theorem equality_of_not_isNull (ha : a.isNull = false) : ∃ w, equality a b = .ok w := by
  cases a with
  | null tag => cases ha
  | _ => exact ⟨_, rfl⟩

/-- Where an operator is defined on the types of two values, it yields a value, unless it is
arithmetic that fails. -/
theorem apply_of_isDefinedOn (ha : a.isNull = false) (hb : b.isNull = false)
    (h : op.isDefinedOn a.ty b.ty = true) :
    (∃ w, op.apply heap a b = .ok w) ∨ ∃ cause, op.apply heap a b = .error (.arithmetic cause) := by
  cases op with
  | eq =>
    obtain ⟨w, hw⟩ := equality_of_not_isNull (b := b) ha
    exact .inl ⟨.bool w, by simp [apply, isArithmetic, isLogical, compare, hw, Except.map]⟩
  | ne =>
    obtain ⟨w, hw⟩ := equality_of_not_isNull (b := b) ha
    exact .inl ⟨.bool !w, by simp [apply, isArithmetic, isLogical, compare, hw, Except.map]⟩
  | gt | lt | ge | le =>
    obtain ⟨w, hw⟩ := order_of_isDefinedOn rfl h
    exact .inl ⟨.bool w, by simp [apply, isArithmetic, isLogical, compare, hw, Except.map]⟩
  | and | or =>
    simp only [isDefinedOn, Bool.and_eq_true, beq_iff_eq] at h
    obtain ⟨x, rfl⟩ := (Value.Fits.of_ty h.1).exists_bool
    obtain ⟨y, rfl⟩ := (Value.Fits.of_ty h.2).exists_bool
    exact .inl ⟨_, rfl⟩
  | add | sub | mul | div | mod =>
    simp only [apply, isArithmetic, ha, hb, Bool.or_self, Bool.false_eq_true, if_false, if_true]
    exact arithmetic_of_isDefinedOn rfl h

/-- Where an operator is not defined on the types of two values, it finds a defect. -/
theorem apply_of_not_isDefinedOn (ha : a.isNull = false) (hb : b.isNull = false)
    (h : op.isDefinedOn a.ty b.ty = false) :
    op.apply heap a b = .error (.analyzerDefect (.operands a.ty op b.ty)) := by
  cases op with
  | eq | ne => cases h
  | gt | lt | ge | le =>
    simp only [apply, isArithmetic, isLogical, compare, order, ha, hb, Bool.or_self,
      Bool.false_eq_true, if_false]
    split <;> first | rfl | cases h
  | and | or =>
    simp only [apply, isArithmetic, isLogical, logical, Bool.false_eq_true, if_false, if_true]
    split
    · cases h
    · simp only [ha, hb, Bool.or_self, Bool.false_eq_true, if_false]
  | add | sub | mul | div | mod =>
    simp only [apply, isArithmetic, arithmetic, ha, hb, Bool.or_self, Bool.false_eq_true, if_false,
      if_true]
    split <;> first | rfl | simp [isDefinedOn, Value.ty, Ty.isNumeric] at h

end Applying

end BinaryOp

/-- **The tables of operators agree** on values that are there. If the checker finds nothing in an
operator on their types, the operator yields a value of the inferred type that is not null, or it is
arithmetic that fails. And if the checker finds something in an operator other than equality, the
operator finds the same two types to be a defect.

**Proof sketch.** Both tables are read against the types that the operator is defined on; the case
order of either one does not matter, since the two operands have one type each. -/
theorem operator_tables_agree (heap : Heap) (op : BinaryOp) {l r : Ty} {a b : Value}
    (ha : a.isNull = false) (hb : b.isNull = false) (hl : a.ty = l) (hr : b.ty = r) :
    (∀ t, binaryType op l r = (t, []) →
      (∃ w, op.apply heap a b = .ok w ∧ w.isNull = false ∧ w.ty = t) ∨
        ∃ cause, op.apply heap a b = .error (.arithmetic cause)) ∧
    (op.isEquality = false → (binaryType op l r).2 ≠ [] →
      op.apply heap a b = .error (.analyzerDefect (.operands l op r))) := by
  subst hl hr
  have hany : a.ty ≠ .any ∧ b.ty ≠ .any := ⟨a.ty_ne_any, b.ty_ne_any⟩
  refine ⟨fun t ht => ?_, fun hop hfound => ?_⟩
  · have hclean : (binaryType op a.ty b.ty).2 = [] := by rw [ht]
    have hdefined := BinaryOp.isDefinedOn_of_clean hany hclean
    refine (BinaryOp.apply_of_isDefinedOn ha hb hdefined).imp_left fun ⟨w, hw⟩ => ⟨w, hw, ?_, ?_⟩
    · exact Value.isNull_of_isValueType (BinaryOp.isValueType_of_apply hw)
    · rw [BinaryOp.ty_of_apply hw, ← BinaryOp.resultType_of_clean hany hclean, ht]
  · refine BinaryOp.apply_of_not_isDefinedOn ha hb ?_
    by_contra hdefined
    rw [Bool.not_eq_false] at hdefined
    exact hfound (BinaryOp.clean_of_isDefinedOn hop
      ⟨Value.isNullLiteral_ty ha, Value.isNullLiteral_ty hb⟩ hdefined)

/-- A division by zero fails, an array is joined with a text, and a text is not taken away from an
array. -/
theorem operator_tables_agree_cases :
    (∃ cause, BinaryOp.apply {} .div (.int 1) (.int 0) = .error (.arithmetic cause)) ∧
    (∃ w, BinaryOp.apply {} .add (.array .int 0) (.str "s") = .ok w ∧ w.ty = .string) ∧
    BinaryOp.apply {} .sub (.array .int 0) (.str "s") =
      .error (.analyzerDefect (.operands (.arrayOf .int) .sub .string)) := by
  obtain ⟨hdiv, -⟩ :=
    operator_tables_agree {} .div (a := .int 1) (b := .int 0) rfl rfl rfl rfl
  obtain ⟨hadd, -⟩ :=
    operator_tables_agree {} .add (a := .array .int 0) (b := .str "s") rfl rfl rfl rfl
  obtain ⟨-, hsub⟩ :=
    operator_tables_agree {} .sub (a := .array .int 0) (b := .str "s") rfl rfl rfl rfl
  refine ⟨(hdiv .int rfl).resolve_left nofun, ?_, hsub rfl (by decide)⟩
  obtain ⟨w, hw, -, hty⟩ := (hadd .string rfl).resolve_right nofun
  exact ⟨w, hw, hty⟩

end FrameScript
