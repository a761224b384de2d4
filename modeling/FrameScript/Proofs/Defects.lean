import FrameScript.Proofs.Inference
import FrameScript.Proofs.Typing

set_option autoImplicit false

/-!
# Defects of operations on typed values

Operations complain of a defect of the analysis where a value is not of a type that they can work
on. Here is what the analysis, if it finds nothing, leaves of these complaints when the values are
of the types that are inferred for them: only operators are still to blame.

## Main definitions

* `UnaryOp.isDefinedOn` — the types of the operands of a unary operator.

## Main results

* `UnaryOp.defect_of_apply`, `BinaryOp.defect_of_apply` — the defects that operators find.
* `element_spares`, `fieldOf_spares` — reading elements and fields finds none.
* `Value.Fits.bind_eq_ok` — values of a type may be stored under the type.
-/

namespace FrameScript

open Checker

/-! ## Forms of typed values -/

/-- A type other than the top type is compatible with a value type only if it is that type, and the
top type is not compatible with it. -/
theorem Checker.eq_of_compatible {expected found : Ty} (hty : expected.isValueType = true)
    (h : compatible expected found = []) : found = expected := by
  by_cases hany : found = .any
  · subst hany
    simp [compatible, Ty.isNullLiteral, hty] at h
  · exact Ty.eq_of_accepts hty (accepts_of_compatible h hany)

namespace Value.Fits

variable {v : Value}

theorem exists_int (h : v.Fits .int) : ∃ n, v = .int n := by
  have hty := h.ty_eq rfl
  cases v <;> simp_all [Value.ty]

theorem exists_str (h : v.Fits .string) : ∃ s, v = .str s := by
  have hty := h.ty_eq rfl
  cases v <;> simp_all [Value.ty]

theorem exists_bool (h : v.Fits .boolean) : ∃ b, v = .bool b := by
  have hty := h.ty_eq rfl
  cases v <;> simp_all [Value.ty]

theorem not_isNull {ty : Ty} (h : v.Fits ty) (hty : ty.isValueType = true) : v.isNull = false :=
  Value.isNull_of_isValueType (by rw [h.ty_eq hty]; exact hty)

/-- A value of a reference type other than arrays is null or has just that type. -/
theorem ty_of_nominal {r : RefTy} (h : v.Fits (.ref r)) (hr : r.isNominal = true)
    (hv : v.isNull = false) : v.ty = .ref r := by
  have haccepts := h.accepts hv
  cases hty : v.ty with
  | ref s =>
    rw [hty] at haccepts
    rcases Ty.accepts_ref haccepts with rfl | rfl | ⟨_, _, rfl, _⟩
    · rfl
    · cases v <;> simp_all [Value.ty, Value.isNull]
    · cases hr
  | _ =>
    rw [hty] at haccepts
    simp [Ty.accepts] at haccepts

/-- A value of a type of arrays is null or an array. -/
theorem exists_array {elem : Ty} (h : v.Fits (.arrayOf elem)) (hv : v.isNull = false) :
    ∃ elem' id, v = .array elem' id := by
  have haccepts := h.accepts hv
  cases v with
  | array elem' id => exact ⟨elem', id, rfl⟩
  | null tag => cases hv
  | _ => simp [Ty.accepts, Value.ty] at haccepts

/-- A value of a type may be stored under the type. -/
theorem bind_eq_ok {ty : Ty} (h : v.Fits ty) : v.bind ty = .ok (v.declaredAs ty) := by
  unfold Value.bind
  rw [if_neg]
  intro hnull
  rw [Bool.and_eq_true] at hnull
  rw [h.not_isNull hnull.1] at hnull
  cases hnull.2

theorem bindAs_ne_error {ty? : Option Ty} (h : ∀ ty, ty? = some ty → v.Fits ty) (f : Fault) :
    bindAs ty? v ≠ .error f := by
  cases ty? with
  | none => simp [bindAs]
  | some ty => simp [bindAs, (h ty rfl).bind_eq_ok]

end Value.Fits

/-- A conversion that fails finds no defect. -/
theorem Value.cast_spares {v : Value} {target : Ty} {d : Defect} :
    v.cast target ≠ .error (.analyzerDefect d) := by
  unfold Value.cast
  dsimp only
  split
  · simp
  · simp
  · simp
  · simp
  · split <;> simp
  · split <;> simp

/-! ## Operators -/

/-- Whether a unary operator is defined on the values of a type. -/
def UnaryOp.isDefinedOn : UnaryOp → Ty → Bool
  | .not, ty => ty == .boolean
  | .neg, ty => ty.isNumeric

/-- The values of a number type are integers or doubles. -/
theorem Value.Fits.of_isNumeric {v : Value} {ty : Ty} (h : v.Fits ty)
    (hty : ty.isNumeric = true) : (∃ n, v = .int n) ∨ ∃ x, v = .float x := by
  have hv := h.ty_eq (Ty.isValueType_of_isNumeric hty).1
  subst hv
  cases v <;> simp_all [Ty.isNumeric, Value.ty]

/-- A unary operator finds a defect only on operands of a type it is not defined on. -/
theorem UnaryOp.defect_of_apply {op : UnaryOp} {v : Value} {ty : Ty} {d : Defect} (hv : v.Fits ty)
    (h : op.apply v = .error (.analyzerDefect d)) :
    op.isDefinedOn ty = false ∧ (d = .nullOperand op ∨ d = .operand op v.ty) := by
  refine ⟨?_, ?_⟩
  · by_contra hdefined
    rw [Bool.not_eq_false] at hdefined
    cases op with
    | not =>
      obtain rfl : ty = .boolean := by simpa [isDefinedOn] using hdefined
      obtain ⟨b, rfl⟩ := hv.exists_bool
      simp [apply] at h
    | neg =>
      rcases hv.of_isNumeric hdefined with ⟨n, rfl⟩ | ⟨x, rfl⟩
      · simp only [apply] at h
        split at h <;> cases h
      · simp [apply] at h
  · unfold apply at h
    split at h
    · cases h
      exact .inl rfl
    · cases h
    · split at h <;> cases h
    · cases h
    · cases h
      exact .inr rfl

namespace BinaryOp

variable {op : BinaryOp} {heap : Heap} {l r : Value} {left right : Ty} {d : Defect}

theorem intResult_spares {a b : Int64} : op.intResult a b ≠ .error (.analyzerDefect d) := by
  unfold intResult
  split
  · simp
  · split <;> simp

/-- The operands that an arithmetic operator is found to be defined on: numbers, or for addition a
text and anything. -/
theorem arithmeticType_clean (hany : left ≠ .any ∧ right ≠ .any)
    (h : (arithmeticType op left right).2 = []) :
    (op = .add ∧ (left = .string ∨ right = .string)) ∨
      (left.isNumeric = true ∧ right.isNumeric = true) := by
  unfold arithmeticType at h
  rw [if_neg (by simpa using hany)] at h
  split at h
  next hstring => exact .inl (by simpa using hstring)
  · split at h
    next hint =>
      obtain ⟨rfl, rfl⟩ : left = .int ∧ right = .int := by simpa using hint
      exact .inr ⟨rfl, rfl⟩
    · split at h
      next hnumeric => exact .inr (by simpa using hnumeric)
      · cases h

/-- An arithmetic operator finds a defect only where a null is added to a text. -/
theorem arithmetic_defect (hop : op.isArithmetic = true) (hl : l.Fits left) (hr : r.Fits right)
    (hany : left ≠ .any ∧ right ≠ .any) (hclean : (arithmeticType op left right).2 = [])
    (h : op.apply heap l r = .error (.analyzerDefect d)) :
    op = .add ∧ d = .nullOperands .add ∧
      ((left = .string ∧ ∃ s, right = .ref s) ∨ (right = .string ∧ ∃ s, left = .ref s)) := by
  have href {v : Value} {ty : Ty} (hv : v.Fits ty) (hnull : v.isNull = true) (hty : ty ≠ .any) :
      ∃ s, ty = .ref s := by
    cases ty with
    | any => exact absurd rfl hty
    | ref s => exact ⟨s, rfl⟩
    | _ =>
      rw [hv.not_isNull rfl] at hnull
      cases hnull
  unfold apply at h
  rw [if_pos hop] at h
  rcases arithmeticType_clean hany hclean with ⟨rfl, hstring⟩ | ⟨hleft, hright⟩
  · by_cases hnull : (l.isNull || r.isNull) = true
    · rw [if_pos hnull] at h
      cases h
      refine ⟨rfl, rfl, ?_⟩
      rw [Bool.or_eq_true] at hnull
      rcases hstring with rfl | rfl
      · exact .inl ⟨rfl, href hr (hnull.resolve_left (by simp [hl.not_isNull rfl])) hany.2⟩
      · exact .inr ⟨rfl, href hl (hnull.resolve_right (by simp [hr.not_isNull rfl])) hany.1⟩
    · rw [if_neg hnull] at h
      rcases hstring with rfl | rfl
      · obtain ⟨s, rfl⟩ := hl.exists_str
        simp [arithmetic] at h
      · obtain ⟨s, rfl⟩ := hr.exists_str
        cases l <;> simp [arithmetic] at h
  · rcases hl.of_isNumeric hleft with ⟨a, rfl⟩ | ⟨a, rfl⟩ <;>
      rcases hr.of_isNumeric hright with ⟨b, rfl⟩ | ⟨b, rfl⟩ <;>
      simp only [Value.isNull, Bool.or_self, Bool.false_eq_true, if_false, arithmetic] at h
    · exact absurd h intResult_spares
    all_goals cases h

/-- The operands of a logical operator are found to be truth values. -/
theorem logicalOperand_clean (hany : left ≠ .any ∧ right ≠ .any)
    (h : logicalOperand left ++ logicalOperand right = []) :
    left = .boolean ∧ right = .boolean := by
  have hboolean {ty : Ty} (hty : ty ≠ .any) (h : logicalOperand ty = []) : ty = .boolean := by
    rw [logicalOperand, if_neg (by simpa using hty)] at h
    exact eq_of_compatible rfl h
  obtain ⟨hleft, hright⟩ := List.append_eq_nil_iff.mp h
  exact ⟨hboolean hany.1 hleft, hboolean hany.2 hright⟩

/-- A logical operator finds no defect. -/
theorem logical_spares (hl : l.Fits left) (hr : r.Fits right) (hany : left ≠ .any ∧ right ≠ .any)
    (hclean : logicalOperand left ++ logicalOperand right = []) :
    op.logical l r ≠ .error (.analyzerDefect d) := by
  obtain ⟨rfl, rfl⟩ := logicalOperand_clean hany hclean
  obtain ⟨a, rfl⟩ := hl.exists_bool
  obtain ⟨b, rfl⟩ := hr.exists_bool
  simp [logical]

/-- An operator of order finds no defect. -/
theorem order_spares (hl : l.Fits left) (hr : r.Fits right) (hany : left ≠ .any ∧ right ≠ .any)
    (hordered : ordered left right = true) : op.order l r ≠ .error (.analyzerDefect d) := by
  simp only [ordered, Bool.or_eq_true, Bool.and_eq_true, beq_iff_eq, hany.1, hany.2,
    false_or] at hordered
  rcases hordered with ⟨hleft, hright⟩ | ⟨rfl, rfl⟩
  · rcases hl.of_isNumeric hleft with ⟨a, rfl⟩ | ⟨a, rfl⟩ <;>
      rcases hr.of_isNumeric hright with ⟨b, rfl⟩ | ⟨b, rfl⟩ <;>
      simp [order, Value.isNull]
  · obtain ⟨a, rfl⟩ := hl.exists_str
    obtain ⟨b, rfl⟩ := hr.exists_str
    simp [order, Value.isNull]

/-- Equality finds a defect only on nulls with the tags of unrelated types. -/
theorem equality_defect (h : equality l r = .error (.analyzerDefect d)) :
    ∃ s t, l = .null s ∧ r = .null t ∧ s.compatibleWith t = false ∧
      d = .incomparableNulls s t := by
  unfold equality at h
  split at h
  · split at h
    · cases h
    next hcompatible =>
      cases h
      exact ⟨_, _, rfl, rfl, by simpa using hcompatible, rfl⟩
  · cases h

/-- Nulls that carry the tags of types that can be compared can be compared themselves. -/
theorem compatibleWith_of_taggedAs {a b s t : RefTy} (hcomparable : a.compatibleWith b = true)
    (hs : (Value.null s).TaggedAs (.ref a)) (ht : (Value.null t).TaggedAs (.ref b)) :
    s.compatibleWith t = true := by
  have hs := hs s a rfl rfl
  have ht := ht t b rfl rfl
  simp only [RefTy.compatibleWith, Bool.or_eq_true, beq_iff_eq] at hcomparable ⊢
  grind

/-- A null is of the top type or of a reference type. -/
theorem exists_ref_of_null {s : RefTy} {ty : Ty} (h : (Value.null s).Fits ty) (hty : ty ≠ .any) :
    ∃ t, ty = .ref t := by
  cases ty with
  | any => exact absurd rfl hty
  | ref t => exact ⟨t, rfl⟩
  | _ => exact absurd (h.not_isNull rfl) (by simp [Value.isNull])

/-- The operands of an operator in which nothing is found, by the kind of the operator. -/
theorem binaryType_clean (h : (binaryType op left right).2 = []) :
    (op.isArithmetic = true → (arithmeticType op left right).2 = []) ∧
      (op.isLogical = true → logicalOperand left ++ logicalOperand right = []) ∧
      (op.isOrdering = true → ordered left right = true) ∧
      (op.isEquality = true → left.comparableWith right = true) := by
  by_cases hnull : (left.isNullLiteral || right.isNullLiteral) = true
  · cases op <;> simp_all [binaryType, isArithmetic, isEquality, isLogical, isOrdering]
  · cases op <;> simp_all [binaryType, isArithmetic, isEquality, isLogical, isOrdering]

/-- A change of the value of a result adds no fault. -/
theorem error_of_map {α β : Type} {x : Except Fault α} {g : α → β} {f : Fault}
    (h : x.map g = .error f) : x = .error f := by
  cases x with
  | ok a => cases h
  | error e =>
    cases h
    rfl

/-- A binary operator finds a defect only where a null is added to a text, and where nulls of types
that can be compared carry other tags. -/
theorem defect_of_apply (hl : l.Fits left) (hr : r.Fits right)
    (hany : left ≠ .any ∧ right ≠ .any) (hclean : (binaryType op left right).2 = [])
    (h : op.apply heap l r = .error (.analyzerDefect d)) :
    (op = .add ∧ d = .nullOperands .add ∧
      ((left = .string ∧ ∃ s, right = .ref s) ∨ (right = .string ∧ ∃ s, left = .ref s))) ∨
    (op.isEquality = true ∧ ∃ a b s t, left = .ref a ∧ right = .ref b ∧
      a.compatibleWith b = true ∧ l = .null s ∧ r = .null t ∧ s.compatibleWith t = false ∧
      d = .incomparableNulls s t) := by
  obtain ⟨harithmetic, hlogical, hordering, hcomparable⟩ := binaryType_clean hclean
  have hequality (hop : op.isEquality = true) (h : equality l r = .error (.analyzerDefect d)) :
      ∃ a b s t, left = .ref a ∧ right = .ref b ∧ a.compatibleWith b = true ∧ l = .null s ∧
        r = .null t ∧ s.compatibleWith t = false ∧ d = .incomparableNulls s t := by
    obtain ⟨s, t, rfl, rfl, htags, rfl⟩ := equality_defect h
    obtain ⟨a, rfl⟩ := exists_ref_of_null hl hany.1
    obtain ⟨b, rfl⟩ := exists_ref_of_null hr hany.2
    exact ⟨a, b, s, t, rfl, rfl, hcomparable hop, rfl, rfl, htags, rfl⟩
  cases op with
  | eq => exact .inr ⟨rfl, hequality rfl (error_of_map h)⟩
  | ne => exact .inr ⟨rfl, hequality rfl (error_of_map (error_of_map h))⟩
  | gt | lt | ge | le => exact absurd (error_of_map h) (order_spares hl hr hany (hordering rfl))
  | and | or => exact absurd h (logical_spares hl hr hany (hlogical rfl))
  | add | sub | mul | div | mod =>
    exact .inl (arithmetic_defect rfl hl hr hany (harithmetic rfl) h)

end BinaryOp

/-! ## Elements and fields -/

section Parts

variable {c : Checker} {heap : Heap} {d : Defect}

/-- Looking into a null is no defect. -/
theorem nullFault_ne (base : Expr) : nullFault base ≠ .analyzerDefect d := by
  cases base with
  | index base key => exact nullFault_ne base
  | _ => simp [nullFault]

/-- What the elements of typed values are taken from under typed keys. -/
theorem index_cases {base key : Ty × List Diagnostic} {container k : Value}
    (hbase : container.Fits base.1) (hkey : k.Fits key.1) (hany : base.1 ≠ .any)
    (hclean : (c.indexType base key).2 = []) :
    (∃ tag, container = .null tag) ∨
      (∃ elem id n, container = .array elem id ∧ k = .int n) ∨
      (∃ id s, container = .map id ∧ k = .str s) ∨
      (base.1 = .ref .json ∧ ∃ doc, container = .json doc) := by
  cases hnull : container.isNull with
  | true =>
    cases container with
    | null tag => exact .inl ⟨tag, rfl⟩
    | _ => cases hnull
  | false =>
    unfold indexType at hclean
    split at hclean
    next elem hty =>
      rw [hty] at hbase
      obtain ⟨elem', id, rfl⟩ := hbase.exists_array hnull
      have hint := (expecting_eq_nil.mp (List.append_eq_nil_iff.mp hclean).2).2
      rw [eq_of_compatible rfl hint] at hkey
      obtain ⟨n, rfl⟩ := hkey.exists_int
      exact .inr (.inl ⟨elem', id, n, rfl, rfl⟩)
    next hty =>
      rw [hty] at hbase
      have hty := hbase.ty_of_nominal rfl hnull
      have hstring := (expecting_eq_nil.mp (List.append_eq_nil_iff.mp hclean).2).2
      rw [eq_of_compatible rfl hstring] at hkey
      obtain ⟨s, rfl⟩ := hkey.exists_str
      cases container with
      | map id => exact .inr (.inr (.inl ⟨id, s, rfl, rfl⟩))
      | null tag => cases hnull
      | _ => cases hty
    next hty =>
      have htype := hty
      rw [hty] at hbase
      have hty := hbase.ty_of_nominal rfl hnull
      cases container with
      | json doc => exact .inr (.inr (.inr ⟨htype, doc, rfl⟩))
      | null tag => cases hnull
      | _ => cases hty
    next hty => exact absurd hty hany
    · simp at hclean

/-- Reading elements of typed values under typed keys finds no defect. -/
theorem element_spares {base key : Expr} {container k : Value}
    (hbase : container.Fits (base.infer c).1) (hkey : k.Fits (key.infer c).1)
    (hany : (base.infer c).1 ≠ .any)
    (hclean : (c.indexType (base.infer c) (key.infer c)).2 = []) :
    element heap base container k ≠ .error (.analyzerDefect d) := by
  rcases index_cases hbase hkey hany hclean with ⟨tag, rfl⟩ | ⟨elem, id, n, rfl, rfl⟩ |
    ⟨id, s, rfl, rfl⟩ | ⟨_, doc, rfl⟩
  · simpa [element] using nullFault_ne base
  · change Heap.element _ n ≠ _
    unfold Heap.element
    split
    · split <;> simp
    · simp
  · intro h
    simp only [element, mapKey, bind, Except.bind] at h
    split at h <;> cases h
  · simp [element]

/-- What the fields of typed values are taken from. -/
theorem field_cases {ty : Ty} {name : String} {target : Value} (htarget : target.Fits ty)
    (hany : ty ≠ .any) (hclean : (c.fieldType ty name).2 = []) :
    (∃ tag, target = .null tag) ∨
      (∃ struct id, ty = .ref (.struct struct) ∧ target = .struct struct id ∧
        ∀ decl, c.program.struct? struct = some decl → ∃ ty, decl.fieldType? name = some ty) ∨
      (∃ connector id, ty = .ref (.connector connector) ∧ target = .connector connector id ∧
        ∃ param, ((c.program.connectorParams? connector).getD []).find? (·.name == name) =
          some param) ∨
      (ty = .ref .json ∧ ∃ doc, target = .json doc) := by
  cases hnull : target.isNull with
  | true =>
    cases target with
    | null tag => exact .inl ⟨tag, rfl⟩
    | _ => cases hnull
  | false =>
    unfold fieldType at hclean
    split at hclean
    next struct =>
      have hty := htarget.ty_of_nominal rfl hnull
      cases target with
      | struct struct' id =>
        cases hty
        refine .inr (.inl ⟨struct, id, rfl, rfl, fun decl hdecl => ?_⟩)
        rw [hdecl] at hclean
        cases hfield : decl.fieldType? name with
        | some ty => exact ⟨ty, rfl⟩
        | none => simp [hfield] at hclean
      | null tag => cases hnull
      | _ => cases hty
    next connector =>
      have hty := htarget.ty_of_nominal rfl hnull
      cases target with
      | connector connector' id =>
        cases hty
        refine .inr (.inr (.inl ⟨connector, id, rfl, rfl, ?_⟩))
        split at hclean
        next param hparam => exact ⟨param, hparam⟩
        · cases hclean
      | null tag => cases hnull
      | _ => cases hty
    · have hty := htarget.ty_of_nominal rfl hnull
      cases target with
      | json doc => exact .inr (.inr (.inr ⟨rfl, doc, rfl⟩))
      | null tag => cases hnull
      | _ => cases hty
    · exact absurd rfl hany
    · cases hclean

/-- Reading fields of typed values finds no defect, if the structs have the fields that are declared
for them. -/
theorem fieldOf_spares {base : Expr} {name : String} {target : Value}
    (htarget : target.Fits (base.infer c).1) (hany : (base.infer c).1 ≠ .any)
    (hclean : (c.fieldType (base.infer c).1 name).2 = [])
    (hstructs : ∀ struct id, target = .struct struct id →
      ∃ decl, c.program.struct? struct = some decl ∧ ∀ ty, decl.fieldType? name = some ty →
        (Heap.field? name (heap.struct id)).isSome = true) :
    fieldOf c.program heap base target name ≠ .error (.analyzerDefect d) := by
  rcases field_cases htarget hany hclean with ⟨tag, rfl⟩ | ⟨struct, id, _, rfl, hfield⟩ |
    ⟨connector, id, _, rfl, param, hparam⟩ | ⟨_, doc, rfl⟩
  · simpa [fieldOf] using nullFault_ne base
  · obtain ⟨decl, hdecl, hsome⟩ := hstructs struct id rfl
    obtain ⟨ty, hty⟩ := hfield decl hdecl
    obtain ⟨v, hv⟩ := Option.isSome_iff_exists.mp (hsome ty hty)
    simp [fieldOf, hv]
  · intro h
    simp only [fieldOf, connectorField] at h
    split at h
    next hnone =>
      rw [List.findIdx?_eq_none_iff] at hnone
      have hmem := List.mem_of_find?_eq_some hparam
      have hname := List.find?_some hparam
      rw [hnone param hmem] at hname
      cases hname
    · split at h <;> cases h
  · simp [fieldOf]

end Parts

/-! ## Calls -/

/-- An action on a value of a type of connectors is no defect. -/
theorem connectorName_spares {action connector : String} {v : Value} {d : Defect}
    (hv : v.Fits (.ref (.connector connector))) :
    connectorName action v ≠ .error (.analyzerDefect d) := by
  cases hnull : v.isNull with
  | true => cases v <;> simp_all [connectorName, Value.isNull]
  | false =>
    have hty := hv.ty_of_nominal rfl hnull
    cases v <;> simp_all [connectorName, Value.ty]

end FrameScript
