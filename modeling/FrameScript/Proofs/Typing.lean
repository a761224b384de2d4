import FrameScript.Proofs.Inputs
import FrameScript.Proofs.Judgement
import FrameScript.Proofs.Operators

set_option autoImplicit false

/-!
# Values of a type

Which values an expression of a static type may have, and a place of a declared type may hold. A
null fits every reference type, whatever it is tagged with; any other value fits a type that accepts
its runtime type.

## Main definitions

* `Value.Fits` — a value of a type.
* `Value.StoredAs` — a value of a type as a place of the type holds it, with the tag of the type.
* `typeDiscipline` — the discipline that admits just such values.

## Main results

* `Ty.accepts_trans` — a type accepts what the types it accepts do.
* `Value.Fits.mono`, `Value.Fits.binds` — values of a type on their way into other places.
* `Value.Fits.unary`, `Value.Fits.binary`, `Value.fits_of_cast` — results of operators and
  conversions have the types that are inferred for them.
-/

namespace FrameScript

/-! ## Acceptance -/

namespace Ty

/-- A value type accepts nothing but itself. -/
theorem eq_of_accepts {slot found : Ty} (hslot : slot.isValueType = true)
    (h : slot.accepts found = true) : found = slot := by
  cases slot with
  | any => cases hslot
  | ref r => cases hslot
  | _ => cases found <;> simp [accepts] at h ⊢

/-- Number types are value types other than that of texts. -/
theorem isValueType_of_isNumeric {ty : Ty} (h : ty.isNumeric = true) :
    ty.isValueType = true ∧ ty ≠ .string := by
  cases ty <;> simp_all [isNumeric, isValueType]

/-- The top type is accepted by no other type. -/
theorem eq_any_of_accepts {slot : Ty} (h : slot.accepts .any = true) : slot = .any := by
  cases slot with
  | ref r => cases r <;> simp [accepts] at h
  | _ => simp [accepts] at h ⊢

/-- What accepts the bare null is no value type. -/
theorem not_isValueType_of_accepts {slot : Ty} {r : RefTy} (h : slot.accepts (.ref r) = true) :
    slot.isValueType = false := by
  cases slot with
  | any => rfl
  | ref r => rfl
  | _ => simp [accepts] at h

/-- Array types accept arrays of the same elements, those of the top type all arrays. -/
theorem accepts_array {elem found : Ty}
    (h : (Ty.arrayOf elem).accepts (.arrayOf found) = true) : elem = .any ∨ elem = found := by
  simpa [accepts, or_comm] using h

/-- Other reference types than those of arrays accept themselves and the bare null. -/
theorem accepts_ref {r s : RefTy} (h : (Ty.ref r).accepts (.ref s) = true) :
    r = s ∨ s = .null ∨ ∃ elem found, r = .array elem ∧ s = .array found := by
  cases r <;> cases s <;> simp_all [accepts]

/-- **Acceptance is transitive.** -/
theorem accepts_trans {a b c : Ty} (hab : a.accepts b = true) (hbc : b.accepts c = true) :
    a.accepts c = true := by
  cases b with
  | any => rw [eq_any_of_accepts hab]; exact accepts_of_any c
  | ref s =>
    cases a with
    | any => exact accepts_of_any c
    | ref r =>
      cases c with
      | ref t =>
        rcases accepts_ref hbc with rfl | rfl | ⟨elem, found, rfl, rfl⟩
        · exact hab
        · simp [accepts]
        · rcases accepts_ref hab with rfl | hnull | ⟨elem', _, rfl, heq⟩
          · exact hbc
          · cases hnull
          · cases heq
            rcases accepts_array hab with rfl | rfl
            · simp [accepts]
            · exact hbc
      | _ => simp [accepts] at hbc
    | _ => simp [accepts] at hab
  | _ => rw [eq_of_accepts rfl hbc]; exact hab

end Ty

/-! ## Values -/

/-- A value of the type: a null, if the type is a reference type, or a value whose runtime type the
type accepts. -/
def Value.Fits (ty : Ty) (v : Value) : Prop :=
  (v.isNull = true ∧ ∃ r, ty = .ref r) ∨ ty.accepts v.ty = true

/-- A null is tagged with a reference type. -/
theorem Value.exists_ref_of_isNull {v : Value} (h : v.isNull = true) : ∃ r, v.ty = .ref r := by
  cases v with
  | null tag => exact ⟨tag, rfl⟩
  | _ => cases h

/-- Storing a value that is not null changes nothing. -/
theorem Value.declaredAs_of_not_isNull {v : Value} (h : v.isNull = false) (ty : Ty) :
    v.declaredAs ty = v := by
  cases v with
  | null tag => cases h
  | _ => cases ty with
    | ref r => cases r <;> rfl
    | _ => rfl

/-- A null, if it is one, that is tagged with the type or with that of the bare null. -/
def Value.TaggedAs (ty : Ty) (v : Value) : Prop :=
  ∀ tag r, v = .null tag → ty = .ref r → tag = r ∨ tag = .null

theorem Value.taggedAs_of_not_isNull {v : Value} (h : v.isNull = false) (ty : Ty) :
    v.TaggedAs ty := by
  rintro tag r rfl
  cases h

/-- A value as a place of the type holds it. In the places of the type of the bare null, nulls keep
the tags they come with. -/
structure Value.StoredAs (ty : Ty) (v : Value) : Prop where
  fits : v.Fits ty
  tagged : ty ≠ .ref .null → v.TaggedAs ty

/-- The reference types that accept no types but their own and that of the bare null. -/
def RefTy.isNominal : RefTy → Bool
  | .array _ | .null => false
  | _ => true

namespace Value.Fits

variable {ty : Ty} {v w : Value}

theorem of_ty (h : v.ty = ty) : v.Fits ty :=
  .inr (h ▸ ty.accepts_self)

/-- All values are of the top type. -/
theorem of_any (v : Value) : v.Fits .any :=
  .inr (Ty.accepts_of_any _)

/-- The type of a value that is not null is accepted. -/
theorem accepts (h : v.Fits ty) (hv : v.isNull = false) : ty.accepts v.ty = true := by
  rcases h with ⟨hnull, _⟩ | hty
  · rw [hv] at hnull
    cases hnull
  · exact hty

/-- A value of a value type is of just that type. -/
theorem ty_eq (h : v.Fits ty) (hty : ty.isValueType = true) : v.ty = ty := by
  rcases h with ⟨_, r, rfl⟩ | haccepts
  · cases hty
  · exact Ty.eq_of_accepts hty haccepts

/-- A value of a type is a value of all types that accept it. -/
theorem mono {expected : Ty} (h : v.Fits ty) (hty : expected.accepts ty = true) :
    v.Fits expected := by
  rcases h with ⟨hnull, r, rfl⟩ | haccepts
  · have hexpected := Ty.not_isValueType_of_accepts hty
    cases expected with
    | any => exact .of_any _
    | ref s => exact .inl ⟨hnull, s, rfl⟩
    | _ => cases hexpected
  · exact .inr (Ty.accepts_trans hty haccepts)

/-- Storing a value of a type under the type leaves it one. -/
theorem declaredAs (h : v.Fits ty) : (v.declaredAs ty).Fits ty := by
  cases hv : v.isNull with
  | false => rwa [declaredAs_of_not_isNull hv]
  | true =>
    cases v with
    | null tag => cases ty with
      | ref r => cases r <;> exact .inl ⟨rfl, _, rfl⟩
      | _ => exact h
    | _ => cases hv

/-- A value of a type is stored with the tag of the type. -/
theorem storedAs (h : v.Fits ty) : (v.declaredAs ty).StoredAs ty where
  fits := h.declaredAs
  tagged := by
    rintro hty tag r hv rfl
    cases hnull : v.isNull with
    | false =>
      rw [declaredAs_of_not_isNull hnull] at hv
      subst hv
      cases hnull
    | true =>
      cases v with
      | null tag' =>
        cases r with
        | null => exact absurd rfl hty
        | _ =>
          cases hv
          exact .inl rfl
      | _ => cases hnull

/-- The type of an array is that of arrays of its elements, or mentions the top type. -/
theorem array {elem : Ty} {id : Nat} (h : (Value.array elem id).Fits ty) :
    ty = .any ∨ ty = .arrayOf .any ∨ ty = .arrayOf elem := by
  have haccepts := h.accepts rfl
  cases ty with
  | any => exact .inl rfl
  | ref r =>
    rcases Ty.accepts_ref haccepts with rfl | hnull | ⟨elem', _, rfl, heq⟩
    · exact .inr (.inr rfl)
    · cases hnull
    · cases heq
      rcases Ty.accepts_array haccepts with rfl | rfl
      · exact .inr (.inl rfl)
      · exact .inr (.inr rfl)
  | _ => simp [Ty.accepts, Value.ty] at haccepts

/-- The type of a value that is a struct, a connector, a map or a document is just its own. -/
theorem nominal {s : RefTy} (h : v.Fits ty) (hv : v.isNull = false) (hty : v.ty = .ref s)
    (hs : s.isNominal = true) : ty = .any ∨ ty = .ref s := by
  have haccepts := h.accepts hv
  rw [hty] at haccepts
  cases ty with
  | any => exact .inl rfl
  | ref r =>
    rcases Ty.accepts_ref haccepts with rfl | rfl | ⟨_, found, _, rfl⟩
    · exact .inr rfl
    · cases hs
    · cases hs
  | _ => simp [Ty.accepts] at haccepts

end Value.Fits

/-! ## Operators and conversions -/

/-- A conversion yields a value of its target. -/
theorem Value.fits_of_cast {target : Ty} {v w : Value} (h : v.cast target = .ok w) :
    w.Fits target := by
  unfold Value.cast at h
  dsimp only at h
  split at h
  · cases h
    exact .of_any _
  · cases h
    exact .of_ty rfl
  · cases h
  · cases h
    exact .of_ty rfl
  · split at h
    · cases h
      exact .of_ty rfl
    · cases h
  · split at h
    next haccepts =>
      cases h
      exact .inr haccepts
    · cases h

/-- A null that a conversion yields carries the tag of its target. -/
theorem Value.taggedAs_of_cast {target : Ty} {v w : Value} (h : v.cast target = .ok w) :
    w.TaggedAs target := by
  rintro tag r rfl rfl
  cases v with
  | null tag' =>
    cases h
    exact .inl rfl
  | _ =>
    unfold Value.cast at h
    dsimp only at h
    split at h <;> cases h

namespace Value.Fits

open Checker

variable {op : BinaryOp} {l r w : Value} {left right : Ty} {h : Heap}

/-- The result of a unary operator has the type that is inferred for it. -/
theorem unary {op : UnaryOp} {ty : Ty} {v w : Value} (hv : v.Fits ty) (hw : op.apply v = .ok w)
    (hclean : (unaryType op ty).2 = []) : w.Fits (unaryType op ty).1 := by
  obtain ⟨hsame, hvalue, hnot⟩ := UnaryOp.ty_of_apply hw
  have hpresent : v.isNull = false := isNull_of_isValueType (hsame ▸ hvalue)
  unfold unaryType at hclean ⊢
  split at hclean
  · cases hclean
  next hnull =>
    rw [if_neg hnull]
    cases op with
    | not => exact .of_ty (hnot rfl)
    | neg => exact .inr (hsame ▸ hv.accepts hpresent)

/-- The result of an arithmetic operator has the type that is inferred for it. -/
theorem arithmetic (hop : op.isArithmetic = true) (hl : l.Fits left) (hr : r.Fits right)
    (hw : op.apply h l r = .ok w) (hclean : (arithmeticType op left right).2 = []) :
    w.Fits (arithmeticType op left right).1 := by
  have hty := BinaryOp.ty_of_apply hw
  simp only [BinaryOp.resultType, hop, if_true] at hty
  unfold arithmeticType at hclean ⊢
  by_cases hany : (left == .any || right == .any) = true
  · rw [if_pos hany]
    exact .of_any w
  rw [if_neg hany] at hclean ⊢
  by_cases hstring : (op == .add && (left == .string || right == .string)) = true
  · rw [if_pos hstring]
    have htext : l.ty = .string ∨ r.ty = .string := by
      simp only [Bool.and_eq_true, Bool.or_eq_true, beq_iff_eq] at hstring
      rcases hstring.2 with rfl | rfl
      · exact .inl (hl.ty_eq rfl)
      · exact .inr (hr.ty_eq rfl)
    exact .of_ty (by rw [hty, if_pos htext])
  rw [if_neg hstring] at hclean ⊢
  by_cases hint : (left == .int && right == .int) = true
  · rw [if_pos hint]
    simp only [Bool.and_eq_true, beq_iff_eq] at hint
    obtain ⟨rfl, rfl⟩ := hint
    have hl := hl.ty_eq rfl
    have hr := hr.ty_eq rfl
    exact .of_ty (by simp [hty, hl, hr])
  rw [if_neg hint] at hclean ⊢
  by_cases hnumeric : (left.isNumeric && right.isNumeric) = true
  · rw [if_pos hnumeric]
    rw [Bool.and_eq_true] at hnumeric
    have hl' := Ty.isValueType_of_isNumeric hnumeric.1
    have hr' := Ty.isValueType_of_isNumeric hnumeric.2
    have hl := hl.ty_eq hl'.1
    have hr := hr.ty_eq hr'.1
    refine .of_ty ?_
    rw [hty, hl, hr, if_neg (by simp [hl'.2, hr'.2]), if_neg (by simpa using hint)]
  · rw [if_neg hnumeric] at hclean
    cases hclean

/-- An operator is either none of the arithmetic ones, or none of the others. -/
theorem isArithmetic_or (op : BinaryOp) : op.isArithmetic = false ∨
    (op.isArithmetic = true ∧ op.isEquality = false ∧ op.isLogical = false ∧
      op.isOrdering = false) := by
  cases op <;> decide

/-- Operators other than the arithmetic ones are inferred to yield truth values. -/
theorem binaryType_boolean (hop : op.isArithmetic = false) :
    (binaryType op left right).1 = .boolean := by
  unfold binaryType
  cases op <;> simp [BinaryOp.isArithmetic, BinaryOp.isEquality, BinaryOp.isLogical,
    BinaryOp.isOrdering] at hop ⊢ <;> split <;> rfl

/-- The result of a binary operator has the type that is inferred for it. -/
theorem binary (hl : l.Fits left) (hr : r.Fits right) (hw : op.apply h l r = .ok w)
    (hclean : (binaryType op left right).2 = []) :
    w.Fits (binaryType op left right).1 := by
  have hboolean (hop : op.isArithmetic = false) : w.Fits .boolean :=
    .of_ty (by rw [BinaryOp.ty_of_apply hw]; simp [BinaryOp.resultType, hop])
  rcases isArithmetic_or op with hop | ⟨hop, heq, hlog, hord⟩
  · rw [binaryType_boolean hop]
    exact hboolean hop
  · simp only [binaryType, heq, hlog, hord, Bool.false_eq_true, if_false] at hclean ⊢
    split at hclean
    · cases hclean
    next hnull =>
      rw [if_neg hnull]
      exact arithmetic hop hl hr hw hclean

/-- An operator that needs no right operand yields what is inferred for it. -/
theorem decided {v : Value} (hv : shortCircuit? op l = some v) :
    v.Fits (binaryType op left right).1 := by
  unfold shortCircuit? at hv
  split at hv
  · cases hv
    exact .of_ty rfl
  · cases hv
    exact .of_ty rfl
  · cases hv

end Value.Fits

/-! ## The discipline -/

/-- A value that a parameter admits is one of its type. -/
theorem Value.fits_of_refused? {ty : Ty} {v : Value} (h : refused? ty v = none) : v.Fits ty := by
  unfold refused? at h
  split at h
  next hnull =>
    split at h
    · cases h
    next hty =>
      cases ty with
      | any => exact .of_any _
      | ref r => exact .inl ⟨hnull, r, rfl⟩
      | _ => exact absurd rfl hty
  · split at h
    next haccepts => exact .inr haccepts
    · cases h

/-- A value of the type of a parameter is admitted. -/
theorem Value.Fits.refused?_eq_none {ty : Ty} {v : Value} (h : v.Fits ty) :
    refused? ty v = none := by
  unfold refused?
  split
  next hnull =>
    rcases h with ⟨_, r, rfl⟩ | haccepts
    · rfl
    · obtain ⟨r, hr⟩ := Value.exists_ref_of_isNull hnull
      rw [hr] at haccepts
      rw [if_neg (by simp [Ty.not_isValueType_of_accepts haccepts])]
  next hnull => rw [if_pos (h.accepts (by simpa using hnull))]

/-- A default is a value of its type. -/
theorem Ty.fits_default (ty : Ty) : ty.default.Fits ty := by
  cases ty with
  | any => exact .of_any _
  | _ => exact .of_ty rfl

/-- Places hold values of their declared types, with the tags of these, and connectors are built
from values of the types of their parameters. -/
def typeDiscipline : Discipline where
  Holds ty v := v.StoredAs ty
  Builds p name args := ∃ params, p.connectorParams? name = some params ∧
    List.Forall₂ (fun (param : Param) v => Value.Fits param.ty v) params args
  Hands _ _ := True
  default ty := by
    have hdefault : ty.default.declaredAs ty = ty.default := by
      cases ty with
      | ref r => cases r <;> rfl
      | _ => rfl
    exact hdefault ▸ ty.fits_default.storedAs
  admits _ _ h _ := (Value.fits_of_refused? h).storedAs
  handsPresent _ _ _ := trivial

/-- A value of the type of a place may be bound to the place. -/
theorem Value.Fits.binds {ty : Ty} {v : Value} (h : v.Fits ty) : typeDiscipline.Binds ty v := by
  intro w hw
  unfold Value.bind at hw
  split at hw
  · cases hw
  · cases hw
    exact h.storedAs

end FrameScript
