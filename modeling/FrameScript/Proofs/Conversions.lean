import FrameScript.Proofs.DoubleValues
import FrameScript.Proofs.Inputs

set_option autoImplicit false

/-!
# Laws of conversion

A conversion gives a value of its target, or fails. What it gives is the value itself but for three
cases: integers and doubles are converted into each other, and a null takes the tag of the target.
A second conversion to the same type changes nothing any more.

## Main definitions

* `Value.Converts` — the numbers that change their kind.
* `Value.CastsTo` — the rules of conversion, one for each way in which a type takes a value.
* `CastLaws` — what holds of the conversion of a value to a type.

## Main results

* `Value.cast_eq_ok_iff` — a conversion gives what the rules say, and fails where they say nothing.
* `cast_laws` — the laws hold of any value and any type.
-/

namespace FrameScript

open Integer

namespace Value

variable {v w : Value} {target : Ty}

/-! ## Rules -/

/-- A number that changes its kind: an integer that is converted to a double, or a finite double in
the range of integers that is converted to an integer. -/
inductive Converts (target : Ty) : Value → Prop
  /-- Every integer. -/
  | int (n : Int64) (htarget : target = .float) : Converts target (.int n)
  /-- A finite double in range. -/
  | float (x : Float) (htarget : target = .int) (hfinite : x.isFinite = true)
    (hlow : -2 ^ 63 ≤ Binary64.value x) (hhigh : Binary64.value x < 2 ^ 63) :
    Converts target (.float x)

/-- What the conversion of a value to a type gives. -/
inductive CastsTo (target : Ty) : Value → Value → Prop
  /-- A value that is there is kept if its type is accepted. -/
  | kept {v : Value} (hnull : v.isNull = false) (haccepts : target.accepts v.ty = true) :
    CastsTo target v v
  /-- An integer becomes a double. -/
  | double (n : Int64) (htarget : target = .float) :
    CastsTo target (.int n) (.float (Integer.toFloat n))
  /-- A double becomes the integer that it is when rounded toward zero. -/
  | integer {x : Float} {n : Int64} (htarget : target = .int) (hfinite : x.isFinite = true)
    (hn : n.toInt = towardZero (Binary64.value x)) : CastsTo target (.float x) (.int n)
  /-- A null is kept under the top type. -/
  | any (tag : RefTy) (htarget : target = .any) : CastsTo target (.null tag) (.null tag)
  /-- A null becomes the null of a reference type. -/
  | null (tag : RefTy) {r : RefTy} (htarget : target = .ref r) :
    CastsTo target (.null tag) (.null r)

/-- A value that is there, and no number to convert, is converted to types that accept it. -/
theorem cast_of_accepts (hnull : v.isNull = false) (hint : ∀ n, v = .int n → target ≠ .float)
    (hfloat : ∀ x, v = .float x → target ≠ .int) :
    v.cast target = if target.accepts v.ty then .ok v else .error (.invalidCast v.ty target) := by
  cases v with
  | null tag => cases hnull
  | int n => cases target with
    | float => exact absurd rfl (hint n rfl)
    | _ => rfl
  | float x => cases target with
    | int => exact absurd rfl (hfloat x rfl)
    | _ => rfl
  | _ => rfl

/-- A double is converted to the integer that it rounds to, if that has 64 bits. -/
theorem cast_float_int (x : Float) :
    (float x).cast .int = match Integer.ofFloat? x with
      | some n => .ok (.int n)
      | none => .error (.invalidCast .float .int) :=
  rfl

/-- **A conversion gives what the rules say**, and fails where they say nothing. -/
theorem cast_eq_ok_iff : v.cast target = .ok w ↔ CastsTo target v w := by
  constructor
  · intro h
    unfold cast at h
    dsimp only at h
    split at h
    · cases h
      exact .any _ rfl
    · cases h
      exact .null _ rfl
    · cases h
    · cases h
      exact .double _ rfl
    next x =>
      split at h
      next n hn =>
        cases h
        obtain ⟨hfinite, hn⟩ := ofFloat?_eq_some_iff.mp hn
        exact .integer rfl hfinite hn
      · cases h
    next hpresent _ _ _ _ =>
      split at h
      next haccepts =>
        cases h
        refine .kept ?_ haccepts
        cases v with
        | null tag => exact (hpresent tag rfl).elim
        | _ => rfl
      · cases h
  · intro h
    cases h with
    | kept hnull haccepts =>
      rw [cast_of_accepts hnull, if_pos haccepts]
      · rintro n rfl rfl
        cases haccepts
      · rintro x rfl rfl
        cases haccepts
    | double n htarget =>
      rw [htarget]
      rfl
    | integer htarget hfinite hn =>
      rw [htarget, cast_float_int, ofFloat?_eq_some_iff.mpr ⟨hfinite, hn⟩]
    | any tag htarget =>
      rw [htarget]
      rfl
    | null tag htarget =>
      rw [htarget]
      rfl

/-- A conversion that fails names the type of the value and the target. -/
theorem eq_invalidCast_of_cast {f : Fault} (h : v.cast target = .error f) :
    f = .invalidCast v.ty target := by
  unfold cast at h
  dsimp only at h
  split at h
  · cases h
  · cases h
  · cases h
    rfl
  · cases h
  · split at h
    · cases h
    · cases h
      rfl
  · split at h
    · cases h
    · cases h
      rfl

theorem exists_error_iff : (∃ f, v.cast target = .error f) ↔ ¬∃ w, CastsTo target v w := by
  simp only [← cast_eq_ok_iff]
  cases v.cast target with
  | error f => exact iff_of_true ⟨f, rfl⟩ nofun
  | ok w => exact iff_of_false nofun (not_not.mpr ⟨w, rfl⟩)

/-! ## What the rules give -/

/-- A number changes its kind exactly if the rules have a double or an integer for it. -/
theorem exists_castsTo_iff (hnull : v.isNull = false) :
    (∃ w, CastsTo target v w) ↔ target.accepts v.ty = true ∨ v.Converts target := by
  constructor
  · rintro ⟨w, h⟩
    cases h with
    | kept _ haccepts => exact .inl haccepts
    | double n htarget => exact .inr (.int n htarget)
    | @integer x n htarget hfinite hn =>
      obtain ⟨hfinite, hlow, hhigh⟩ := isSome_ofFloat?_iff.mp
        (Option.isSome_of_eq_some (ofFloat?_eq_some_iff.mpr ⟨hfinite, hn⟩))
      exact .inr (.float x htarget hfinite hlow hhigh)
    | any | null => cases hnull
  · rintro (haccepts | hconverts)
    · exact ⟨v, .kept hnull haccepts⟩
    · cases hconverts with
      | int n htarget => exact ⟨_, .double n htarget⟩
      | float x htarget hfinite hlow hhigh =>
        obtain ⟨n, hn⟩ := Option.isSome_iff_exists.mp
          (isSome_ofFloat?_iff.mpr ⟨hfinite, hlow, hhigh⟩)
        obtain ⟨-, hn⟩ := ofFloat?_eq_some_iff.mp hn
        exact ⟨_, .integer htarget hfinite hn⟩

/-- There is a rule for a null under every type but value types. -/
theorem exists_castsTo_null_iff (hnull : v.isNull = true) :
    (∃ w, CastsTo target v w) ↔ target.isValueType = false := by
  cases v with
  | null tag =>
    cases target with
    | any => exact iff_of_true ⟨_, .any tag rfl⟩ rfl
    | ref r => exact iff_of_true ⟨_, .null tag rfl⟩ rfl
    | _ => exact iff_of_false (by rintro ⟨w, h⟩; cases h <;> contradiction) nofun
  | _ => cases hnull

namespace CastsTo

theorem isNull_eq (h : CastsTo target v w) : w.isNull = v.isNull := by
  cases h <;> rfl

/-- The target accepts what it gives. -/
theorem accepts (h : CastsTo target v w) : target.accepts w.ty = true := by
  cases h with
  | kept _ haccepts => exact haccepts
  | any _ htarget => rw [htarget]; exact Ty.accepts_of_any _
  | double _ htarget | integer htarget | null _ htarget =>
    rw [htarget]
    exact Ty.accepts_self _

/-- What a conversion gives is kept by a second one. -/
theorem again (h : CastsTo target v w) : CastsTo target w w := by
  have haccepts := h.accepts
  cases h with
  | kept hnull _ => exact .kept hnull haccepts
  | double | integer => exact .kept rfl haccepts
  | any tag htarget => exact .any tag htarget
  | null tag htarget => exact .null _ htarget

end CastsTo

end Value

/-! ## The laws -/

/-- What holds of the conversion of a value to a type. -/
structure CastLaws (target : Ty) (v : Value) : Prop where
  /-- A result is null exactly if the value is. -/
  null : ∀ w, v.cast target = .ok w → w.isNull = v.isNull
  /-- The target accepts the type of a result. -/
  accepted : ∀ w, v.cast target = .ok w → target.accepts w.ty = true
  /-- A second conversion gives the same value. -/
  idempotent : ∀ w, v.cast target = .ok w → w.cast target = .ok w
  /-- A result is the value itself, but for numbers that change their kind and for nulls that take
  the tag of the target. -/
  same : ∀ w, v.cast target = .ok w → w = v ∨
    (∃ n, v = .int n ∧ target = .float ∧ w = .float (Integer.toFloat n)) ∨
    (∃ x n, v = .float x ∧ target = .int ∧ w = .int n ∧
      n.toInt = towardZero (Binary64.value x)) ∨
    ∃ tag r, v = .null tag ∧ target = .ref r ∧ w = .null r
  /-- A null is refused by value types only. -/
  null_fails : v.isNull = true →
    ((∃ f, v.cast target = .error f) ↔ target.isValueType = true)
  /-- Any other value is refused by the types that do not accept its own, unless it is a number that
  changes its kind. -/
  fails : v.isNull = false →
    ((∃ f, v.cast target = .error f) ↔ target.accepts v.ty = false ∧ ¬v.Converts target)
  /-- A conversion that fails names both types. -/
  fault : ∀ f, v.cast target = .error f → f = .invalidCast v.ty target

open Value in
/-- **Conversions land in their target and are idempotent**: what the conversion of a value to a
type gives is null just as the value is, has a type that the target accepts, is left alone by a
second conversion, and is the value itself unless a number changes its kind or a null its tag. A
null is refused by value types only, and any other value only if the target does not accept its type
and it is neither an integer for a double nor a finite double in the range of integers for an
integer.

**Proof sketch.** The conversion gives what the rules say (`Value.cast_eq_ok_iff`), and each law is
one of the rules. A double rounds to an integer of 64 bits only if it lies in the range of these
integers itself (`Binary64.inRange_towardZero_iff`). -/
theorem cast_laws (target : Ty) (v : Value) : CastLaws target v where
  null _ h := (cast_eq_ok_iff.mp h).isNull_eq
  accepted _ h := (cast_eq_ok_iff.mp h).accepts
  idempotent _ h := cast_eq_ok_iff.mpr (cast_eq_ok_iff.mp h).again
  same w h := by
    cases cast_eq_ok_iff.mp h with
    | kept | any => exact .inl rfl
    | double n htarget => exact .inr (.inl ⟨n, rfl, htarget, rfl⟩)
    | integer htarget _ hn => exact .inr (.inr (.inl ⟨_, _, rfl, htarget, rfl, hn⟩))
    | null tag htarget => exact .inr (.inr (.inr ⟨tag, _, rfl, htarget, rfl⟩))
  null_fails hnull := by
    rw [exists_error_iff, exists_castsTo_null_iff hnull, Bool.not_eq_false]
  fails hnull := by
    rw [exists_error_iff, exists_castsTo_iff hnull, not_or, Bool.not_eq_true]
  fault _ h := eq_invalidCast_of_cast h

/-- The largest double below the limit is converted, and the limit itself is not. -/
example :
    Integer.ofFloat? 9223372036854774784.0 = some 9223372036854774784 ∧
      Integer.ofFloat? 9223372036854775808.0 = none ∧
      Integer.ofFloat? (-9223372036854775808.0) = some Int64.minValue := by
  decide +kernel

end FrameScript
