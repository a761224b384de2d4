import FrameScript.Check.Infer
import FrameScript.Operation

set_option autoImplicit false

/-!
# Laws of equality

Numbers are equal by value, objects by identity, documents by content, and nulls if their tags are
compatible. However different these notions are, equality is reflexive and symmetric, and values
that are equal have types that the checker lets meet. It is not transitive, since the bare null
equals all nulls.

## Main definitions

* `Value.Incomparable` — nulls whose tags are not compatible.
* `EqualityLaws` — what holds of `==` and `!=` between two values.

## Main results

* `compare_comm`, `compare_self` — the order of doubles, read from both sides, and of a double and
  itself.
* `Json.equals_comm`, `Json.equals_self` — equality of documents.
* `Value.equals_comm`, `Value.equals_self` — equality of values.
* `Value.comparableWith_of_equals` — equal values have types that may be compared.
* `equality_laws` — the laws hold of any two values.
-/

namespace FrameScript

/-! ## Doubles -/

section Doubles

open Float.Model

theorem compare_sign_comm (s t : UnpackedFloat.Sign) :
    (compare s t).swap = compare t s := by
  cases s <;> cases t <;> rfl

theorem compare_magnitude_comm (e e' : Int) (m m' : Nat) :
    ((compare e e').then (compare m m')).swap = (compare e' e).then (compare m' m) := by
  rw [Ordering.swap_then, ← Std.OrientedCmp.eq_swap, ← Std.OrientedCmp.eq_swap]

/-- The order of two doubles is read from the other side the other way round. -/
theorem compare_comm (x y : UnpackedFloat) : (x.compare y).map Ordering.swap = y.compare x := by
  cases x with
  | notANumber => cases y <;> rfl
  | infinity s => cases y with
    | infinity t => exact congrArg some (compare_sign_comm s t)
    | _ => cases s <;> rfl
  | zero s => cases y with
    | infinity t | finite t => cases t <;> rfl
    | _ => rfl
  | finite s m e => cases y with
    | notANumber => rfl
    | infinity t => cases t <;> rfl
    | zero t => cases s <;> rfl
    | finite t n f =>
      have hmagnitude := compare_magnitude_comm e f m n
      cases s with
      | negative => cases t with
        | negative => exact congrArg (fun o => some o.swap) hmagnitude
        | positive => rfl
      | positive => cases t with
        | negative => rfl
        | positive => exact congrArg some hmagnitude

/-- A defined number is where it is. -/
theorem compare_self {x : UnpackedFloat} (hx : x.isNaN = false) : x.compare x = some .eq := by
  rcases x with s | _ | s | ⟨s, m, e, hm⟩
  · cases s <;> rfl
  · cases hx
  · rfl
  · have hmagnitude : (compare e e).then (compare m m) = .eq := by
      rw [Std.compare_self, Std.compare_self]
      rfl
    cases s with
    | negative => exact congrArg (fun o => some o.swap) hmagnitude
    | positive => exact congrArg some hmagnitude

theorem beq_float_comm (x y : Float) : (x == y) = (y == x) := by
  change (x.toModel.unpack.compare y.toModel.unpack == some .eq) =
    (y.toModel.unpack.compare x.toModel.unpack == some .eq)
  rw [← compare_comm x.toModel.unpack]
  rcases x.toModel.unpack.compare y.toModel.unpack with _ | _ | _ | _ <;> rfl

theorem beq_float_self {x : Float} (hx : x.isNaN = false) : (x == x) = true := by
  change (x.toModel.unpack.compare x.toModel.unpack == some .eq) = true
  rw [compare_self hx]
  rfl

theorem isNaN_of_isFinite {x : Float} (hx : x.isFinite = true) : x.isNaN = false := by
  change x.toModel.unpack.isFinite = true at hx
  change x.toModel.unpack.isNaN = false
  cases hunpack : x.toModel.unpack with
  | infinity s | notANumber =>
    rw [hunpack] at hx
    cases hx
  | zero s | finite s m e hm => rfl

end Doubles

namespace Value

theorem floatEquals_comm (x y : Float) : floatEquals x y = floatEquals y x := by
  rw [floatEquals, floatEquals, beq_float_comm, Bool.and_comm]

theorem floatEquals_self (x : Float) : floatEquals x x = true := by
  cases hx : x.isNaN with
  | true => rw [floatEquals, hx, Bool.and_self, Bool.or_true]
  | false => simp [floatEquals, beq_float_self hx]

end Value

/-! ## Documents -/

namespace Json

mutual

/-- Equality of documents is symmetric. -/
theorem equals_comm (j k : Json) : j.equals k = k.equals j := by
  cases j with
  | bool b => cases k with
    | bool c => exact BEq.comm
    | _ => rfl
  | int m => cases k with
    | int n => exact BEq.comm
    | _ => rfl
  | float x => cases k with
    | float y => exact beq_float_comm x.val y.val
    | _ => rfl
  | str s => cases k with
    | str t => exact BEq.comm
    | _ => rfl
  | arr items => cases k with
    | arr items' => exact equalsItems_comm items items'
    | _ => rfl
  | obj members => cases k with
    | obj members' => exact equalsMembers_comm members members'
    | _ => rfl
  | null => cases k <;> rfl

theorem equalsItems_comm (js ks : List Json) : equalsItems js ks = equalsItems ks js := by
  cases js with
  | nil => cases ks <;> rfl
  | cons j js => cases ks with
    | nil => rfl
    | cons k ks => rw [equalsItems, equalsItems, equals_comm j k, equalsItems_comm js ks]

theorem equalsMembers_comm (js ks : List (String × Json)) :
    equalsMembers js ks = equalsMembers ks js := by
  cases js with
  | nil => cases ks <;> rfl
  | cons j js => cases ks with
    | nil => rfl
    | cons k ks =>
      obtain ⟨m, j⟩ := j
      obtain ⟨n, k⟩ := k
      rw [equalsMembers, equalsMembers, BEq.comm (a := m), equals_comm j k,
        equalsMembers_comm js ks]

end

mutual

/-- Equality of documents is reflexive, since doubles in documents are finite. -/
theorem equals_self (j : Json) : j.equals j = true := by
  cases j with
  | float x => exact beq_float_self (isNaN_of_isFinite x.finite)
  | arr items => exact equalsItems_self items
  | obj members => exact equalsMembers_self members
  | null => rfl
  | bool b => exact beq_self_eq_true b
  | int n => exact beq_self_eq_true n
  | str s => exact beq_self_eq_true s

theorem equalsItems_self (js : List Json) : equalsItems js js = true := by
  cases js with
  | nil => rfl
  | cons j js => rw [equalsItems, equals_self j, equalsItems_self js, Bool.and_self]

theorem equalsMembers_self (js : List (String × Json)) : equalsMembers js js = true := by
  cases js with
  | nil => rfl
  | cons j js =>
    obtain ⟨name, j⟩ := j
    rw [equalsMembers, equals_self j, equalsMembers_self js, beq_self_eq_true, Bool.and_self,
      Bool.and_self]

end

end Json

/-! ## Nulls -/

namespace RefTy

theorem compatibleWith_comm (r s : RefTy) : r.compatibleWith s = s.compatibleWith r := by
  simp only [compatibleWith, BEq.comm (a := r) (b := s), Bool.or_right_comm]

theorem compatibleWith_self (r : RefTy) : r.compatibleWith r = true := by
  simp [compatibleWith]

end RefTy

/-! ## Values -/

namespace Value

/-- Equality of values is symmetric. -/
theorem equals_comm (l r : Value) : l.equals r = r.equals l := by
  cases l with
  | int m => cases r with
    | int n => exact BEq.comm
    | _ => rfl
  | float x => cases r with
    | float y => exact floatEquals_comm x y
    | _ => rfl
  | bool b => cases r with
    | bool c => exact BEq.comm
    | _ => rfl
  | str s => cases r with
    | str t => exact BEq.comm
    | _ => rfl
  | xml s => cases r with
    | xml t => exact BEq.comm
    | _ => rfl
  | null s => cases r with
    | null t => exact s.compatibleWith_comm t
    | _ => rfl
  | array elem id => cases r with
    | array elem' id' => rw [equals, equals, BEq.comm (a := elem), BEq.comm (a := id)]
    | _ => rfl
  | map id => cases r with
    | map id' => exact BEq.comm
    | _ => rfl
  | struct name id => cases r with
    | struct name' id' => rw [equals, equals, BEq.comm (a := name), BEq.comm (a := id)]
    | _ => rfl
  | connector name id => cases r with
    | connector name' id' => rw [equals, equals, BEq.comm (a := name), BEq.comm (a := id)]
    | _ => rfl
  | message id => cases r with
    | message id' => exact BEq.comm
    | _ => rfl
  | json doc => cases r with
    | json doc' => exact doc.equals_comm doc'
    | _ => rfl

/-- Equality of values is reflexive, also for undefined numbers and for objects in a circle. -/
theorem equals_self (v : Value) : v.equals v = true := by
  cases v with
  | float x => exact floatEquals_self x
  | null tag => exact tag.compatibleWith_self
  | json doc => exact doc.equals_self
  | _ => simp [equals]

/-- Equal values have types that may be compared. -/
theorem comparableWith_of_equals {l r : Value} (h : l.equals r = true) :
    l.ty.comparableWith r.ty = true := by
  cases l <;> cases r <;> simp_all [equals, ty, Ty.comparableWith, Ty.isNumeric,
    RefTy.compatibleWith]

/-- Nulls whose tags are not compatible. -/
def Incomparable (l r : Value) : Prop :=
  ∃ s t, l = .null s ∧ r = .null t ∧ s.compatibleWith t = false

theorem incomparable_comm (l r : Value) : l.Incomparable r ↔ r.Incomparable l := by
  constructor <;> rintro ⟨s, t, rfl, rfl, h⟩ <;>
    exact ⟨t, s, rfl, rfl, by rw [RefTy.compatibleWith_comm, h]⟩

theorem not_incomparable_self (v : Value) : ¬v.Incomparable v := by
  rintro ⟨s, t, rfl, ht, h⟩
  injection ht with ht
  rw [← ht, RefTy.compatibleWith_self] at h
  cases h

end Value

/-! ## Operators -/

namespace BinaryOp

variable {l r : Value}

/-- Nulls whose tags are not compatible cannot be compared. -/
theorem equality_of_incomparable (h : l.Incomparable r) :
    ∃ f, equality l r = .error f := by
  obtain ⟨s, t, rfl, rfl, h⟩ := h
  exact ⟨_, by rw [equality, if_neg (by simp [h])]⟩

/-- All other values can. -/
theorem equality_of_not_incomparable (h : ¬l.Incomparable r) :
    equality l r = .ok (l.equals r) := by
  unfold equality
  split
  next s t =>
    cases hcompatible : s.compatibleWith t with
    | true => simp [Value.equals, hcompatible]
    | false => exact absurd ⟨s, t, rfl, rfl, hcompatible⟩ h
  · rfl

theorem apply_eq (heap : Heap) : eq.apply heap l r = (equality l r).map .bool :=
  rfl

theorem apply_ne (heap : Heap) : ne.apply heap l r = ((equality l r).map (!·)).map .bool :=
  rfl

theorem apply_eq_of_not_incomparable (heap : Heap) (h : ¬l.Incomparable r) :
    eq.apply heap l r = .ok (.bool (l.equals r)) := by
  rw [apply_eq, equality_of_not_incomparable h]
  rfl

theorem apply_ne_of_not_incomparable (heap : Heap) (h : ¬l.Incomparable r) :
    ne.apply heap l r = .ok (.bool !l.equals r) := by
  rw [apply_ne, equality_of_not_incomparable h]
  rfl

/-- Operators of equality fault on nulls that cannot be compared, and on nothing else. -/
theorem apply_faults_iff (heap : Heap) {op : BinaryOp} (hop : op.isEquality = true) :
    (∃ f, op.apply heap l r = .error f) ↔ l.Incomparable r := by
  constructor
  · rintro ⟨f, hf⟩
    refine Classical.byContradiction fun h => ?_
    cases op with
    | eq =>
      rw [apply_eq_of_not_incomparable heap h] at hf
      cases hf
    | ne =>
      rw [apply_ne_of_not_incomparable heap h] at hf
      cases hf
    | _ => cases hop
  · intro h
    obtain ⟨f, hf⟩ := equality_of_incomparable h
    cases op with
    | eq => exact ⟨f, by rw [apply_eq, hf]; rfl⟩
    | ne => exact ⟨f, by rw [apply_ne, hf]; rfl⟩
    | _ => cases hop

/-- The checker reports nothing on a comparison of types that may be compared. -/
theorem binaryType_of_comparableWith {op : BinaryOp} {s t : Ty} (hop : op.isEquality = true)
    (h : s.comparableWith t = true) : Checker.binaryType op s t = (.boolean, []) := by
  rw [Checker.binaryType, if_pos hop, if_pos h]

end BinaryOp

/-! ## The laws -/

/-- What holds of `==` and `!=` between two values. -/
structure EqualityLaws (heap : Heap) (l r : Value) : Prop where
  /-- `==` faults on nulls whose tags are not compatible, and on nothing else. -/
  eq_faults : (∃ f, BinaryOp.eq.apply heap l r = .error f) ↔ l.Incomparable r
  /-- So does `!=`. -/
  ne_faults : (∃ f, BinaryOp.ne.apply heap l r = .error f) ↔ l.Incomparable r
  /-- Which operand stands where does not matter for that. -/
  incomparable_comm : l.Incomparable r ↔ r.Incomparable l
  /-- Otherwise there is an answer, which is the same with the operands swapped, and `!=` gives the
  opposite one. -/
  answers : ¬l.Incomparable r → ∃ b : Bool,
    BinaryOp.eq.apply heap l r = .ok (.bool b) ∧
    BinaryOp.eq.apply heap r l = .ok (.bool b) ∧
    BinaryOp.ne.apply heap l r = .ok (.bool !b)
  /-- A value equals itself. -/
  refl : BinaryOp.eq.apply heap l l = .ok (.bool true)
  /-- Equal values have types that may be compared, so the checker reports neither operator on
  them. -/
  accepted : BinaryOp.eq.apply heap l r = .ok (.bool true) →
    l.ty.comparableWith r.ty = true ∧
    ∀ op : BinaryOp, op.isEquality = true → Checker.binaryType op l.ty r.ty = (.boolean, [])

/-- **Equality is reflexive and symmetric, and known to the checker**: on any two values and any
heap, `==` and `!=` fault together, exactly on nulls that cannot be compared; else they give
opposite answers that do not depend on which operand comes first; each value equals itself, and a
comparison that can succeed is never rejected by the checker for the types of its operands.

**Proof sketch.** But for nulls, `==` is `Value.equals`, which goes by the forms of its operands, so
each law is one of `Value.equals`. For doubles it is one of the order of unpacked floats, and for
documents one by induction on their structure. -/
theorem equality_laws (heap : Heap) (l r : Value) : EqualityLaws heap l r where
  eq_faults := BinaryOp.apply_faults_iff heap rfl
  ne_faults := BinaryOp.apply_faults_iff heap rfl
  incomparable_comm := l.incomparable_comm r
  answers h := by
    have hswapped : ¬r.Incomparable l := fun hr => h ((l.incomparable_comm r).mpr hr)
    refine ⟨l.equals r, BinaryOp.apply_eq_of_not_incomparable heap h, ?_,
      BinaryOp.apply_ne_of_not_incomparable heap h⟩
    rw [BinaryOp.apply_eq_of_not_incomparable heap hswapped, r.equals_comm l]
  refl := by
    rw [BinaryOp.apply_eq_of_not_incomparable heap l.not_incomparable_self, l.equals_self]
  accepted h := by
    have hcomparable : ¬l.Incomparable r := fun hincomparable => by
      obtain ⟨f, hf⟩ := (BinaryOp.apply_faults_iff heap (rfl : BinaryOp.eq.isEquality = true)).mpr
        hincomparable
      rw [h] at hf
      cases hf
    rw [BinaryOp.apply_eq_of_not_incomparable heap hcomparable] at h
    have hequals : l.equals r = true := by
      injection h with h
      injection h
    have hty := Value.comparableWith_of_equals hequals
    exact ⟨hty, fun _ hop => BinaryOp.binaryType_of_comparableWith hop hty⟩

/-- Equality is not transitive: a bare null equals the nulls of any two types. -/
example (heap : Heap) :
    let map : Value := .null .map
    let message : Value := .null .message
    BinaryOp.eq.apply heap map .bareNull = .ok (.bool true) ∧
      BinaryOp.eq.apply heap .bareNull message = .ok (.bool true) ∧
      (BinaryOp.eq.apply heap map message).toOption = none :=
  ⟨rfl, rfl, rfl⟩

end FrameScript
