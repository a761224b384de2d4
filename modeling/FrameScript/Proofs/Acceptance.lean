import FrameScript.Proofs.Admission
import FrameScript.Proofs.Entry
import FrameScript.Proofs.Typing
import Mathlib.Order.Defs.Unbundled

set_option autoImplicit false

/-!
# The order of types

Acceptance orders the types: the top type is above all of them, the bare null is below every
reference type, and arrays of the top type are above all arrays. What the checker concludes for a
variable from its type therefore carries over to the values of the variable: a parameter that
accepts the type takes every value that the variable may hold.

## Main results

* `Ty.accepts_antisymm` — types that accept each other are equal; with `Ty.accepts_self` and
  `Ty.accepts_trans` this makes acceptance a partial order.
* `Ty.accepts_iff_takes` — a type accepts another one exactly if it takes all values that the other
  one takes.
* `acceptance_order` — the laws of the order, and what they mean for calls.

## Design

`Ty.Takes` says of a type and a value what `Ty.accepts` says of two types, with the exception that
nulls pass by being nulls, whatever they are tagged with. So transitivity settles only the values
that are there; for a null it is enough that no value type accepts any other type.
-/

namespace FrameScript

namespace Ty

/-! ## Order -/

/-- **Types that accept each other are equal.** -/
theorem accepts_antisymm {a b : Ty} (hab : a.accepts b = true) (hba : b.accepts a = true) :
    a = b := by
  cases a with
  | any => exact (eq_any_of_accepts hba).symm
  | ref r =>
    cases b with
    | any => exact eq_any_of_accepts hab
    | ref s =>
      rcases accepts_ref hab with rfl | rfl | ⟨elem, found, rfl, rfl⟩
      · rfl
      -- The type of the bare null accepts nothing but itself.
      · rcases accepts_ref hba with heq | rfl | ⟨_, _, hnull, _⟩
        · rw [heq]
        · rfl
        · cases hnull
      · rcases accepts_array hab with rfl | rfl
        · rcases accepts_array hba with rfl | rfl <;> rfl
        · rfl
    | _ => exact eq_of_accepts rfl hba
  | _ => exact (eq_of_accepts rfl hab).symm

/-- Acceptance is a partial order of the types. -/
theorem isPartialOrder_accepts :
    IsPartialOrder Ty (fun slot found => slot.accepts found = true) where
  refl := accepts_self
  trans _ _ _ hab hbc := accepts_trans hab hbc
  antisymm _ _ hab hba := accepts_antisymm hab hba

/-- A type accepts that of its default, which is its own but for the top type. -/
theorem accepts_default (ty : Ty) : ty.accepts ty.default.ty = true := by
  cases ty with
  | any => exact accepts_of_any _
  | _ => exact accepts_self _

/-! ## Taken values -/

/-- A type takes the values that the types it accepts do. -/
theorem Takes.mono {param var : Ty} {v : Value} (h : var.Takes v)
    (haccepts : param.accepts var = true) : param.Takes v := by
  obtain ⟨hnull, hpresent⟩ := h
  constructor
  · intro hv
    cases var with
    | any =>
      rw [eq_any_of_accepts haccepts]
      rfl
    | ref r => exact not_isValueType_of_accepts haccepts
    | _ => cases hnull hv
  · intro hv
    exact accepts_trans haccepts (hpresent hv)

/-- A null is taken by all types but value types. -/
theorem takes_null_iff {ty : Ty} {tag : RefTy} :
    ty.Takes (.null tag) ↔ ty.isValueType = false := by
  simp [Takes, Value.isNull]

/-- A value that is there is taken where its type is accepted. -/
theorem takes_iff_accepts {ty : Ty} {v : Value} (hv : v.isNull = false) :
    ty.Takes v ↔ ty.accepts v.ty = true := by
  simp [Takes, hv]

/-- A type other than the top type and that of the bare null has a value that is not null. -/
theorem exists_value {ty : Ty} (hany : ty ≠ .any) (hnull : ty ≠ .ref .null) :
    ∃ v : Value, v.isNull = false ∧ v.ty = ty := by
  cases ty with
  | int => exact ⟨.int 0, rfl, rfl⟩
  | float => exact ⟨.float 0.0, rfl, rfl⟩
  | boolean => exact ⟨.bool false, rfl, rfl⟩
  | string => exact ⟨.str "", rfl, rfl⟩
  | any => exact absurd rfl hany
  | ref r =>
    cases r with
    | array elem => exact ⟨.array elem 0, rfl, rfl⟩
    | map => exact ⟨.map 0, rfl, rfl⟩
    | struct name => exact ⟨.struct name 0, rfl, rfl⟩
    | connector name => exact ⟨.connector name 0, rfl, rfl⟩
    | message => exact ⟨.message 0, rfl, rfl⟩
    | xml => exact ⟨.xml "", rfl, rfl⟩
    | json => exact ⟨.json .null, rfl, rfl⟩
    | null => exact absurd rfl hnull

/-- Only the top type takes both integers and texts. -/
theorem eq_any_of_takes {ty : Ty} (hint : ty.Takes (.int 0)) (hstr : ty.Takes (.str "")) :
    ty = .any := by
  have hint : ty.accepts .int = true := (takes_iff_accepts rfl).mp hint
  have hstr : ty.accepts .string = true := (takes_iff_accepts rfl).mp hstr
  cases ty with
  | any => rfl
  | int => simp [accepts] at hstr
  | _ => simp [accepts] at hint

/-- Types that take the bare null accept its type. -/
theorem accepts_null_of_takes {ty : Ty} (h : ty.Takes .bareNull) :
    ty.accepts (.ref .null) = true := by
  have hvalue : ty.isValueType = false := takes_null_iff.mp h
  cases ty with
  | any => exact accepts_of_any _
  | ref r => simp [accepts]
  | _ => cases hvalue

/-- **A type accepts another one exactly if it takes all values that the other one takes.**

**Proof sketch.** A type that has a value of its own is accepted because this value is taken. The
other two are the top type, whose values have no type above them but the top type itself, and the
type of the bare null, which every type that takes a null accepts. -/
theorem accepts_iff_takes {param var : Ty} :
    param.accepts var = true ↔ ∀ v, var.Takes v → param.Takes v := by
  constructor
  · intro haccepts v hv
    exact hv.mono haccepts
  · intro h
    by_cases hany : var = .any
    · subst hany
      have htakes (v : Value) : param.Takes v := h v ⟨fun _ => rfl, fun _ => accepts_of_any _⟩
      rw [eq_any_of_takes (htakes _) (htakes _)]
      exact accepts_of_any _
    by_cases hnull : var = .ref .null
    · subst hnull
      exact accepts_null_of_takes (h _ (takes_null_iff.mpr rfl))
    · obtain ⟨v, hv, rfl⟩ := exists_value hany hnull
      exact (takes_iff_accepts hv).mp (h v ((takes_iff_accepts hv).mpr (accepts_self _)))

end Ty

/-! ## Calls -/

/-- A call whose arguments are refused is not prepared. -/
theorem prepare_of_refused {unit : Callable} {args : List Value} {f : Fault}
    (h : checkArguments unit.sig args = .error f) : prepare unit args = .error f := by
  unfold prepare
  rw [h]
  rfl

/-- No call is refused for an argument that its parameter takes. -/
theorem prepare_ne_argumentType {unit : Callable} {args : List Value} {i : Nat} {param : Param}
    {v : Value} (hparam : unit.sig.params[i]? = some param) (hv : args[i]? = some v)
    (htakes : param.ty.Takes v) (callee : String) (expected found : Ty) :
    prepare unit args ≠ .error (.argumentType callee i expected found) := by
  intro hprepare
  rcases hcheck : checkArguments unit.sig args with f | _
  · have hf : f = .argumentType callee i expected found :=
      Except.error.inj ((prepare_of_refused hcheck).symm.trans hprepare)
    rw [hf] at hcheck
    cases (refusal_of_checkArguments hcheck 0).1 with
    | argument _ hparam' hv' hnot _ =>
      rw [hparam] at hparam'
      rw [hv] at hv'
      cases hparam'
      cases hv'
      exact hnot htakes
  · obtain ⟨w, hw⟩ := wiring_of_prepare hcheck hprepare
    cases hw

/-- Values of variables are admitted for parameters that accept the types of the variables. -/
theorem Signature.admits_of_accepts {sig : Signature} {vars : List Ty} {args : List Value}
    (hvars : List.Forall₂ (fun (param : Param) var => param.ty.accepts var = true) sig.params vars)
    (hargs : List.Forall₂ Ty.Takes vars args) : sig.Admits args := by
  have htakes : List.Forall₂ (fun (param : Param) v => param.ty.Takes v) sig.params args :=
    forall₂_comp (fun _ _ _ haccepts hv => hv.mono haccepts) hvars hargs
  refine ⟨htakes.length_eq.symm, fun i param v hparam hv => ?_⟩
  obtain ⟨param', hparam', hv⟩ := forall₂_getElem? htakes hv
  rw [hparam] at hparam'
  cases hparam'
  exact hv

/-- **Acceptance is a partial order**, and every type accepts that of its default. One type accepts
another exactly if it takes all values that the other one takes: nulls, if the type is no value
type, and the values that are there and whose types it accepts. So a parameter that accepts the type
of a variable never has a call refused for what the variable holds, whatever the other arguments
are; and a call in a loaded program starts on a frame if each of its parameters accepts the type of
the variable that its argument comes from.

**Proof sketch.** Types that accept each other are equal (`Ty.accepts_antisymm`), and a value that
is taken by a type is taken by those that accept the type (`Ty.Takes.mono`), by transitivity for a
value that is there. A call is refused at a parameter only if the parameter does not take its
argument. -/
theorem acceptance_order :
    IsPartialOrder Ty (fun slot found => slot.accepts found = true) ∧
    (∀ ty : Ty, ty.accepts ty.default.ty = true) ∧
    (∀ param var : Ty, param.accepts var = true ↔ ∀ v, var.Takes v → param.Takes v) ∧
    (∀ (unit : Callable) (args : List Value) (i : Nat) (param : Param) (var : Ty) (v : Value),
      unit.sig.params[i]? = some param → args[i]? = some v →
      param.ty.accepts var = true → var.Takes v →
      ∀ callee expected found,
        prepare unit args ≠ .error (.argumentType callee i expected found)) ∧
    ∀ (source : Source) (natives : Registry) (p : Program) (name : String) (unit : Callable)
      (vars : List Ty) (args : List Value),
      Program.load source natives = .ok p → p.find? name = some unit →
      List.Forall₂ (fun (param : Param) var => param.ty.accepts var = true) unit.sig.params vars →
      List.Forall₂ Ty.Takes vars args → ∃ f, prepare unit args = .ok f := by
  refine ⟨Ty.isPartialOrder_accepts, Ty.accepts_default, fun _ _ => Ty.accepts_iff_takes,
    fun unit args i param var v hparam hv haccepts htakes => ?_,
    fun source natives p name unit vars args hload hunit hvars hargs => ?_⟩
  · exact prepare_ne_argumentType hparam hv (htakes.mono haccepts)
  · have hshaped := (Program.load_linked hload).wellShaped hunit
    exact (exists_prepare_iff hshaped args).mpr (Signature.admits_of_accepts hvars hargs)

/-- A program with a function of anything, an array and a document. -/
def reportSource : Source where
  functions := [{
    name := "report"
    params := [⟨"subject", .any⟩, ⟨"items", .arrayOf .any⟩, ⟨"details", .ref .json⟩]
    body := [] }]

/-- Arrays of arrays of integers are passed where any arrays are declared, and nulls of other types
beside them: the call is not refused for the array, and starts on a frame. -/
theorem acceptance_order_report :
    ∃ (p : Program) (report : Function),
      Program.load reportSource Library.standard = .ok p ∧
      p.find? "report" = some (.function report) ∧
      (Ty.arrayOf .any).accepts (.arrayOf (.arrayOf .int)) = true ∧
      Ty.Takes (.arrayOf (.arrayOf .int)) (.array (.arrayOf .int) 0) ∧
      (∀ callee expected found,
        prepare (.function report) [.bareNull, .array (.arrayOf .int) 0, .null .map] ≠
          .error (.argumentType callee 1 expected found)) ∧
      ∃ f, prepare (.function report) [.bareNull, .array (.arrayOf .int) 0, .null .map] = .ok f := by
  have hloads : Program.loadsTo reportSource Library.standard (fun p =>
      p.functionPasses "report" fun report => decide (report.sig.params =
        [⟨"subject", .any⟩, ⟨"items", .arrayOf .any⟩, ⟨"details", .ref .json⟩])) = true := by
    rw [Program.loadsTo_standard]
    decide +kernel
  obtain ⟨p, hload, htest⟩ := Program.exists_of_loadsTo hloads
  obtain ⟨report, hreport, -, htest⟩ := Program.exists_of_functionPasses htest
  have hparams := of_decide_eq_true htest
  have haccepts : (Ty.arrayOf .any).accepts (.arrayOf (.arrayOf .int)) = true := by decide
  have htakes : Ty.Takes (.arrayOf (.arrayOf .int)) (.array (.arrayOf .int) 0) :=
    (Ty.takes_iff_accepts rfl).mpr (Ty.accepts_self _)
  obtain ⟨-, -, -, hrefused, hprepared⟩ := acceptance_order
  refine ⟨p, report, hload, hreport, haccepts, htakes, ?_, ?_⟩
  · exact hrefused (.function report) _ 1 ⟨"items", .arrayOf .any⟩ _ _
      (by rw [Callable.sig, hparams]; rfl) rfl haccepts htakes
  · refine hprepared _ _ p "report" (.function report) [.any, .arrayOf (.arrayOf .int), .ref .null]
      _ hload hreport ?_ ?_
    · rw [Callable.sig, hparams]
      exact .cons (by decide) (.cons haccepts (.cons (by decide) .nil))
    · exact .cons (Ty.takes_null_iff.mpr rfl)
        (.cons htakes (.cons (Ty.takes_null_iff.mpr rfl) .nil))

end FrameScript
