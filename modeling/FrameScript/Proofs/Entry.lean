import FrameScript.Proofs.Discipline
import FrameScript.Proofs.Run
import FrameScript.Proofs.Standard

set_option autoImplicit false

/-!
# Entering calls

Before a callable runs, its call is checked three times: for the number of the arguments, for their
types, and for room on the control stack. The first check that fails decides the fault, and a call
that fails one of them leaves everything as it was but for the record of the failure.

## Main definitions

* `Ty.Takes` — a parameter of a type takes a value.
* `Signature.Admits` — a signature admits a list of arguments.
* `Refusal` — the faults that calls are refused with, in the order of the checks.
* `Entry` — how a call in a state begins.

## Main results

* `refusal_of_checkArguments` — arguments are refused for the first of them that is not taken.
* `call_entry` — calls of loaded programs begin if they are admitted and there is room.
-/

namespace FrameScript

open Exec

/-! ## Taken values -/

/-- A parameter takes every null if its type is no value type, and takes any other value if the type
accepts that of the value. -/
def Ty.Takes (ty : Ty) (v : Value) : Prop :=
  (v.isNull = true → ty.isValueType = false) ∧ (v.isNull = false → ty.accepts v.ty = true)

/-- The type that a fault reports of a refused argument: its own, or that of the bare null. -/
def Value.passedTy (v : Value) : Ty :=
  if v.isNull then .ref .null else v.ty

theorem refused?_eq_none_iff {ty : Ty} {v : Value} : refused? ty v = none ↔ ty.Takes v := by
  unfold refused? Ty.Takes
  cases v.isNull <;> simp

theorem passedTy_of_refused {ty found : Ty} {v : Value} (h : refused? ty v = some found) :
    found = v.passedTy := by
  unfold refused? at h
  unfold Value.passedTy
  split at h <;> split at h <;> simp_all

/-- A signature admits as many arguments as there are parameters, if every parameter takes its
argument. -/
structure Signature.Admits (sig : Signature) (args : List Value) : Prop where
  count : args.length = sig.params.length
  takes : ∀ (i : Nat) (param : Param) (v : Value),
    sig.params[i]? = some param → args[i]? = some v → param.ty.Takes v

/-! ## Refusals -/

/-- The faults that a call is refused with. A wrong number of arguments comes first, then the first
argument that its parameter does not take, then the lack of room. -/
inductive Refusal (sig : Signature) (args : List Value) (depth : Nat) : Fault → Prop
  | count (hcount : args.length ≠ sig.params.length) :
    Refusal sig args depth
      (.arityMismatch sig.qualifiedName sig.params.length args.length)
  | argument {i : Nat} {param : Param} {v : Value} (hcount : args.length = sig.params.length)
    (hparam : sig.params[i]? = some param) (hv : args[i]? = some v) (hnot : ¬ param.ty.Takes v)
    (hbefore : ∀ j < i, ∀ (q : Param) (w : Value),
      sig.params[j]? = some q → args[j]? = some w → q.ty.Takes w) :
    Refusal sig args depth (.argumentType sig.qualifiedName i param.ty v.passedTy)
  | room (hargs : sig.Admits args) : Refusal sig args depth (.stackOverflow depth)

/-- The check of types complains of the first argument that its parameter does not take. -/
theorem first_of_checkTypes {callee : String} {index : Nat} {params : List Param}
    {args : List Value} {f : Fault} (h : checkTypes callee index params args = .error f) :
    ∃ (i : Nat) (param : Param) (v : Value), params[i]? = some param ∧ args[i]? = some v ∧
      ¬ param.ty.Takes v ∧ f = .argumentType callee (index + i) param.ty v.passedTy ∧
        ∀ j < i, ∀ (q : Param) (w : Value),
          params[j]? = some q → args[j]? = some w → q.ty.Takes w := by
  induction params generalizing index args with
  | nil => cases h
  | cons param params ih =>
    obtain _ | ⟨v, args⟩ := args
    · cases h
    unfold checkTypes at h
    split at h
    next found hfound =>
      cases h
      rw [passedTy_of_refused hfound]
      have hnot : ¬ param.ty.Takes v := fun htakes => by
        rw [refused?_eq_none_iff.mpr htakes] at hfound
        cases hfound
      exact ⟨0, param, v, rfl, rfl, hnot, rfl, fun j hj => absurd hj (Nat.not_lt_zero j)⟩
    next hnone =>
      obtain ⟨i, param', v', hparam, hv, hnot, rfl, hbefore⟩ := ih h
      refine ⟨i + 1, param', v', hparam, hv, hnot, ?_, ?_⟩
      · rw [Nat.add_right_comm, Nat.add_assoc]
      · intro j hj q w hq hw
        cases j with
        | zero =>
          cases hq
          cases hw
          exact refused?_eq_none_iff.mp hnone
        | succ j => exact hbefore j (Nat.lt_of_succ_lt_succ hj) q w hq hw

/-- Arguments that are refused are so for their number, or else for the first of them that is not
taken. -/
theorem refusal_of_checkArguments {sig : Signature} {args : List Value} {f : Fault}
    (h : checkArguments sig args = .error f) (depth : Nat) :
    Refusal sig args depth f ∧ ¬ sig.Admits args := by
  unfold checkArguments at h
  split at h
  next hcount =>
    cases h
    have hcount : args.length ≠ sig.params.length := bne_iff_ne.mp hcount
    exact ⟨.count hcount, fun hadmits => hcount hadmits.count⟩
  next hcount =>
    have hcount : args.length = sig.params.length := not_not.mp (mt bne_iff_ne.mpr hcount)
    obtain ⟨i, param, v, hparam, hv, hnot, rfl, hbefore⟩ := first_of_checkTypes h
    rw [Nat.zero_add]
    exact ⟨.argument hcount hparam hv hnot hbefore,
      fun hadmits => hnot (hadmits.takes i param v hparam hv)⟩

/-- Arguments that pass the checks are admitted. -/
theorem Signature.admits_of_checkArguments {sig : Signature} {args : List Value}
    (h : checkArguments sig args = .ok ()) : sig.Admits args := by
  have hcount := length_of_checkArguments h
  rw [checkArguments, if_neg (by simpa using hcount)] at h
  refine ⟨hcount, fun i param v hparam hv => ?_⟩
  obtain ⟨ty, hty, hnone⟩ := forall₂_getElem? (forall₂_of_checkTypes hcount h) hv
  rw [List.getElem?_map, hparam] at hty
  cases hty
  exact refused?_eq_none_iff.mp hnone

/-- Whether a signature admits a list of arguments can be checked. -/
instance (sig : Signature) (args : List Value) : Decidable (sig.Admits args) :=
  match h : checkArguments sig args with
  | .ok () => isTrue (Signature.admits_of_checkArguments h)
  | .error _ => isFalse (refusal_of_checkArguments h 0).2

/-! ## Calls -/

/-- How a call with the given number of levels begins in a state: it runs its callable on a new
frame exactly if it is admitted and there is room, and otherwise it fails with the fault of the
first check that does not pass, and does nothing but keep that failure. -/
structure Entry (p : Program) (rounds levels : Nat) (unit : Callable) (args : List Value)
    (m : Machine) : Prop where
  begins_iff : (∃ task m', Task.Step p rounds (.call levels unit args) m task m') ↔
    unit.sig.Admits args ∧ m.context.depth < m.context.maxDepth
  begins : unit.sig.Admits args → m.context.depth < m.context.maxDepth →
    ∃ f, prepare unit args = .ok f ∧ (call p rounds levels unit args).on m =
      (unwinding (dispatch p rounds (call p rounds (levels - 1)) unit)).on
        (m.withFrames (f :: m.context.frames))
  refuses : ¬ (unit.sig.Admits args ∧ m.context.depth < m.context.maxDepth) →
    ∃ fault, Refusal unit.sig args m.context.depth fault ∧
      (call p rounds levels unit args).on m =
        (.error (.failed (.fault fault)), m.recorded (.fault fault)) ∧
      (m.recorded (.fault fault)).context.frames = m.context.frames
  no_wiring : ∀ cause, prepare unit args ≠ .error (.wiring cause)

/-- The frame of a call is made exactly if the signature admits the arguments. -/
theorem exists_prepare_iff {unit : Callable} (hunit : unit.WellShaped) (args : List Value) :
    (∃ f, prepare unit args = .ok f) ↔ unit.sig.Admits args := by
  rcases hprepare : prepare unit args with e | f
  · have hcheck := (prepare_eq_error hunit).mp hprepare
    simp [(refusal_of_checkArguments hcheck 0).2]
  · rcases hcheck : checkArguments unit.sig args with e | _
    · rw [(prepare_eq_error hunit).mpr hcheck] at hprepare
      cases hprepare
    · simp [Signature.admits_of_checkArguments hcheck]

/-- **Entering calls.** Whatever the state, a call of a callable of a loaded program runs it exactly
if there are as many arguments as parameters, every parameter takes its argument, and fewer calls
are active than the limit allows. Otherwise nothing runs and no frame comes or goes: the call fails
for the number of its arguments, else for the first argument that its parameter does not take, else
for want of room. No call is refused because its frame would not fit. The levels of the call have
to last for the room there is, as they do for every call from outside.

**Proof sketch.** In a loaded program every callable has a slot for each of its parameters, so the
frame is made as soon as the arguments pass (`prepare_eq_error`). The check of types goes through
the arguments in their order, so it stops at the first one that is not taken. -/
theorem call_entry {source : Source} {natives : Registry} {p : Program}
    (hload : Program.load source natives = .ok p) {name : String} {unit : Callable}
    (hunit : p.find? name = some unit) (rounds : Nat) {levels : Nat} {m : Machine}
    (hlevels : m.context.room ≤ levels) (args : List Value) : Entry p rounds levels unit args m := by
  have hshaped := (Program.load_linked hload).wellShaped hunit
  have hprepared := exists_prepare_iff hshaped args
  have hmore (hroom : m.context.depth < m.context.maxDepth) : ∃ l, levels = l + 1 := by
    refine Nat.exists_eq_succ_of_ne_zero ?_
    unfold Context.room at hlevels
    omega
  constructor
  case begins_iff =>
    constructor
    · rintro ⟨task, m', hstep⟩
      cases hstep with
      | call hf hroom => exact ⟨hprepared.mp ⟨_, hf⟩, hroom⟩
    · rintro ⟨hargs, hroom⟩
      obtain ⟨f, hf⟩ := hprepared.mpr hargs
      obtain ⟨l, rfl⟩ := hmore hroom
      exact ⟨_, _, .call hf hroom⟩
  case begins =>
    intro hargs hroom
    obtain ⟨f, hf⟩ := hprepared.mpr hargs
    obtain ⟨l, rfl⟩ := hmore hroom
    exact ⟨f, hf, on_call_room rounds hf hroom⟩
  case refuses =>
    intro hnot
    rcases hprepare : prepare unit args with e | f
    · have hcheck := (prepare_eq_error hshaped).mp hprepare
      exact ⟨e, (refusal_of_checkArguments hcheck _).1, on_call_refused rounds levels hprepare m,
        Machine.recorded_frames _ _⟩
    · have hargs := hprepared.mp ⟨f, hprepare⟩
      have hfull : m.context.maxDepth ≤ m.context.depth :=
        Nat.le_of_not_lt fun hroom => hnot ⟨hargs, hroom⟩
      exact ⟨_, .room hargs, on_call_full rounds levels hprepare hfull,
        Machine.recorded_frames _ _⟩
  case no_wiring =>
    intro cause hprepare
    have hcheck := (prepare_eq_error hshaped).mp hprepare
    cases (refusal_of_checkArguments hcheck 0).1

/-- A program with a function of a number and an array. -/
def pairSource : Source where
  functions := [{ name := "pair", params := [⟨"n", .int⟩, ⟨"items", .arrayOf .any⟩], body := [] }]

/-- A function of a number and an array begins on a null of another type for its array, and not on a
text. -/
theorem call_entry_pair :
    ∃ (p : Program) (pair : Function),
      Program.load pairSource Library.standard = .ok p ∧
      p.find? "pair" = some (.function pair) ∧
      pair.sig.Admits [.int 1, .null .xml] ∧ ¬ pair.sig.Admits [.int 1, .str "items"] ∧
      ∀ args, Entry p maxRounds 1 (.function pair) args { context := { maxDepth := 1 } } := by
  have hloads : Program.loadsTo pairSource Library.standard (fun p =>
      p.functionPasses "pair" fun pair => pair.sig.Admits [.int 1, .null .xml] &&
        !decide (pair.sig.Admits [.int 1, .str "items"])) = true := by
    rw [Program.loadsTo_standard]
    decide +kernel
  obtain ⟨p, hload, htest⟩ := Program.exists_of_loadsTo hloads
  obtain ⟨pair, hpair, -, htest⟩ := Program.exists_of_functionPasses htest
  simp only [Bool.and_eq_true, Bool.not_eq_true', decide_eq_true_eq, decide_eq_false_iff_not]
    at htest
  exact ⟨p, pair, hload, hpair, htest.1, htest.2,
    call_entry hload hpair maxRounds (Nat.le_refl 1)⟩

end FrameScript
