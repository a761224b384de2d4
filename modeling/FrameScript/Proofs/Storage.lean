import FrameScript.Machine.Call

set_option autoImplicit false

/-!
# Faults of storage

A frame that is used in another way than it was made for ends with a fault of its own: a slot that
is not there, a staged value that was never staged, a variable without a slot. The control stack has
one too: there is no room for another call. No operation on values and objects ends with such a
fault, and neither does the admission of a call.

## Main definitions

* `Fault.isStorage`, `Stop.isStorage` — the faults of a frame that is used wrongly.
* `Fault.isOfStack` — the faults of the control stack and of the frames on it.
* `Fault.isOfValues`, `Fault.isOfOperations` — the faults of operations on values and objects, with
  and without those of looking into nulls.
* `Fault.isOfCalls` — the faults of finding a callable, calling it and storing its results.
* `Fault.isOfArguments` — the faults of native units that read their arguments.
* `Fault.isStructural` — the faults of the structure of a program.
* `StackFree` — results that are no fault of the control stack.
* `OfValues`, `OfOperations`, `OfCalls` — results that are no fault but one of the kind.
-/

namespace FrameScript

variable {α β : Type}

/-- Whether a fault says that a slot is missing, empty or unknown. -/
def Fault.isStorage : Fault → Bool
  | .slotOutOfRange _ _ _ => true
  | .wiring (.tempUnwritten _) => true
  | .wiring (.noSlot _) => true
  | _ => false

/-- Whether a computation ended because a slot is missing, empty or unknown. -/
def Stop.isStorage : Stop → Bool
  | .failed (.fault f) => f.isStorage
  | _ => false

/-- Whether a fault is one of the control stack or of a frame on it. -/
def Fault.isOfStack : Fault → Bool
  | .emptyStack | .stackOverflow _ | .slotOutOfRange _ _ _ => true
  | .wiring (.tempUnwritten _) | .wiring (.noSlot _) | .wiring (.returnOutOfRange _ _ _) => true
  | _ => false

theorem Fault.isStorage_of_isOfStack {f : Fault} (h : f.isOfStack = false) :
    f.isStorage = false := by
  cases f with
  | slotOutOfRange => cases h
  | wiring defect => cases defect <;> first | rfl | cases h
  | _ => rfl

/-! ## Faults of operations -/

/-- Whether a defect is one of the structure of a program: of jumps, of numbers of values, of struct
types. The others are of values of the wrong type. -/
def Defect.isStructural : Defect → Bool
  | .strayJump | .assignmentCount _ _ | .noValue | .unknownStruct _ => true
  | _ => false

/-- Whether a fault can be one of an operation on values and objects. -/
def Fault.isOfValues : Fault → Bool
  | .nullReference _ | .indexOutOfRange _ _ | .keyNotFound _ | .arithmetic _ => true
  | .invalidCast _ _ => true
  | .analyzerDefect d => !d.isStructural
  | _ => false

/-- Whether a fault can be one of an operation on values and objects, other than that a null is
looked into. -/
def Fault.isOfOperations : Fault → Bool
  | .nullReference _ => false
  | f => f.isOfValues

/-- Whether a fault can be one of finding a callable, of its admission, or of storing what a native
unit hands over. -/
def Fault.isOfCalls : Fault → Bool
  | .undefinedCallable _ | .arityMismatch _ _ _ | .argumentType _ _ _ _ => true
  | .wiring cause => !(Fault.wiring cause).isOfStack
  | _ => false

/-- Whether a fault can be one of a native unit that reads its arguments. -/
def Fault.isOfArguments : Fault → Bool
  | .emptyStack | .argumentOutOfRange _ _ | .nullArgument _ | .slotOutOfRange _ _ _ => true
  | .analyzerDefect (.argument _ _ _) => true
  | _ => false

/-- A result that is a fault of a kind, if it is one. -/
def FaultsIn (kind : Fault → Prop) (r : Except Fault α) : Prop :=
  ∀ e, r = .error e → kind e

namespace FaultsIn

variable {kind : Fault → Prop}

theorem ok (a : α) : FaultsIn kind (.ok a) := by
  intro e h
  cases h

theorem error {e : Fault} (h : kind e) : FaultsIn kind (.error e : Except Fault α) := by
  intro e' he
  cases he
  exact h

theorem bind {r : Except Fault α} {f : α → Except Fault β} (hr : FaultsIn kind r)
    (hf : ∀ a, r = .ok a → FaultsIn kind (f a)) : FaultsIn kind (r >>= f) := by
  cases r with
  | ok a => exact hf a rfl
  | error e => exact error (hr e rfl)

theorem map {r : Except Fault α} (f : α → β) (hr : FaultsIn kind r) :
    FaultsIn kind (r.map f) := by
  cases r with
  | ok a => exact ok (f a)
  | error e => exact error (hr e rfl)

end FaultsIn

/-- A result that is no fault of the control stack or of a frame on it. -/
abbrev StackFree (r : Except Fault α) : Prop :=
  FaultsIn (·.isOfStack = false) r

/-- A result that is no other fault than one of operations on values and objects. -/
abbrev OfValues (r : Except Fault α) : Prop :=
  FaultsIn (·.isOfValues = true) r

/-- A result that is no other fault than one of operations that look into no null. -/
abbrev OfOperations (r : Except Fault α) : Prop :=
  FaultsIn (·.isOfOperations = true) r

/-- A result that is no other fault than one of calls. -/
abbrev OfCalls (r : Except Fault α) : Prop :=
  FaultsIn (·.isOfCalls = true) r

/-- No operation on values and objects ends with a fault of the control stack. -/
theorem Fault.isOfStack_of_isOfValues {f : Fault} (h : f.isOfValues = true) :
    f.isOfStack = false := by
  cases f with
  | wiring | emptyStack | stackOverflow | slotOutOfRange => cases h
  | _ => rfl

/-- No call is refused with a fault of the control stack. -/
theorem Fault.isOfStack_of_isOfCalls {f : Fault} (h : f.isOfCalls = true) :
    f.isOfStack = false := by
  cases f with
  | wiring cause => simpa [isOfCalls] using h
  | _ => first | rfl | cases h

/-- Whether a fault is one of the structure of a program: of its names and numbers of arguments, of
how its parts were put together, of its jumps, numbers of values and struct types. -/
def Fault.isStructural : Fault → Bool
  | .undefinedCallable _ | .arityMismatch _ _ _ | .wiring _ => true
  | .analyzerDefect d => d.isStructural
  | _ => false

/-- No operation on values and objects ends with a fault of the structure of the program. -/
theorem Fault.isStructural_of_isOfValues {f : Fault} (h : f.isOfValues = true) :
    f.isStructural = false := by
  cases f with
  | analyzerDefect d => simpa [isOfValues, isStructural] using h
  | _ => first | rfl | cases h

/-- Reading arguments ends with no fault of the structure of the program. -/
theorem Fault.isStructural_of_isOfArguments {f : Fault} (h : f.isOfArguments = true) :
    f.isStructural = false := by
  cases f with
  | analyzerDefect d => cases d <;> first | rfl | cases h
  | _ => first | rfl | cases h

theorem OfValues.stackFree {r : Except Fault α} (h : OfValues r) : StackFree r :=
  fun e he => Fault.isOfStack_of_isOfValues (h e he)

theorem OfOperations.ofValues {r : Except Fault α} (h : OfOperations r) : OfValues r := by
  intro e he
  have hkind := h e he
  cases e with
  | nullReference => rfl
  | _ => exact hkind

theorem OfOperations.stackFree {r : Except Fault α} (h : OfOperations r) : StackFree r :=
  h.ofValues.stackFree

theorem OfCalls.stackFree {r : Except Fault α} (h : OfCalls r) : StackFree r :=
  fun e he => Fault.isOfStack_of_isOfCalls (h e he)

/-- No null is looked into by an operation of another kind. -/
theorem OfOperations.ne_nullReference {r : Except Fault α} (h : OfOperations r)
    (cause : NullCause) : r ≠ .error (.nullReference cause) := by
  intro he
  cases h _ he

/-- No call is refused because a null is looked into. -/
theorem OfCalls.ne_nullReference {r : Except Fault α} (h : OfCalls r) (cause : NullCause) :
    r ≠ .error (.nullReference cause) := by
  intro he
  cases h _ he

/-- No call is refused because of a defect of the analysis. -/
theorem OfCalls.ne_analyzerDefect {r : Except Fault α} (h : OfCalls r) (d : Defect) :
    r ≠ .error (.analyzerDefect d) := by
  intro he
  cases h _ he

/-! ## Values and objects -/

namespace OfOperations

open FaultsIn

theorem valueBind (ty : Ty) (v : Value) : OfOperations (v.bind ty) := by
  unfold Value.bind
  split
  · exact error rfl
  · exact ok _

theorem bindAs (ty? : Option Ty) (v : Value) : OfOperations (bindAs ty? v) := by
  cases ty? with
  | none => exact ok v
  | some ty => exact valueBind ty v

theorem cast (target : Ty) (v : Value) : OfOperations (v.cast target) := by
  unfold Value.cast
  dsimp only
  split
  · exact ok _
  · exact ok _
  · exact error rfl
  · exact ok _
  · split
    · exact ok _
    · exact error rfl
  · split
    · exact ok _
    · exact error rfl

theorem unaryApply (op : UnaryOp) (v : Value) : OfOperations (op.apply v) := by
  unfold UnaryOp.apply
  split
  · exact error rfl
  · exact ok _
  · split
    · exact ok _
    · exact error rfl
  · exact ok _
  · exact error rfl

theorem arithmetic (h : Heap) (op : BinaryOp) (l r : Value) :
    OfOperations (op.arithmetic h l r) := by
  unfold BinaryOp.arithmetic BinaryOp.intResult
  split
  · split
    · exact error rfl
    · split
      · exact ok _
      · exact error rfl
  · exact ok _
  · exact ok _
  · exact ok _
  · split
    · exact ok _
    · exact error rfl
  · split
    · exact ok _
    · exact error rfl
  · exact error rfl

theorem equality (l r : Value) : OfOperations (BinaryOp.equality l r) := by
  unfold BinaryOp.equality
  split
  · split
    · exact ok _
    · exact error rfl
  · exact ok _

theorem order (op : BinaryOp) (l r : Value) : OfOperations (op.order l r) := by
  unfold BinaryOp.order
  split
  · exact error rfl
  · split
    · exact ok _
    · exact ok _
    · exact ok _
    · exact ok _
    · exact ok _
    · exact error rfl

theorem compare (op : BinaryOp) (l r : Value) : OfOperations (op.compare l r) := by
  unfold BinaryOp.compare
  split
  · exact equality l r
  · exact map _ (equality l r)
  · exact order op l r

theorem logical (op : BinaryOp) (l r : Value) : OfOperations (op.logical l r) := by
  unfold BinaryOp.logical
  split
  · exact ok _
  · split
    · exact error rfl
    · exact error rfl

theorem binaryApply (h : Heap) (op : BinaryOp) (l r : Value) : OfOperations (op.apply h l r) := by
  unfold BinaryOp.apply
  split
  · split
    · exact error rfl
    · exact arithmetic h op l r
  · split
    · exact logical op l r
    · exact map _ (compare op l r)

theorem arrayIndex (key : Value) : OfOperations (arrayIndex key) := by
  unfold FrameScript.arrayIndex
  split
  · exact ok _
  · exact error rfl

theorem mapKey (key : Value) : OfOperations (mapKey key) := by
  unfold FrameScript.mapKey
  split
  · exact ok _
  · exact error rfl

theorem heapElement (items : Array Value) (index : Int64) :
    OfOperations (Heap.element items index) := by
  unfold Heap.element
  split
  · split
    · exact ok _
    · exact error rfl
  · exact error rfl

/-- Taking an element of a value other than null. -/
theorem element (h : Heap) (base : Expr) {container : Value} (key : Value)
    (hnull : container.isNull = false) : OfOperations (element h base container key) := by
  unfold FrameScript.element
  split
  · cases hnull
  · exact bind (arrayIndex key) fun index _ => heapElement _ index
  · refine bind (mapKey key) fun key _ => ?_
    split
    · exact ok _
    · exact error rfl
  · exact ok _
  · exact error rfl

theorem initField (decl : StructDecl) (name : String) (v : Value)
    (fields : List (String × Value)) : OfOperations (initField decl name v fields) := by
  refine bind (bindAs _ v) fun w _ => ?_
  split
  · exact ok _
  · exact error rfl

end OfOperations

namespace OfValues

open FaultsIn

theorem nullFault (base : Expr) : (nullFault base).isOfValues = true := by
  cases base with
  | index base key => exact nullFault base
  | _ => rfl

theorem element (h : Heap) (base : Expr) (container key : Value) :
    OfValues (element h base container key) := by
  cases hnull : container.isNull with
  | false => exact (OfOperations.element h base key hnull).ofValues
  | true =>
    cases container with
    | null tag => exact error (nullFault base)
    | _ => cases hnull

theorem connectorName (action : String) (v : Value) : OfValues (connectorName action v) := by
  unfold FrameScript.connectorName
  split
  · exact error rfl
  · exact ok _
  · exact error rfl

end OfValues

/-! ## Fields and calls -/

namespace StackFree

open FaultsIn

theorem fieldOf (p : Program) (h : Heap) (base : Expr) (target : Value) (name : String) :
    StackFree (fieldOf p h base target name) := by
  unfold FrameScript.fieldOf connectorField
  split
  · exact error (Fault.isOfStack_of_isOfValues (OfValues.nullFault base))
  · split
    · exact ok _
    · exact error rfl
  · split
    · exact error rfl
    · split
      · exact ok _
      · exact error rfl
  · exact ok _
  · exact error rfl

end StackFree

namespace OfCalls

open FaultsIn

theorem resolve (p : Program) (name : String) : OfCalls (p.resolve name) := by
  unfold Program.resolve
  split
  · exact ok _
  · exact error rfl

theorem nativeResult (unit : NativeUnit) (ty : Ty) (v : Value) :
    OfCalls (nativeResult unit ty v) := by
  unfold FrameScript.nativeResult
  split
  · exact error rfl
  · exact ok _

theorem checkTypes (callee : String) (index : Nat) (params : List Param) (args : List Value) :
    OfCalls (checkTypes callee index params args) := by
  induction params generalizing index args with
  | nil => exact ok ()
  | cons param params ih =>
    cases args with
    | nil => exact ok ()
    | cons v vs =>
      rw [FrameScript.checkTypes]
      split
      · exact error rfl
      · exact ih (index + 1) vs

theorem shape (unit : Callable) : OfCalls unit.shape := by
  unfold Callable.shape
  split
  · split
    · exact error rfl
    · exact ok _
  · exact ok _

/-- A call is never refused for want of a slot. -/
theorem prepare (unit : Callable) (args : List Value) : OfCalls (prepare unit args) := by
  refine bind ?_ fun _ _ => bind (shape unit) fun sizes _ => ?_
  · unfold checkArguments
    split
    · exact error rfl
    · exact checkTypes _ _ _ _
  · dsimp only [Frame.make?]
    split
    · exact error rfl
    · exact ok _

end OfCalls

end FrameScript
