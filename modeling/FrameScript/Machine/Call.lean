import FrameScript.Machine.Evaluate

set_option autoImplicit false

/-!
# Calls

Calls of functions and native units, alike from a body and from outside.

## Main definitions

* `checkArguments` — whether a callable admits a list of arguments.
* `prepare` — the frame of a call.
* `dispatch` — runs a callable on the frame in place.
* `call` — a whole call: frame, run, results; the frame is gone afterwards in any case.
* `callUnit`, `callByName`, `dispatchHere` — calls from outside.

## Design

A call has a number of levels left, and the calls its body makes have one less, so recursion ends.
From outside a call has as many levels as the context has room for, and without any level left it
overflows.
-/

namespace FrameScript

open Exec

/-! ## Admission -/

/-- What is wrong with an argument for a parameter: the type it has, or that of the bare null. Any
null may stand in for any reference. -/
def refused? (param : Ty) (v : Value) : Option Ty :=
  if v.isNull then if param.isValueType then some (.ref .null) else none
  else if param.accepts v.ty then none else some v.ty

/-- The fault of the first argument that its parameter does not take, counted from `index` on. -/
def checkTypes (callee : String) (index : Nat) : List Param → List Value → Except Fault Unit
  | p :: ps, v :: vs =>
    match refused? p.ty v with
    | some found => .error (.argumentType callee index p.ty found)
    | none => checkTypes callee (index + 1) ps vs
  | _, _ => .ok ()

/-- Whether the number and the types of the arguments are as declared. -/
def checkArguments (sig : Signature) (args : List Value) : Except Fault Unit :=
  if args.length != sig.params.length then
    .error (.arityMismatch sig.qualifiedName sig.params.length args.length)
  else checkTypes sig.qualifiedName 0 sig.params args

/-- The frame of a call. -/
def prepare (unit : Callable) (args : List Value) : Except Fault Frame := do
  checkArguments unit.sig args
  let (slots, temps) ← unit.shape
  let args := (args.zip slots).map fun (v, ty) => v.declaredAs ty
  Frame.make? unit.sig.qualifiedName slots args temps unit.sig.returns

/-! ## Native units -/

/-- A result of a native unit as it is stored under its declared type. -/
def nativeResult (unit : NativeUnit) (ty : Ty) (v : Value) : Except Fault Value :=
  if ty.isValueType && v.isNull then .error (.wiring (.nullResult unit.sig.qualifiedName ty))
  else .ok (v.declaredAs ty)

/-- Stores the results of a native unit from the slot `index` on. -/
def storeResults (unit : NativeUnit) (index : Nat) : List Value → List Ty → Exec Unit
  | v :: vs, ty :: tys => do
    let v ← ofExcept (nativeResult unit ty v)
    setReturn index v
    storeResults unit (index + 1) vs tys
  | _, _ => pure ()

/-- Runs a native unit on the frame in place. -/
def NativeUnit.run (unit : NativeUnit) : Exec Unit :=
  match unit.handler with
  | .function run => do
    let vs ← run
    let f ← frame
    if f.returns.length < vs.length then
      fault (.wiring (.tooManyResults unit.sig.qualifiedName vs.length f.returns.length))
    else storeResults unit 0 vs unit.sig.returns
  | .typeMapper run => do
    let v ← run
    match unit.sig.returns with
    | ty :: _ => do
      let v ← ofExcept (nativeResult unit ty v)
      setReturn 0 v
    | [] => pure ()

/-! ## Calls -/

/-- Runs a callable on the frame in place; `call` serves the calls its body makes. -/
def dispatch (p : Program) (rounds : Nat) (call : Callable → List Value → Exec (List Value)) :
    Callable → Exec Unit
  | .function function => Function.run { program := p, function, call, rounds }
  | .native unit => unit.run

/-- Runs a computation on the innermost frame and takes the frame away, with its results or with the
failure recorded while the frame was still there. -/
def unwinding (run : Exec Unit) : Exec (List Value) := do
  tryCatch (recording run) fun stop => do
    match stop with
    | .failed _ => let _ ← pop
    | .exhausted => pure ()
    throw stop
  let f ← pop
  pure f.returns

/-- Calls a callable with a number of levels left. -/
def call (p : Program) (rounds : Nat) : Nat → Callable → List Value → Exec (List Value)
  | 0, unit, args => do
    let _ ← recording (ofExcept (prepare unit args))
    recording (fault (.stackOverflow (← context).depth))
  | levels + 1, unit, args => do
    let f ← recording (ofExcept (prepare unit args))
    recording (push f)
    unwinding (dispatch p rounds (call p rounds levels) unit)

/-! ## Calls from outside -/

/-- How many rounds a loop may take in a run: more than any run can make. -/
def maxRounds : Nat := 0x4000000000000000

/-- Calls a callable in the context at hand. -/
def callUnit (p : Program) (unit : Callable) (args : List Value) : Exec (List Value) := do
  let room := (← context).room
  call p maxRounds room unit args

/-- Calls a callable by name in the context at hand. -/
def callByName (p : Program) (name : String) (args : List Value) : Exec (List Value) := do
  let unit ← recording (ofExcept (p.resolve name))
  callUnit p unit args

/-- Runs a callable on the frame in place, in the context at hand. -/
def dispatchHere (p : Program) (unit : Callable) : Exec Unit := do
  let room := (← context).room
  dispatch p maxRounds (call p maxRounds room) unit

end FrameScript
