import FrameScript.Heap
import FrameScript.Machine.Frame

set_option autoImplicit false

/-!
# The machine

The state of a run, and computations on it. A computation ends with a value, with a failure, or
without either when a loop has used up the rounds it was given; in all three cases there is a state
afterwards.

## Main definitions

* `Context` — what belongs to one call from outside: the control stack, the record of the first
  failure, and the properties that came with the call.
* `Machine` — a context, the heap, and the text printed so far.
* `Stop`, `Exec` — computations on a machine.
* `Exec.push`, `Exec.pop`, `Exec.frame`, `Exec.modifyFrame` — the control stack.
* `Exec.recordFailure` — keeps the first failure together with the names of the active calls.
* `Exec.argument`, `Exec.stringArgument`, … — what native units read their arguments with.
-/

namespace FrameScript

/-! ## State -/

/-- A failure, as it was recorded when it arose. -/
structure FaultRecord where
  /-- The text of the failure. -/
  message : String
  /-- The fault, unless a native unit failed on its own account. -/
  fault? : Option Fault
  /-- The names of the active calls, the innermost last. -/
  trace : List String
  deriving DecidableEq, Repr

/-- What belongs to one call from outside. -/
structure Context where
  /-- The active calls, the innermost first. -/
  frames : List Frame := []
  /-- How many calls may be active. -/
  maxDepth : Nat
  /-- The first failure. -/
  failure? : Option FaultRecord := none
  /-- The properties of the call. -/
  properties : Dict String := []

/-- The state of a run. -/
structure Machine where
  /-- The objects. -/
  heap : Heap := {}
  /-- The context of the call under way. -/
  context : Context
  /-- What has been printed. -/
  output : String := ""

/-- How many calls are active. -/
def Context.depth (c : Context) : Nat :=
  c.frames.length

/-- How many more calls may become active. -/
def Context.room (c : Context) : Nat :=
  c.maxDepth - c.depth

/-- The names of the active calls, the innermost last. -/
def Context.trace (c : Context) : List String :=
  (c.frames.map (·.unit)).reverse

/-! ## Computations -/

/-- Why a computation ended without a value. -/
inductive Stop
  /-- It failed. -/
  | failed (f : Failure)
  /-- A loop used up its rounds. -/
  | exhausted
  deriving DecidableEq, Repr

/-- Computations on a machine. -/
abbrev Exec : Type → Type := ExceptT Stop (StateM Machine)

namespace Exec

variable {α : Type}

/-- Ends with a fault. -/
def fault (f : Fault) : Exec α :=
  throw (.failed (.fault f))

/-- Ends with an error of a native unit. -/
def hostError (message : String) : Exec α :=
  throw (.failed (.host message))

/-- A result that may be a fault. -/
def ofExcept : Except Fault α → Exec α
  | .ok a => pure a
  | .error f => fault f

/-- The objects. -/
def heap : Exec Heap := do
  return (← get).heap

/-- The context. -/
def context : Exec Context := do
  return (← get).context

/-- Makes an object. -/
def make (new : Heap → Value × Heap) : Exec Value :=
  modifyGet fun m =>
    let (v, heap) := new m.heap
    (v, { m with heap })

/-- Changes the objects. -/
def modifyHeap (change : Heap → Heap) : Exec Unit :=
  modify fun m => { m with heap := change m.heap }

/-- Changes the context. -/
def modifyContext (change : Context → Context) : Exec Unit :=
  modify fun m => { m with context := change m.context }

/-- Prints a text. -/
def print (s : String) : Exec Unit :=
  modify fun m => { m with output := m.output ++ s }

/-! ## The control stack -/

/-- Enters a call, unless the depth limit is reached. -/
def push (f : Frame) : Exec Unit := do
  let c ← context
  if c.maxDepth ≤ c.depth then fault (.stackOverflow c.depth)
  else modifyContext fun c => { c with frames := f :: c.frames }

/-- Leaves the innermost call. -/
def pop : Exec Frame := do
  match (← context).frames with
  | [] => fault .emptyStack
  | f :: rest => do
    modifyContext fun c => { c with frames := rest }
    return f

/-- The frame of the innermost call. -/
def frame : Exec Frame := do
  match (← context).frames with
  | [] => fault .emptyStack
  | f :: _ => return f

/-- Changes the frame of the innermost call. -/
def modifyFrame (change : Frame → Except Fault Frame) : Exec Unit := do
  let f ← frame
  let f ← ofExcept (change f)
  modifyContext fun c => { c with frames := f :: c.frames.tail }

/-- Reads a slot. -/
def getSlot (index : Nat) : Exec Value := do
  ofExcept ((← frame).get index)

/-- Writes a slot. -/
def setSlot (index : Nat) (v : Value) : Exec Unit :=
  modifyFrame (·.set index v)

/-- Stages a value. -/
def setTemp (index : Nat) (v : Value) : Exec Unit :=
  modifyFrame (·.setTemp index v)

/-- Takes a staged value out of its slot. -/
def takeTemp (index : Nat) : Exec Value := do
  let (v, f) ← ofExcept ((← frame).takeTemp index)
  modifyContext fun c => { c with frames := f :: c.frames.tail }
  return v

/-- Writes a result. -/
def setReturn (index : Nat) (v : Value) : Exec Unit :=
  modifyFrame (·.setReturn index v)

/-! ## Failures -/

/-- Keeps a failure with the names of the active calls, unless one is kept already. -/
def recordFailure (f : Failure) : Exec Unit :=
  modifyContext fun c =>
    match c.failure? with
    | some _ => c
    | none => { c with failure? := some ⟨f.message, f.fault?, c.trace⟩ }

/-- Runs a computation and records its failure. -/
def recording (x : Exec α) : Exec α :=
  tryCatch x fun stop => do
    match stop with
    | .failed f => recordFailure f
    | .exhausted => pure ()
    throw stop

/-! ## Arguments of native units -/

/-- An argument, which may be null. -/
def nullableArgument (index : Nat) : Exec Value := do
  ofExcept ((← frame).nullableArgument index)

/-- An argument, which must not be null. -/
def argument (index : Nat) : Exec Value := do
  ofExcept ((← frame).argument index)

/-- An argument read as `read` reads values of type `ty`. -/
def argumentAs (read : Value → Option α) (ty : Ty) (index : Nat) : Exec α := do
  let v ← argument index
  match read v with
  | some a => return a
  | none => fault (.analyzerDefect (.argument index v.ty ty))

/-- An argument that is a text. -/
def stringArgument : Nat → Exec String :=
  argumentAs Value.str? .string

/-- An argument that is an integer. -/
def intArgument : Nat → Exec Int64 :=
  argumentAs Value.int? .int

/-- The double that a value is; an integer is none here. -/
def exactFloat? : Value → Option Float
  | .float x => some x
  | _ => none

/-- An argument that is a double. -/
def floatArgument : Nat → Exec Float :=
  argumentAs exactFloat? .float

/-- An argument that is a truth value. -/
def boolArgument : Nat → Exec Bool :=
  argumentAs Value.bool? .boolean

/-! ## Properties -/

/-- A property of the call. -/
def property? (key : String) : Exec (Option String) := do
  return Dict.find? key (← context).properties

/-- Sets a property and returns what it was before. -/
def setProperty (key text : String) : Exec (Option String) := do
  let before ← property? key
  modifyContext fun c => { c with properties := Dict.insert key text c.properties }
  return before

end Exec

end FrameScript
