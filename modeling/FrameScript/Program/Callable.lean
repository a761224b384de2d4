import FrameScript.Machine.State
import FrameScript.Source.Basic

set_option autoImplicit false

/-!
# Callables

What can be called: functions with a body, and native units that the host provides.

## Main definitions

* `Signature` — the identity of a callable, and `Signature.text`, how it is listed.
* `FrameSize` — a size that is recorded once.
* `Layout`, `Function` — functions with a body.
* `Handler`, `NativeUnit` — native units.
* `Callable` — either, and `Callable.shape`, what a fresh frame for it looks like.
-/

namespace FrameScript

/-! ## Signatures -/

/-- The identity of a callable. -/
structure Signature where
  /-- The name inside its package. -/
  name : String
  /-- The package; the empty name is no package. -/
  package : String
  /-- Who may call it. -/
  visibility : Visibility
  /-- The parameters. -/
  params : List Param
  /-- The types of the results. -/
  returns : List Ty
  deriving DecidableEq, Repr

/-- A name inside a package. -/
def qualify (package name : String) : String :=
  if package.isEmpty then name else package ++ ":" ++ name

namespace Signature

/-- The name with its package. -/
def qualifiedName (s : Signature) : String :=
  qualify s.package s.name

/-- The types of the parameters. -/
def paramTypes (s : Signature) : List Ty :=
  s.params.map (·.ty)

/-- The signature as it is listed. -/
def text (s : Signature) : String :=
  let params := ", ".intercalate (s.params.map fun p => p.ty.text ++ " " ++ p.name)
  let returns := ", ".intercalate (s.returns.map Ty.text)
  s.qualifiedName ++ "(" ++ params ++ ")" ++
    if s.returns.isEmpty then "" else " (" ++ returns ++ ")"

end Signature

/-! ## Frame sizes -/

/-- A size that is unset until it is recorded. -/
abbrev FrameSize : Type := Option Nat

namespace FrameSize

/-- Records a number of slots. A different number than the one recorded before is refused. -/
def setOnce (unit : String) (size : Nat) : FrameSize → Except Fault FrameSize
  | none => .ok (some size)
  | some current =>
    if current == size then .ok (some current)
    else .error (.wiring (.stackSizeConflict unit current size))

/-- Records a number of temporary slots. A different number than the one recorded before is refused,
unless that was zero. -/
def setTemp (unit : String) (size : Nat) : FrameSize → Except Fault FrameSize
  | none => .ok (some size)
  | some current =>
    if current > 0 && current != size then .error (.wiring (.tempSizeConflict unit current size))
    else .ok (some size)

end FrameSize

/-! ## Functions -/

/-- The slots of a function. -/
structure Layout where
  /-- The declared types of the slots, the parameters first. -/
  slots : List Ty := []
  /-- How many temporary slots its calls need. -/
  temps : Nat := 0
  deriving DecidableEq, Repr

/-- A function with a body. -/
structure Function where
  /-- Its identity. -/
  sig : Signature
  /-- Its statements. -/
  body : List Stmt
  /-- Its slots. -/
  layout : Layout
  /-- The recorded number of slots. -/
  stackSize : FrameSize := none
  /-- The recorded number of temporary slots. -/
  tempSize : FrameSize := none

/-! ## Native units -/

/-- What a native unit does on the frame of its call. -/
inductive Handler
  /-- Computes any number of results. -/
  | function (run : Exec (List Value))
  /-- Converts its argument to one result. -/
  | typeMapper (run : Exec Value)

/-- A callable that the host provides. -/
structure NativeUnit where
  /-- Its identity. -/
  sig : Signature
  /-- The constants it declares. -/
  constants : List (String × Value) := []
  /-- What it does. -/
  handler : Handler

namespace NativeUnit

/-- A unit with any number of results. -/
def function (package name : String) (params : List Param) (returns : List Ty)
    (run : Exec (List Value)) : NativeUnit :=
  { sig := ⟨name, package, .everyone, params, returns⟩, handler := .function run }

/-- A unit that converts a value of one type to another. -/
def typeMapper (package name : String) (source target : Ty) (run : Exec Value) : NativeUnit :=
  { sig := ⟨name, package, .everyone, [⟨"value", source⟩], [target]⟩, handler := .typeMapper run }

/-- Whether the unit converts a value. -/
def isTypeMapper (u : NativeUnit) : Bool :=
  match u.handler with
  | .function _ => false
  | .typeMapper _ => true

end NativeUnit

/-! ## Callables -/

/-- The target of a call. -/
inductive Callable
  /-- A function with a body. -/
  | function (f : Function)
  /-- A native unit. -/
  | native (u : NativeUnit)

namespace Callable

/-- The identity of the callable. -/
def sig : Callable → Signature
  | .function f => f.sig
  | .native u => u.sig

/-- The types of the slots of a fresh frame and its number of temporary slots. Slots that the layout
does not know may hold anything. -/
def shape : Callable → Except Fault (List Ty × Nat)
  | .function f =>
    match f.stackSize with
    | none => .error (.wiring (.stackSizeUnset f.sig.qualifiedName))
    | some size =>
      let slots := f.layout.slots.take size
      .ok (slots ++ List.replicate (size - slots.length) .any, f.tempSize.getD 0)
  | .native u => .ok (u.sig.paramTypes, 0)

end Callable

end FrameScript
