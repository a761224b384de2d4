import FrameScript.Value.Basic

set_option autoImplicit false

/-!
# Frames

The storage of one active call. Arguments and variables share one area of slots with the arguments
in front; the arguments of calls under way are staged in a second area; results have slots of their
own, which start at the defaults of their types.

## Main definitions

* `Frame` — a frame, and `Frame.make?`, a fresh one.
* `Frame.get`, `Frame.set` — slots.
* `Frame.argument`, `Frame.nullableArgument` — arguments, as native units read them.
* `Frame.setTemp`, `Frame.takeTemp` — staged values; a value is taken out once.
* `Frame.setReturn` — results.
-/

namespace FrameScript

/-- The storage of one active call. -/
structure Frame where
  /-- The qualified name of the callable. -/
  unit : String
  /-- How many slots are arguments. -/
  argCount : Nat
  /-- Arguments and variables. -/
  slots : List Value
  /-- Staged values. -/
  temps : List (Option Value)
  /-- Results. -/
  returns : List Value
  deriving BEq

namespace Frame

/-- A fresh frame: the arguments fill the first slots, everything else is at its default. -/
def make? (unit : String) (slots : List Ty) (args : List Value) (temps : Nat) (returns : List Ty) :
    Except Fault Frame :=
  if slots.length < args.length then
    .error (.wiring (.frameTooSmall unit slots.length args.length))
  else
    .ok {
      unit
      argCount := args.length
      slots := args ++ (slots.drop args.length).map Ty.default
      temps := List.replicate temps none
      returns := returns.map Ty.default }

/-! ## Slots -/

/-- The content of a slot. -/
def get (f : Frame) (index : Nat) : Except Fault Value :=
  match f.slots[index]? with
  | some v => .ok v
  | none => .error (.slotOutOfRange .stack index f.slots.length)

/-- Writes a slot. -/
def set (f : Frame) (index : Nat) (v : Value) : Except Fault Frame :=
  if index < f.slots.length then .ok { f with slots := f.slots.set index v }
  else .error (.slotOutOfRange .stack index f.slots.length)

/-! ## Arguments -/

/-- An argument, which may be null. -/
def nullableArgument (f : Frame) (index : Nat) : Except Fault Value :=
  if index < f.argCount then f.get index
  else .error (.argumentOutOfRange index f.argCount)

/-- An argument, which must not be null. -/
def argument (f : Frame) (index : Nat) : Except Fault Value :=
  match f.nullableArgument index with
  | .ok v => if v.isNull then .error (.nullArgument index) else .ok v
  | .error e => .error e

/-! ## Staged values -/

/-- Stages a value. -/
def setTemp (f : Frame) (index : Nat) (v : Value) : Except Fault Frame :=
  if index < f.temps.length then .ok { f with temps := f.temps.set index (some v) }
  else .error (.slotOutOfRange .temp index f.temps.length)

/-- Takes a staged value out of its slot. -/
def takeTemp (f : Frame) (index : Nat) : Except Fault (Value × Frame) :=
  match f.temps[index]? with
  | none => .error (.slotOutOfRange .temp index f.temps.length)
  | some none => .error (.wiring (.tempUnwritten index))
  | some (some v) => .ok (v, { f with temps := f.temps.set index none })

/-! ## Results -/

/-- Writes a result. -/
def setReturn (f : Frame) (index : Nat) (v : Value) : Except Fault Frame :=
  if index < f.returns.length then .ok { f with returns := f.returns.set index v }
  else .error (.wiring (.returnOutOfRange f.unit f.returns.length index))

end Frame

end FrameScript
