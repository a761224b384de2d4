import FrameScript.Operator
import FrameScript.Ty

set_option autoImplicit false

/-!
# Faults

Everything that can go wrong while a program is put together or runs, by its cause.

## Main definitions

* `NullCause`, `ArithmeticCause`, `Defect`, `WiringCause` — causes that come in several kinds.
* `Fault` — a fault, and `Fault.message`, its text.
* `Fault.blame` — who is to blame: the running program, a name that is looked up at run time, or
  whoever produced or connected the program.
* `Failure` — a fault of the engine, or an error of a unit outside it.
-/

namespace FrameScript

/-! ## Causes -/

/-- What was null where a reference was needed. -/
inductive NullCause
  /-- A variable. -/
  | variable (name : String)
  /-- A field. -/
  | field (name : String)
  /-- The connector of an action. -/
  | connector
  /-- Any other value. -/
  | value
  deriving DecidableEq, Repr

/-- The text of the cause. -/
def NullCause.message : NullCause → String
  | .variable name => s!"variable '{name}' is null"
  | .field name => s!"field '{name}' is null"
  | .connector => "connector argument value is null"
  | .value => "value is null"

/-- Why an operation on integers has no result. -/
inductive ArithmeticCause
  /-- The exact result is no 64-bit integer. -/
  | overflow
  /-- The divisor is zero. -/
  | divisionByZero
  deriving DecidableEq, Repr

/-- The text of the cause. -/
def ArithmeticCause.message : ArithmeticCause → String
  | .overflow => "integer overflow"
  | .divisionByZero => "division by zero"

/-- A state that the semantic analysis rules out. -/
inductive Defect
  /-- A null meant for a slot of a value type. -/
  | nullStored (ty : Ty)
  /-- A unary operator applied to null. -/
  | nullOperand (op : UnaryOp)
  /-- A binary operator with a null operand. -/
  | nullOperands (op : BinaryOp)
  /-- A unary operator applied to a value of a type it is not defined on. -/
  | operand (op : UnaryOp) (ty : Ty)
  /-- A binary operator applied to values of types it is not defined on. -/
  | operands (left : Ty) (op : BinaryOp) (right : Ty)
  /-- A comparison of nulls of unrelated types. -/
  | incomparableNulls (left right : RefTy)
  /-- A jump out of a loop where there is none. -/
  | strayJump
  /-- An assignment with different numbers of targets and values. -/
  | assignmentCount (targets values : Nat)
  /-- A condition that is no truth value. -/
  | condition (ty : Ty)
  /-- An index into a value that has no elements. -/
  | notIndexable (ty : Ty)
  /-- A field of a value that has no such field. -/
  | noField (ty : Ty) (name : String)
  /-- A struct without the given field. -/
  | noStructField (struct name : String)
  /-- A connector without the given parameter. -/
  | noConnectorParam (connector name : String)
  /-- A struct type that is not declared. -/
  | unknownStruct (name : String)
  /-- A message whose payload is no text. -/
  | payload (ty : Ty)
  /-- A call without results where a value is needed. -/
  | noValue
  /-- An action of a value that is no connector. -/
  | notConnector (action : String) (ty : Ty)
  /-- An array index that is no integer. -/
  | arrayIndex (ty : Ty)
  /-- A map key that is no text. -/
  | mapKey (ty : Ty)
  /-- An argument that a native unit reads as another type. -/
  | argument (index : Nat) (found expected : Ty)
  deriving DecidableEq, Repr

/-- The text of the defect. -/
def Defect.message : Defect → String
  | .nullStored ty => s!"null stored into a '{ty.text}' slot"
  | .nullOperand op => s!"operator {op.symbol} applied to null"
  | .nullOperands op => s!"operator {op.symbol} applied to null"
  | .operand op ty => s!"invalid operand: {op.symbol}'{ty.text}'"
  | .operands left op right => s!"invalid operation: '{left.text}' {op.symbol} '{right.text}'"
  | .incomparableNulls left right =>
    s!"invalid operation: incompatible types '{left.text}' and '{right.text}'"
  | .strayJump => "break or continue outside a loop"
  | .assignmentCount targets values =>
    s!"assignment count mismatch: {targets} target(s), {values} value(s)"
  | .condition ty => s!"condition is '{ty.text}', expected 'boolean'"
  | .notIndexable ty => s!"cannot index into '{ty.text}'"
  | .noField ty name => s!"'{ty.text}' has no field '{name}'"
  | .noStructField struct name => s!"struct '{struct}' has no field '{name}'"
  | .noConnectorParam connector name => s!"connector '{connector}' has no parameter '{name}'"
  | .unknownStruct name => s!"unknown struct '{name}'"
  | .payload ty => s!"message payload is '{ty.text}'"
  | .noValue => "call used as a value returns nothing"
  | .notConnector action ty => s!"action '{action}' invoked on '{ty.text}'"
  | .arrayIndex ty => s!"array index is '{ty.text}', expected 'int'"
  | .mapKey ty => s!"map key is '{ty.text}', expected 'string'"
  | .argument index found expected =>
    s!"argument {index} is '{found.text}', expected '{expected.text}'"

/-- A program, native unit or frame that was put together wrongly. -/
inductive WiringCause
  /-- A function whose number of slots was never recorded. -/
  | stackSizeUnset (unit : String)
  /-- Two different numbers of slots for one unit. -/
  | stackSizeConflict (unit : String) (current new : Nat)
  /-- Two different numbers of temporary slots for one unit. -/
  | tempSizeConflict (unit : String) (current new : Nat)
  /-- Two struct types of one name. -/
  | duplicateStruct (name : String)
  /-- Two connectors of one name. -/
  | duplicateConnector (name : String)
  /-- Two callables of one qualified name. -/
  | duplicateCallable (name : String)
  /-- A native unit that is registered already. -/
  | duplicateUnit (name : String)
  /-- A native package that is registered already. -/
  | duplicatePackage (name : String)
  /-- A connector built without a value for a parameter. -/
  | missingConnectorParam (connector name : String)
  /-- A variable without a slot. -/
  | noSlot (name : String)
  /-- More arguments than the frame has slots. -/
  | frameTooSmall (unit : String) (slots args : Nat)
  /-- A temporary slot that is empty when it is read. -/
  | tempUnwritten (index : Nat)
  /-- A result beyond the declared ones. -/
  | returnOutOfRange (unit : String) (count index : Nat)
  /-- A native unit with more results than it declares. -/
  | tooManyResults (unit : String) (found declared : Nat)
  /-- A native unit with a null where it declares a value type. -/
  | nullResult (unit : String) (ty : Ty)
  deriving DecidableEq, Repr

/-- The text of the cause. -/
def WiringCause.message : WiringCause → String
  | .stackSizeUnset unit => s!"stack frame size of '{unit}' was never set"
  | .stackSizeConflict unit current new =>
    s!"Attempt to overwrite stack frame size of '{unit}'. current: {current}, new: {new}"
  | .tempSizeConflict unit current new =>
    s!"Attempt to overwrite temp frame size of '{unit}'. current: {current}, new: {new}"
  | .duplicateStruct name => s!"struct '{name}' defined twice"
  | .duplicateConnector name => s!"connector '{name}' defined twice"
  | .duplicateCallable name => s!"callable '{name}' defined twice"
  | .duplicateUnit name => s!"native unit '{name}' registered twice"
  | .duplicatePackage name => s!"native package '{name}' registered twice"
  | .missingConnectorParam connector name => s!"connector '{connector}' built without '{name}'"
  | .noSlot name => s!"variable '{name}' has no slot; program was not laid out"
  | .frameTooSmall unit slots args =>
    s!"frame of '{unit}' holds {slots} slot(s), cannot take {args} argument(s)"
  | .tempUnwritten index => s!"temp slot {index} read before it was written"
  | .returnOutOfRange unit count index =>
    s!"'{unit}' declares {count} return value(s), cannot write return slot {index}"
  | .tooManyResults unit found declared =>
    s!"native unit '{unit}' returned {found} value(s), declares {declared}"
  | .nullResult unit ty => s!"native unit '{unit}' returned null for '{ty.text}'"

/-- An indexed part of a frame. -/
inductive FrameArea
  /-- Arguments and variables. -/
  | stack
  /-- Staged arguments of calls. -/
  | temp
  deriving DecidableEq, Repr

/-- The name of the area. -/
def FrameArea.text : FrameArea → String
  | .stack => "stack"
  | .temp => "temp"

/-! ## Faults -/

/-- Who a fault is to be blamed on. -/
inductive Blame
  /-- The running program. -/
  | runtime
  /-- A name that is unknown when it is called. -/
  | lookup
  /-- Whoever produced or connected the program. -/
  | defect
  deriving DecidableEq, Repr

/-- A fault of the engine. -/
inductive Fault
  /-- A null where a reference was needed. -/
  | nullReference (cause : NullCause)
  /-- A null argument of a native unit that needs a value. -/
  | nullArgument (index : Nat)
  /-- An argument beyond those passed. -/
  | argumentOutOfRange (index count : Nat)
  /-- A slot beyond the frame. -/
  | slotOutOfRange (area : FrameArea) (index size : Nat)
  /-- An element outside an array. -/
  | indexOutOfRange (index : Int64) (size : Nat)
  /-- A key that a map does not hold. -/
  | keyNotFound (key : String)
  /-- No call is active. -/
  | emptyStack
  /-- A call beyond the depth limit. -/
  | stackOverflow (depth : Nat)
  /-- An operation on integers without a result. -/
  | arithmetic (cause : ArithmeticCause)
  /-- A value that cannot be converted. -/
  | invalidCast (source target : Ty)
  /-- A name that no callable has. -/
  | undefinedCallable (name : String)
  /-- A call with the wrong number of arguments. -/
  | arityMismatch (callee : String) (expected found : Nat)
  /-- A call with an argument that its parameter does not take. -/
  | argumentType (callee : String) (index : Nat) (expected found : Ty)
  /-- A state that the semantic analysis rules out. -/
  | analyzerDefect (defect : Defect)
  /-- Parts that do not fit together. -/
  | wiring (cause : WiringCause)
  deriving DecidableEq, Repr

namespace Fault

/-- Who the fault is to be blamed on. -/
def blame : Fault → Blame
  | .undefinedCallable _ => .lookup
  | .analyzerDefect _ | .wiring _ | .emptyStack => .defect
  | _ => .runtime

/-- The text of the fault. -/
def message : Fault → String
  | .nullReference cause => cause.message
  | .nullArgument index => s!"argument {index} is null"
  | .argumentOutOfRange index count => s!"argument index {index} out of range (declared {count})"
  | .slotOutOfRange area index size =>
    s!"{area.text} slot {index} out of range (frame size {size})"
  | .indexOutOfRange index size =>
    s!"array index out of range: index: {index.toInt}, size: {size}"
  | .keyNotFound key => s!"key '{key}' not found"
  | .emptyStack => "control stack is empty"
  | .stackOverflow depth => s!"call stack overflow (depth {depth})"
  | .arithmetic cause => cause.message
  | .invalidCast source target => s!"cannot cast '{source.text}' to '{target.text}'"
  | .undefinedCallable name => s!"undefined function '{name}'"
  | .arityMismatch callee expected found =>
    s!"function '{callee}' expects {expected} argument(s), got {found}"
  | .argumentType callee index expected found =>
    s!"function '{callee}' argument {index} expects '{expected.text}', got '{found.text}'"
  | .analyzerDefect defect => s!"analyzer defect: {defect.message}"
  | .wiring cause => cause.message

end Fault

/-! ## Failures -/

/-- Why a call ended without results. -/
inductive Failure
  /-- A fault of the engine. -/
  | fault (f : Fault)
  /-- An error of a native unit, by its text. -/
  | host (message : String)
  deriving DecidableEq, Repr

namespace Failure

/-- The text of the failure. -/
def message : Failure → String
  | .fault f => f.message
  | .host message => message

/-- The fault of the engine, if it is one. -/
def fault? : Failure → Option Fault
  | .fault f => some f
  | .host _ => none

end Failure

end FrameScript
