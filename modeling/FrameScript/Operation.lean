import FrameScript.Value.Render

set_option autoImplicit false

/-!
# Applying operators

What operators do to values.

## Main definitions

* `UnaryOp.apply` — negation of truth values and numbers.
* `BinaryOp.intResult`, `BinaryOp.floatResult` — arithmetic on two integers and on two doubles.
* `BinaryOp.compare` — equality and order.
* `BinaryOp.apply` — any operator on two values that are both there.

## Design

The operands of an operator are checked for null first. Integers meet doubles as doubles. Addition
joins texts as soon as one operand is a text. Order is that of numbers, or that of texts by code
points, and an undefined number is in no order with anything.
-/

namespace FrameScript

/-! ## Unary operators -/

/-- Applies a unary operator. -/
def UnaryOp.apply (op : UnaryOp) (v : Value) : Except Fault Value :=
  match op, v with
  | op, .null _ => .error (.analyzerDefect (.nullOperand op))
  | .not, .bool b => .ok (.bool !b)
  | .neg, .int n =>
    match Integer.neg? n with
    | some n => .ok (.int n)
    | none => .error (.arithmetic .overflow)
  | .neg, .float x => .ok (.float (-x))
  | op, v => .error (.analyzerDefect (.operand op v.ty))

namespace BinaryOp

/-! ## Arithmetic -/

/-- The exact result of an operation on integers, if it is a 64-bit integer. -/
def intExact? (op : BinaryOp) (a b : Int64) : Option Int64 :=
  match op with
  | .add => Integer.add? a b
  | .sub => Integer.sub? a b
  | .mul => Integer.mul? a b
  | .div => Integer.div? a b
  | .mod => Integer.mod? a b
  | _ => none

/-- Arithmetic on integers. -/
def intResult (op : BinaryOp) (a b : Int64) : Except Fault Value :=
  if (op == .div || op == .mod) && b == 0 then .error (.arithmetic .divisionByZero)
  else match op.intExact? a b with
    | some n => .ok (.int n)
    | none => .error (.arithmetic .overflow)

/-- Arithmetic on doubles. -/
def floatResult (op : BinaryOp) (x y : Float) : Float :=
  match op with
  | .add => x + y
  | .sub => x - y
  | .mul => x * y
  | .div => x / y
  | .mod => Binary64.remainder x y
  | _ => 0.0 / 0.0

/-- An arithmetic operator on values. -/
def arithmetic (h : Heap) (op : BinaryOp) (l r : Value) : Except Fault Value :=
  match l, r with
  | .int a, .int b => op.intResult a b
  | .int a, .float y => .ok (.float (op.floatResult (Integer.toFloat a) y))
  | .float x, .int b => .ok (.float (op.floatResult x (Integer.toFloat b)))
  | .float x, .float y => .ok (.float (op.floatResult x y))
  | .str s, r =>
    if op == .add then .ok (.str (s ++ r.text h))
    else .error (.analyzerDefect (.operands l.ty op r.ty))
  | l, .str s =>
    if op == .add then .ok (.str (l.text h ++ s))
    else .error (.analyzerDefect (.operands l.ty op r.ty))
  | l, r => .error (.analyzerDefect (.operands l.ty op r.ty))

/-! ## Comparison -/

/-- The order of two doubles, unless one of them is undefined. -/
def floatOrder? (x y : Float) : Option Ordering :=
  if x < y then some .lt
  else if y < x then some .gt
  else if x == y then some .eq
  else none

/-- The order of two texts by code points. -/
def stringOrder (s t : String) : Ordering :=
  if s < t then .lt else if s == t then .eq else .gt

/-- The order of two integers. -/
def intOrder (a b : Int64) : Ordering :=
  if a < b then .lt else if a == b then .eq else .gt

/-- Whether an order is as the operator says. -/
def admits (op : BinaryOp) (o : Ordering) : Bool :=
  match op with
  | .gt => o == .gt
  | .lt => o == .lt
  | .ge => o != .lt
  | .le => o != .gt
  | _ => false

/-- Whether the order of two doubles is as the operator says. -/
def admitsFloats (op : BinaryOp) (x y : Float) : Bool :=
  match floatOrder? x y with
  | some o => op.admits o
  | none => false

/-- Equality of two values. Nulls of unrelated types cannot be compared. -/
def equality (l r : Value) : Except Fault Bool :=
  match l, r with
  | .null s, .null t =>
    if s.compatibleWith t then .ok true else .error (.analyzerDefect (.incomparableNulls s t))
  | l, r => .ok (l.equals r)

/-- Order of two values. -/
def order (op : BinaryOp) (l r : Value) : Except Fault Bool :=
  if l.isNull || r.isNull then .error (.analyzerDefect (.nullOperands op))
  else match l, r with
    | .str s, .str t => .ok (op.admits (stringOrder s t))
    | .int a, .int b => .ok (op.admits (intOrder a b))
    | .int a, .float y => .ok (op.admitsFloats (Integer.toFloat a) y)
    | .float x, .int b => .ok (op.admitsFloats x (Integer.toFloat b))
    | .float x, .float y => .ok (op.admitsFloats x y)
    | l, r => .error (.analyzerDefect (.operands l.ty op r.ty))

/-- An operator of equality or order on values. -/
def compare (op : BinaryOp) (l r : Value) : Except Fault Bool :=
  match op with
  | .eq => equality l r
  | .ne => (equality l r).map (!·)
  | op => op.order l r

/-! ## All operators -/

/-- A logical operator on values that are both there. -/
def logical (op : BinaryOp) (l r : Value) : Except Fault Value :=
  match l, r with
  | .bool a, .bool b => .ok (.bool (if op == .and then a && b else a || b))
  | l, r =>
    if l.isNull || r.isNull then .error (.analyzerDefect (.nullOperands op))
    else .error (.analyzerDefect (.operands l.ty op r.ty))

/-- Applies a binary operator to two values. -/
def apply (h : Heap) (op : BinaryOp) (l r : Value) : Except Fault Value :=
  if op.isArithmetic then
    if l.isNull || r.isNull then .error (.analyzerDefect (.nullOperands op))
    else op.arithmetic h l r
  else if op.isLogical then op.logical l r
  else (op.compare l r).map Value.bool

end BinaryOp

end FrameScript
