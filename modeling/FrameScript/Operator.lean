set_option autoImplicit false

/-!
# Operators

The unary and binary operators of expressions, their symbols and their kinds.

## Main definitions

* `UnaryOp`, `BinaryOp` — the operators.
* `BinaryOp.symbol`, `BinaryOp.ofSymbol?` — how they are written.
* `BinaryOp.isArithmetic`, `BinaryOp.isEquality`, `BinaryOp.isOrdering`, `BinaryOp.isLogical` — the
  four kinds a binary operator is exactly one of.
-/

namespace FrameScript

/-! ## Unary operators -/

/-- An operator with one operand. -/
inductive UnaryOp
  /-- Negation of a truth value. -/
  | not
  /-- Negation of a number. -/
  | neg
  deriving DecidableEq, Repr

namespace UnaryOp

/-- All unary operators. -/
def all : List UnaryOp := [.not, .neg]

/-- The symbol of the operator. -/
def symbol : UnaryOp → String
  | .not => "!"
  | .neg => "-"

/-- The operator with the given symbol. -/
def ofSymbol? (s : String) : Option UnaryOp :=
  all.find? (·.symbol == s)

end UnaryOp

/-! ## Binary operators -/

/-- An operator with two operands. -/
inductive BinaryOp
  /-- Addition, or joining of texts. -/
  | add
  /-- Subtraction. -/
  | sub
  /-- Multiplication. -/
  | mul
  /-- Division; of integers, toward zero. -/
  | div
  /-- Remainder, with the sign of the dividend. -/
  | mod
  /-- Equality. -/
  | eq
  /-- Inequality. -/
  | ne
  /-- Greater than. -/
  | gt
  /-- Less than. -/
  | lt
  /-- At least. -/
  | ge
  /-- At most. -/
  | le
  /-- Conjunction. -/
  | and
  /-- Disjunction. -/
  | or
  deriving DecidableEq, Repr

namespace BinaryOp

/-- All binary operators. -/
def all : List BinaryOp :=
  [.add, .sub, .mul, .div, .mod, .eq, .ne, .gt, .lt, .ge, .le, .and, .or]

/-- The symbol of the operator. -/
def symbol : BinaryOp → String
  | .add => "+"
  | .sub => "-"
  | .mul => "*"
  | .div => "/"
  | .mod => "%"
  | .eq => "=="
  | .ne => "!="
  | .gt => ">"
  | .lt => "<"
  | .ge => ">="
  | .le => "<="
  | .and => "&&"
  | .or => "||"

/-- The operator with the given symbol. -/
def ofSymbol? (s : String) : Option BinaryOp :=
  all.find? (·.symbol == s)

/-- The operators on numbers. -/
def isArithmetic : BinaryOp → Bool
  | .add | .sub | .mul | .div | .mod => true
  | _ => false

/-- The operators that compare for equality. -/
def isEquality : BinaryOp → Bool
  | .eq | .ne => true
  | _ => false

/-- The operators that compare by order. -/
def isOrdering : BinaryOp → Bool
  | .gt | .lt | .ge | .le => true
  | _ => false

/-- The operators on truth values. -/
def isLogical : BinaryOp → Bool
  | .and | .or => true
  | _ => false

end BinaryOp

end FrameScript
