import FrameScript.Json.Basic
import FrameScript.Operator
import FrameScript.Ty

set_option autoImplicit false

/-!
# Expressions and statements

The trees of function bodies. A tree names its variables and callees; where a variable lives and
where the arguments of a call are staged is filled in when the body is laid out.

## Main definitions

* `Expr` — expressions.
* `Target` — what an assignment writes to.
* `Stmt` — statements.
-/

namespace FrameScript

/-- A mention of a variable, with its slot once the body is laid out. -/
structure Variable where
  /-- The name in the text. -/
  name : String
  /-- The slot of the binding it means. -/
  slot? : Option Nat := none
  deriving DecidableEq, Repr

/-- An expression. -/
inductive Expr
  /-- An integer literal. -/
  | int (n : Int64)
  /-- A floating point literal. -/
  | float (x : Float)
  /-- A truth value. -/
  | bool (b : Bool)
  /-- A text literal. -/
  | str (s : String)
  /-- The bare null. -/
  | null
  /-- A free-form document. -/
  | json (doc : Json)
  /-- A markup document. -/
  | xml (text : String)
  /-- The value of a variable. -/
  | var (v : Variable)
  /-- A new array. -/
  | array (elem : Ty) (items : List Expr)
  /-- A new map; of two entries with one key the later stays. -/
  | map (entries : List (String × Expr))
  /-- A new struct; fields that are not given start at their default. -/
  | struct (name : String) (fields : List (String × Expr))
  /-- A new connector with values for its parameters. -/
  | connector (name : String) (args : List Expr)
  /-- A new message with the given payload. -/
  | message (payload : Expr)
  /-- An element of an array, map or document. -/
  | index (base key : Expr)
  /-- A field of a struct, parameter of a connector or member of a document. -/
  | field (base : Expr) (name : String)
  /-- A unary operator applied to its operand. -/
  | unary (op : UnaryOp) (operand : Expr)
  /-- A binary operator applied to its operands. -/
  | binary (op : BinaryOp) (left right : Expr)
  /-- A conversion to a type. -/
  | cast (operand : Expr) (target : Ty)
  /-- A call; its arguments are staged from the temporary slot `stage` on. -/
  | call (callee : String) (args : List Expr) (stage : Nat)
  /-- A call of an action of a connector, which is staged in front of the arguments. -/
  | action (connector : Expr) (name : String) (args : List Expr) (stage : Nat)
  deriving BEq

instance : Inhabited Expr := ⟨.null⟩

/-- What an assignment writes to. -/
inductive Target
  /-- A variable. -/
  | var (v : Variable)
  /-- An element of an array or map. -/
  | index (base key : Expr)
  /-- A field of a struct. -/
  | field (base : Expr) (name : String)
  deriving BEq

/-- A statement. -/
inductive Stmt
  /-- A new variable, starting at a value or at the default of its type. -/
  | define (name : String) (ty : Ty) (init? : Option Expr) (slot? : Option Nat)
  /-- Writes the value to the targets; several targets take the several results of one call. -/
  | assign (targets : List Target) (value : Expr)
  /-- A choice between two blocks. -/
  | branch (cond : Expr) (yes no : List Stmt)
  /-- A loop. -/
  | loop (cond : Expr) (body : List Stmt)
  /-- Leaves the innermost loop. -/
  | leave
  /-- Starts the next round of the innermost loop. -/
  | next
  /-- Ends the function with these results. -/
  | result (values : List Expr)
  /-- Evaluates an expression for its effect. -/
  | run (e : Expr)
  /-- A block with a scope of its own. -/
  | block (body : List Stmt)
  deriving BEq

end FrameScript
