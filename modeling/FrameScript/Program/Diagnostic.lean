import FrameScript.Operator
import FrameScript.Ty

set_option autoImplicit false

/-!
# Diagnostics

What is found wrong with a function before it runs.

## Main definitions

* `Diagnostic` — a finding by its cause, and `Diagnostic.message`, its text.
* `SemanticError` — a finding with the function it is about.
-/

namespace FrameScript

/-- What is wrong with a function. -/
inductive Diagnostic
  /-- A parameter with the name of an earlier one. -/
  | duplicateParam (name : String)
  /-- A variable that no visible definition binds. -/
  | undefinedVariable (name : String)
  /-- A null meant for a value type. -/
  | nullToValue (expected : Ty)
  /-- A value of one type meant for another. -/
  | incompatible (expected found : Ty)
  /-- Operands of types that an operator does not join. -/
  | operands (left right : Ty)
  /-- An operator applied to null. -/
  | nullOperand (symbol : String)
  /-- A bare null that is cast. -/
  | nullCast (target : Ty)
  /-- An assignment with different numbers of targets and values. -/
  | assignmentCount (expected found : Nat)
  /-- A return with another number of values than declared. -/
  | returnCount (expected found : Nat)
  /-- A call with another number of arguments than parameters. -/
  | argumentCount (callee : String) (expected found : Nat)
  /-- A connector built from another number of values than parameters. -/
  | connectorArgumentCount (connector : String) (expected found : Nat)
  /-- A jump out of a loop where there is none. -/
  | strayJump
  /-- A call of an unknown callable, or of none that takes null where null is passed. -/
  | undefinedFunction (name : String)
  /-- A call without results where a value is needed. -/
  | noValue (callee : String)
  /-- A struct type that is not declared. -/
  | undefinedStruct (name : String)
  /-- A field that the struct type does not have. -/
  | unknownStructField (field struct : String)
  /-- A connector that is not declared. -/
  | undefinedConnector (name : String)
  /-- A parameter that the connector does not have. -/
  | unknownConnectorField (field connector : String)
  /-- An index into a value that has no elements. -/
  | notIndexable (ty : Ty)
  /-- A field of a value that has no fields. -/
  | noField (ty : Ty) (name : String)
  /-- An action of a value that is no connector. -/
  | notConnector (action : String) (ty : Ty)
  deriving DecidableEq, Repr

/-- The text of the finding. -/
def Diagnostic.message : Diagnostic → String
  | .duplicateParam name => s!"duplicate parameter '{name}'"
  | .undefinedVariable name => s!"undefined variable '{name}'"
  | .nullToValue expected =>
    s!"incompatible types: 'null' cannot be assigned to '{expected.text}'"
  | .incompatible expected found =>
    s!"incompatible types: expected '{expected.text}', found '{found.text}'"
  | .operands left right =>
    s!"invalid operation: incompatible types '{left.text}' and '{right.text}'"
  | .nullOperand symbol => s!"invalid operation: operator {symbol} not defined on 'null'"
  | .nullCast target => s!"incompatible types: 'null' cannot be cast to '{target.text}'"
  | .assignmentCount expected found =>
    s!"assignment count mismatch: expected {expected} values, found {found}"
  | .returnCount expected found =>
    s!"incorrect number of return values: expected {expected}, found {found}"
  | .argumentCount callee expected found =>
    s!"incorrect number of arguments for '{callee}': expected {expected}, found {found}"
  | .connectorArgumentCount connector expected found =>
    s!"incorrect number of arguments for connector '{connector}': " ++
      s!"expected {expected}, found {found}"
  | .strayJump => "break or continue outside a loop"
  | .undefinedFunction name => s!"undefined function '{name}'"
  | .noValue callee => s!"function '{callee}' does not return a value"
  | .undefinedStruct name => s!"undefined struct '{name}'"
  | .unknownStructField field struct => s!"unknown field '{field}' in struct '{struct}'"
  | .undefinedConnector name => s!"undefined connector '{name}'"
  | .unknownConnectorField field connector =>
    s!"unknown field '{field}' in connector '{connector}'"
  | .notIndexable ty => s!"invalid operation: cannot index '{ty.text}'"
  | .noField ty name => s!"invalid operation: '{ty.text}' has no field '{name}'"
  | .notConnector action ty => s!"invalid operation: action '{action}' on '{ty.text}'"

/-- A finding with the function it is about. -/
structure SemanticError where
  /-- The name of the function without its package. -/
  function : String
  /-- What is wrong. -/
  diagnostic : Diagnostic
  deriving DecidableEq, Repr

/-- The text of the error. -/
def SemanticError.message (e : SemanticError) : String :=
  s!"function '{e.function}': {e.diagnostic.message}"

/-- The texts of several errors, one a line. -/
def SemanticError.messages (es : List SemanticError) : String :=
  "\n".intercalate (es.map SemanticError.message)

end FrameScript
