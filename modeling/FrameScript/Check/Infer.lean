import FrameScript.Program.Basic
import FrameScript.Program.Diagnostic

set_option autoImplicit false

/-!
# Static types of expressions

Infers a type for every expression from literals, slots, declarations and signatures, and finds the
places where a null or a value of another type ends up where it cannot be.

## Main definitions

* `Checker` — the program, the slots of the function, and whether follow-up findings are reported.
* `Checker.expecting` — the findings on a value meant for a place of a declared type.
* `Checker.binaryType` — the result type of an operator.
* `Expr.infer` — the type of an expression and the findings in it.
* `Expr.inferAll` — the types of all values of an expression.

## Design

Findings are returned together with the type, in the order in which they are met, so what is found
in an expression depends on nothing found before it. Where the type of a part is `any` because of a
finding in that part, its use is not reported once more.
-/

namespace FrameScript

/-- What the analysis of a function needs to know. -/
structure Checker where
  /-- The program. -/
  program : Program
  /-- The declared types of the slots. -/
  slots : List Ty
  /-- Whether uses of an `any` that stems from a finding are reported as well. -/
  followUps : Bool := false

namespace Checker

/-! ## Compatibility -/

/-- The findings on a value of type `found` in a place of type `expected`. An `any` may be null, so
a place of a value type takes it only through a cast. -/
def compatible (expected found : Ty) : List Diagnostic :=
  if found.isNullLiteral && expected.isValueType then [.nullToValue expected]
  else if found == .any then
    if expected.isValueType then [.incompatible expected .any] else []
  else if expected.accepts found then []
  else [.incompatible expected found]

/-- As `compatible`, after the findings on the value itself: with any of these, an `any` is not
reported again. -/
def compatibleAfter (c : Checker) (findings : List Diagnostic) (expected found : Ty) :
    List Diagnostic :=
  if findings.isEmpty || found != .any || c.followUps then compatible expected found else []

/-- The findings on an inferred value in a place of a declared type. -/
def expecting (c : Checker) (expected : Ty) (inferred : Ty × List Diagnostic) :
    List Diagnostic :=
  inferred.2 ++ c.compatibleAfter inferred.2 expected inferred.1

/-- The findings on several inferred values in places of declared types. -/
def compatibleAll (c : Checker) (findings : List Diagnostic) : List Ty → List Ty → List Diagnostic
  | expected :: es, found :: fs =>
    c.compatibleAfter findings expected found ++ c.compatibleAll findings es fs
  | _, _ => []

/-- The declared type of a slot; what has no slot may be anything. -/
def slotType (c : Checker) (slot? : Option Nat) : Ty :=
  match slot? with
  | some slot => c.slots[slot]?.getD .any
  | none => .any

/-! ## Operators -/

/-- The type of a unary operator applied to a value. -/
def unaryType (op : UnaryOp) (ty : Ty) : Ty × List Diagnostic :=
  if ty.isNullLiteral then (.any, [.nullOperand op.symbol])
  else match op with
    | .not => (.boolean, [])
    | .neg => (ty, [])

/-- The findings on an operand of a logical operator. -/
def logicalOperand (ty : Ty) : List Diagnostic :=
  if ty == .any then [] else compatible .boolean ty

/-- Whether an operator of order is defined on operands of these types. -/
def ordered (l r : Ty) : Bool :=
  l == .any || r == .any || (l.isNumeric && r.isNumeric) || (l == .string && r == .string)

/-- The type of an arithmetic operator on operands other than null. -/
def arithmeticType (op : BinaryOp) (l r : Ty) : Ty × List Diagnostic :=
  if l == .any || r == .any then (.any, [])
  else if op == .add && (l == .string || r == .string) then (.string, [])
  else if l == .int && r == .int then (.int, [])
  else if l.isNumeric && r.isNumeric then (.float, [])
  else (.any, [.operands l r])

/-- The type of a binary operator, and the findings on its operands. -/
def binaryType (op : BinaryOp) (l r : Ty) : Ty × List Diagnostic :=
  if op.isEquality then
    (.boolean, if l.comparableWith r then [] else [.operands l r])
  else if op.isLogical then
    (.boolean, if l.isNullLiteral || r.isNullLiteral then [.operands l r]
      else logicalOperand l ++ logicalOperand r)
  else if l.isNullLiteral || r.isNullLiteral then
    (if op.isOrdering then .boolean else .any, [.nullOperand op.symbol])
  else if op.isOrdering then
    (.boolean, if ordered l r then [] else [.operands l r])
  else arithmeticType op l r

/-! ## Elements and fields -/

/-- The type of an element, from the type of the container and the inferred key. -/
def indexType (c : Checker) (base key : Ty × List Diagnostic) : Ty × List Diagnostic :=
  match base.1 with
  | .ref (.array elem) => (elem, base.2 ++ c.expecting .int key)
  | .ref .map => (.any, base.2 ++ c.expecting .string key)
  | .ref .json => (.ref .json, base.2 ++ key.2)
  | .any => (.any, base.2 ++ key.2)
  | other => (.any, base.2 ++ key.2 ++ [.notIndexable other])

/-- The type of a field of a value of the given type. A struct type that is not declared is reported
where it is used. -/
def fieldType (c : Checker) (base : Ty) (name : String) : Ty × List Diagnostic :=
  match base with
  | .ref (.struct struct) =>
    match c.program.struct? struct with
    | none => (.any, [])
    | some decl =>
      match decl.fieldType? name with
      | some ty => (ty, [])
      | none => (.any, [.unknownStructField name struct])
  | .ref (.connector connector) =>
    match ((c.program.connectorParams? connector).getD []).find? (·.name == name) with
    | some p => (p.ty, [])
    | none => (.any, [.unknownConnectorField name connector])
  | .ref .json => (.ref .json, [])
  | .any => (.any, [])
  | other => (.any, [.noField other name])

/-! ## Calls -/

/-- The findings on an argument. A null for a value type is a call of a callable that does not
exist. -/
def argument (c : Checker) (callee : String) (param : Ty) (inferred : Ty × List Diagnostic) :
    List Diagnostic :=
  if inferred.1.isNullLiteral && param.isValueType then
    inferred.2 ++ [.undefinedFunction callee]
  else c.expecting param inferred

/-- The findings on the number of arguments. -/
def argumentCount (callee : String) (params args : Nat) : List Diagnostic :=
  if params == args then [] else [.argumentCount callee params args]

/-- The types of the results of a call. `each` are the findings in the arguments on their own, and
`against` those on the arguments for given parameters. -/
def callTypes (c : Checker) (callee : String) (args : Nat) (each : List Diagnostic)
    (against : List Ty → List Diagnostic) : List Ty × List Diagnostic :=
  match c.program.find? callee with
  | none => ([.any], each ++ [.undefinedFunction callee])
  | some unit =>
    let params := unit.sig.paramTypes
    (unit.sig.returns, argumentCount callee params.length args ++ against params)

/-- The types of the results of an action, from the inferred connector. The connector takes the
first parameter. -/
def actionTypes (c : Checker) (target : Ty × List Diagnostic) (action : String) (args : Nat)
    (each : List Diagnostic) (against : String → List Ty → List Diagnostic) :
    List Ty × List Diagnostic :=
  match target.1 with
  | .ref (.connector connector) =>
    let callee := connector ++ "." ++ action
    match c.program.find? callee with
    | none => ([.any], target.2 ++ [.undefinedFunction callee])
    | some unit =>
      let params := unit.sig.paramTypes.drop 1
      (unit.sig.returns,
        target.2 ++ (argumentCount callee params.length args ++ against callee params))
  | .any => ([.any], target.2 ++ each)
  | other => ([.any], target.2 ++ [.notConnector action other])

/-- The type of the first result of a call. -/
def firstType (callee : String) (inferred : List Ty × List Diagnostic) : Ty × List Diagnostic :=
  match inferred.1 with
  | ty :: _ => (ty, inferred.2)
  | [] => (.any, inferred.2 ++ [.noValue callee])

/-- The name under which a call of an action is reported. -/
def actionName : String := "action"

/-- The findings on the values a connector is built from; `against` are those on the values for
given parameters. -/
def connectorArguments (c : Checker) (connector : String) (args : Nat)
    (against : List Ty → List Diagnostic) : List Diagnostic :=
  match c.program.connectorParams? connector with
  | none => [.undefinedConnector connector]
  | some params =>
    let miscounted : List Diagnostic :=
      if params.length == args then []
      else [.connectorArgumentCount connector params.length args]
    miscounted ++ against (params.map (·.ty))

end Checker

open Checker

/-! ## Expressions -/

mutual

/-- The type of an expression, and the findings in it. -/
def Expr.infer (c : Checker) : Expr → Ty × List Diagnostic
  | .int _ => (.int, [])
  | .float _ => (.float, [])
  | .bool _ => (.boolean, [])
  | .str _ => (.string, [])
  | .null => (.ref .null, [])
  | .json _ => (.ref .json, [])
  | .xml _ => (.ref .xml, [])
  | .var v => (c.slotType v.slot?, [])
  | .array elem items => (.arrayOf elem, inferItems c elem items)
  | .map entries => (.ref .map, inferEntries c entries)
  | .struct name fields =>
    (.ref (.struct name), match c.program.struct? name with
      | some decl => inferFields c decl fields
      | none => [.undefinedStruct name])
  | .connector name args =>
    (.ref (.connector name), c.connectorArguments name args.length fun params =>
      inferAgainst c params args)
  | .message payload => (.ref .message, c.expecting .string (payload.infer c))
  | .index base key => c.indexType (base.infer c) (key.infer c)
  | .field base name =>
    let (ty, found) := base.infer c
    let (fieldTy, more) := c.fieldType ty name
    (fieldTy, found ++ more)
  | .unary op operand =>
    let (ty, found) := operand.infer c
    let (resultTy, more) := unaryType op ty
    (resultTy, found ++ more)
  | .binary op left right =>
    let (l, foundLeft) := left.infer c
    let (r, foundRight) := right.infer c
    let (ty, more) := binaryType op l r
    (ty, foundLeft ++ foundRight ++ more)
  | .cast operand target =>
    (target, match operand with
      | .null => [.nullCast target]
      | _ => (operand.infer c).2)
  | .call callee args _ =>
    firstType callee (c.callTypes callee args.length (inferEach c args) fun params =>
      inferArguments c callee params args)
  | .action target name args _ =>
    firstType actionName (c.actionTypes (target.infer c) name args.length (inferEach c args)
      fun callee params => inferArguments c callee params args)

/-- The findings in several expressions. -/
def inferEach (c : Checker) : List Expr → List Diagnostic
  | [] => []
  | e :: es => (e.infer c).2 ++ inferEach c es

/-- The findings in the entries of a map. -/
def inferEntries (c : Checker) : List (String × Expr) → List Diagnostic
  | [] => []
  | (_, e) :: entries => (e.infer c).2 ++ inferEntries c entries

/-- The findings in the elements of an array. -/
def inferItems (c : Checker) (elem : Ty) : List Expr → List Diagnostic
  | [] => []
  | e :: es => c.expecting elem (e.infer c) ++ inferItems c elem es

/-- The findings in the fields of a struct. What is given for a field that does not exist is not
looked into. -/
def inferFields (c : Checker) (decl : StructDecl) : List (String × Expr) → List Diagnostic
  | [] => []
  | (name, e) :: fields =>
    (match decl.fieldType? name with
      | some ty => c.expecting ty (e.infer c)
      | none => [.unknownStructField name decl.name]) ++ inferFields c decl fields

/-- The findings in values for places of declared types, as far as both go. -/
def inferAgainst (c : Checker) : List Ty → List Expr → List Diagnostic
  | _, [] => []
  | [], _ :: _ => []
  | ty :: tys, e :: es => c.expecting ty (e.infer c) ++ inferAgainst c tys es

/-- The findings in arguments for parameters, as far as both go. -/
def inferArguments (c : Checker) (callee : String) : List Ty → List Expr → List Diagnostic
  | _, [] => []
  | [], _ :: _ => []
  | ty :: tys, e :: es => c.argument callee ty (e.infer c) ++ inferArguments c callee tys es

end

/-- The types of all values of an expression, and the findings in it. -/
def Expr.inferAll (c : Checker) : Expr → List Ty × List Diagnostic
  | .call callee args _ =>
    c.callTypes callee args.length (inferEach c args) fun params =>
      inferArguments c callee params args
  | .action target name args _ =>
    c.actionTypes (target.infer c) name args.length (inferEach c args) fun callee params =>
      inferArguments c callee params args
  | e =>
    let (ty, found) := e.infer c
    ([ty], found)

end FrameScript
