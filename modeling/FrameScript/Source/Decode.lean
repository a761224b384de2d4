import FrameScript.Document.Decoder
import FrameScript.Integer
import FrameScript.Json.Reader
import FrameScript.Source.Basic

set_option autoImplicit false

/-!
# Reading program sources

The program source a raw document describes. Records may leave out what has a default, keys that are
not known are passed over, and an absent part may also be written as null where it may be absent.

## Main definitions

* `Expr.decode`, `Stmt.decode` — the trees of bodies.
* `FunctionDecl.decode`, `StructDecl.decode`, `ConnectorDecl.decode` — declarations.
* `Source.decode` — a whole program.
* `Source.ofDocument?`, `Source.ofJsonText?` — the program a document and a JSON text describe.
-/

namespace FrameScript

open Decoder Document

/-! ## Scalars -/

/-- Reads a type. -/
def Ty.decode (d : Document) : Decoder Ty :=
  d.value fun d => d.text?.bind Ty.parse?

namespace Document

/-- Reads a 64-bit integer. -/
def int64 (d : Document) : Decoder Int64 :=
  d.value fun d => d.int?.bind Integer.ofInt?

/-- Reads a size of 64 bits. -/
def wordSize (d : Document) : Decoder Nat :=
  d.value fun d => d.nat?.filter (· < UInt64.size)

end Document

/-! ## Operators -/

/-- Reads a unary operator. -/
def UnaryOp.decode (d : Document) : Decoder UnaryOp := do
  UnaryOp.ofSymbol? (← d.bareVariant (UnaryOp.all.map (·.symbol)))

/-- Reads a binary operator. -/
def BinaryOp.decode (d : Document) : Decoder BinaryOp := do
  BinaryOp.ofSymbol? (← d.bareVariant (BinaryOp.all.map (·.symbol)))

/-! ## Expressions -/

namespace Expr

/-- The names of the forms of expressions. -/
def forms : List String :=
  ["int", "float", "bool", "str", "null", "json", "xml", "var", "array", "map", "struct",
    "connector", "message", "index", "field", "unary", "binary", "cast", "call", "action"]

/-- Reads the content of an expression of the named form; `expr` reads the expressions in it. -/
def decodeForm (expr : Document → Decoder Expr) (form : String) (d : Document) : Decoder Expr :=
  match form with
  | "int" => return .int (← d.int64)
  | "float" => return .float (← d.value float?)
  | "bool" => return .bool (← d.value bool?)
  | "str" => return .str (← d.text)
  | "null" => do
    d.null
    return .null
  | "json" => return .json (← d.json)
  | "xml" => return .xml (← d.text)
  | "var" => return .var ⟨← d.text, none⟩
  | "array" => d.record ["elem", "items"] fun
    | [elem, items] => do
      let elem ← required Ty.decode elem
      let items ← orDefault [] (listOf expr) items
      return .array elem items
    | _ => failure
  | "map" => return .map (← d.listOf (named expr))
  | "struct" => d.record ["name", "fields"] fun
    | [name, fields] => do
      let name ← required text name
      let fields ← orDefault [] (listOf (named expr)) fields
      return .struct name fields
    | _ => failure
  | "connector" => d.record ["name", "args"] fun
    | [name, args] => do
      let name ← required text name
      let args ← orDefault [] (listOf expr) args
      return .connector name args
    | _ => failure
  | "message" => return .message (← expr d)
  | "index" => d.record ["base", "index"] fun
    | [base, key] => do
      let base ← required expr base
      let key ← required expr key
      return .index base key
    | _ => failure
  | "field" => d.record ["base", "name"] fun
    | [base, name] => do
      let base ← required expr base
      let name ← required text name
      return .field base name
    | _ => failure
  | "unary" => d.record ["op", "expr"] fun
    | [op, operand] => do
      let op ← required UnaryOp.decode op
      let operand ← required expr operand
      return .unary op operand
    | _ => failure
  | "binary" => d.record ["op", "lhs", "rhs"] fun
    | [op, left, right] => do
      let op ← required BinaryOp.decode op
      let left ← required expr left
      let right ← required expr right
      return .binary op left right
    | _ => failure
  | "cast" => d.record ["expr", "to"] fun
    | [operand, target] => do
      let operand ← required expr operand
      let target ← required Ty.decode target
      return .cast operand target
    | _ => failure
  | "call" => d.record ["callee", "args"] fun
    | [callee, args] => do
      let callee ← required text callee
      let args ← orDefault [] (listOf expr) args
      return .call callee args 0
    | _ => failure
  | "action" => d.record ["connector", "action", "args"] fun
    | [target, name, args] => do
      let target ← required expr target
      let name ← required text name
      let args ← orDefault [] (listOf expr) args
      return .action target name args 0
    | _ => failure
  | _ => failure

/-- Reads an expression with others inside it, as far as the fuel goes. -/
def decodeWith : Nat → Document → Decoder Expr
  | 0, _ => failure
  | fuel + 1, d => do
    match ← d.variant forms with
    | (form, some content) => decodeForm (decodeWith fuel) form content
    | ("null", none) => return .null
    | _ => failure

/-- Reads an expression. -/
def decode (d : Document) : Decoder Expr := do
  decodeWith (← reach) d

end Expr

/-! ## Statements -/

namespace Target

/-- The names of the forms of targets. -/
def forms : List String := ["var", "index", "field"]

/-- Reads a target. -/
def decode (d : Document) : Decoder Target := do
  match ← d.variant forms with
  | ("var", some content) => return .var ⟨← content.text, none⟩
  | ("index", some content) => content.record ["base", "index"] fun
    | [base, key] => do
      let base ← required Expr.decode base
      let key ← required Expr.decode key
      return .index base key
    | _ => failure
  | ("field", some content) => content.record ["base", "name"] fun
    | [base, name] => do
      let base ← required Expr.decode base
      let name ← required text name
      return .field base name
    | _ => failure
  | _ => failure

end Target

namespace Stmt

/-- The names of the forms of statements. -/
def forms : List String :=
  ["var", "assign", "if", "while", "break", "continue", "return", "expr", "block"]

/-- Reads the content of a statement of the named form; `stmt` reads the statements in it. -/
def decodeForm (stmt : Document → Decoder Stmt) (form : String) (d : Document) : Decoder Stmt :=
  match form with
  | "var" => d.record ["name", "type", "init"] fun
    | [name, type, init] => do
      let name ← required text name
      let type ← required Ty.decode type
      let init? ← orAbsent Expr.decode init
      return .define name type init? none
    | _ => failure
  | "assign" => d.record ["targets", "value"] fun
    | [targets, value] => do
      let targets ← required (listOf Target.decode) targets
      let value ← required Expr.decode value
      return .assign targets value
    | _ => failure
  | "if" => d.record ["cond", "then", "else"] fun
    | [cond, yes, no] => do
      let cond ← required Expr.decode cond
      let yes ← required (listOf stmt) yes
      let no ← orDefault [] (listOf stmt) no
      return .branch cond yes no
    | _ => failure
  | "while" => d.record ["cond", "body"] fun
    | [cond, body] => do
      let cond ← required Expr.decode cond
      let body ← required (listOf stmt) body
      return .loop cond body
    | _ => failure
  | "break" => do
    d.null
    return .leave
  | "continue" => do
    d.null
    return .next
  | "return" => return .result (← d.listOf Expr.decode)
  | "expr" => return .run (← Expr.decode d)
  | "block" => return .block (← d.listOf stmt)
  | _ => failure

/-- Reads a statement with others inside it, as far as the fuel goes. -/
def decodeWith : Nat → Document → Decoder Stmt
  | 0, _ => failure
  | fuel + 1, d => do
    match ← d.variant forms with
    | (form, some content) => decodeForm (decodeWith fuel) form content
    | ("break", none) => return .leave
    | ("continue", none) => return .next
    | _ => failure

/-- Reads a statement. -/
def decode (d : Document) : Decoder Stmt := do
  decodeWith (← reach) d

end Stmt

/-! ## Declarations -/

/-- Reads a visibility. -/
def Visibility.decode (d : Document) : Decoder Visibility := do
  match ← d.bareVariant ["public", "private"] with
  | "public" => return .everyone
  | "private" => return .ownPackage
  | _ => failure

/-- Reads a typed name. -/
def Param.decode (d : Document) : Decoder Param :=
  d.record ["name", "type"] fun
    | [name, type] => do
      let name ← required text name
      let type ← required Ty.decode type
      return ⟨name, type⟩
    | _ => failure

/-- Reads a struct declaration. -/
def StructDecl.decode (d : Document) : Decoder StructDecl :=
  d.record ["name", "fields"] fun
    | [name, fields] => do
      let name ← required text name
      let fields ← orDefault [] (listOf Param.decode) fields
      return ⟨name, fields⟩
    | _ => failure

/-- Reads a function declaration. -/
def FunctionDecl.decode (d : Document) : Decoder FunctionDecl :=
  d.record ["name", "visibility", "params", "returns", "body", "stack_frame_size",
      "temp_frame_size"] fun
    | [name, visibility, params, returns, body, stackSize, tempSize] => do
      let name ← required text name
      let visibility ← orDefault .everyone Visibility.decode visibility
      let params ← orDefault [] (listOf Param.decode) params
      let returns ← orDefault [] (listOf Ty.decode) returns
      let body ← orDefault [] (listOf Stmt.decode) body
      let stackSize? ← orAbsent wordSize stackSize
      let tempSize? ← orAbsent wordSize tempSize
      return ⟨name, visibility, params, returns, body, stackSize?, tempSize?⟩
    | _ => failure

/-- Reads a connector declaration. -/
def ConnectorDecl.decode (d : Document) : Decoder ConnectorDecl :=
  d.record ["name", "params", "actions"] fun
    | [name, params, actions] => do
      let name ← required text name
      let params ← orDefault [] (listOf Param.decode) params
      let actions ← orDefault [] (listOf FunctionDecl.decode) actions
      return ⟨name, params, actions⟩
    | _ => failure

namespace Source

/-- Reads a program source. -/
def decode (d : Document) : Decoder Source :=
  d.record ["package", "structs", "connectors", "functions"] fun
    | [package, structs, connectors, functions] => do
      let package ← orDefault "" text package
      let structs ← orDefault [] (listOf StructDecl.decode) structs
      let connectors ← orDefault [] (listOf ConnectorDecl.decode) connectors
      let functions ← orDefault [] (listOf FunctionDecl.decode) functions
      return ⟨package, structs, connectors, functions⟩
    | _ => failure

/-- The program source a document describes. -/
def ofDocument? (d : Document) : Option Source :=
  d.decode? decode

/-- The program source a JSON text describes. -/
def ofJsonText? (s : String) : Option Source :=
  (Document.ofJsonText? s).bind ofDocument?

end Source

end FrameScript
