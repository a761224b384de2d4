import FrameScript.Document.Printer
import FrameScript.Source.Basic

set_option autoImplicit false

/-!
# Writing program sources

The raw document of a program source. Keys stand in the order of the fields of the declarations;
an empty second block of a choice, an absent start value and absent sizes are left out, everything
else is written also where it equals its default.

## Main definitions

* `Expr.toDocument`, `Target.toDocument`, `Stmt.toDocument` — the trees of bodies.
* `FunctionDecl.toDocument`, `StructDecl.toDocument`, `ConnectorDecl.toDocument` — declarations.
* `Source.toDocument`, `Source.jsonText` — a whole program.
-/

namespace FrameScript

/-! ## Free-form documents -/

namespace Document

mutual

/-- A free-form document as a raw one. -/
def ofJson : Json → Document
  | .null => .ofScalar .null
  | .bool b => .ofScalar (.bool b)
  | .int n => .ofScalar (.int n)
  | .float x => .ofScalar (.float x.val)
  | .str s => .ofText s
  | .arr items => .list (ofJsonItems items)
  | .obj members => .table (ofJsonMembers members)

/-- The items of a free-form array. -/
def ofJsonItems : List Json → List Document
  | [] => []
  | item :: items => ofJson item :: ofJsonItems items

/-- The members of a free-form object. -/
def ofJsonMembers : List (String × Json) → List (Document × Document)
  | [] => []
  | (name, value) :: members => (ofText name, ofJson value) :: ofJsonMembers members

end

/-- A type, by its written form. -/
def ofTy (ty : Ty) : Document :=
  .ofText ty.text

end Document

open Document

/-! ## Expressions -/

mutual

/-- The document of an expression. -/
def Expr.toDocument : Expr → Document
  | .int n => .ofChoice "int" (.ofScalar (.int n.toInt))
  | .float x => .ofChoice "float" (.ofScalar (.float x))
  | .bool b => .ofChoice "bool" (.ofScalar (.bool b))
  | .str s => .ofChoice "str" (.ofText s)
  | .null => .ofText "null"
  | .json doc => .ofChoice "json" (.ofJson doc)
  | .xml text => .ofChoice "xml" (.ofText text)
  | .var v => .ofChoice "var" (.ofText v.name)
  | .array elem items =>
    .ofChoice "array" (.ofEntries [("elem", .ofTy elem), ("items", .list (exprsToDocuments items))])
  | .map entries => .ofChoice "map" (.list (namedToDocuments entries))
  | .struct name fields =>
    .ofChoice "struct"
      (.ofEntries [("name", .ofText name), ("fields", .list (namedToDocuments fields))])
  | .connector name args =>
    .ofChoice "connector"
      (.ofEntries [("name", .ofText name), ("args", .list (exprsToDocuments args))])
  | .message payload => .ofChoice "message" payload.toDocument
  | .index base key =>
    .ofChoice "index" (.ofEntries [("base", base.toDocument), ("index", key.toDocument)])
  | .field base name =>
    .ofChoice "field" (.ofEntries [("base", base.toDocument), ("name", .ofText name)])
  | .unary op operand =>
    .ofChoice "unary" (.ofEntries [("op", .ofText op.symbol), ("expr", operand.toDocument)])
  | .binary op left right =>
    .ofChoice "binary" (.ofEntries
      [("op", .ofText op.symbol), ("lhs", left.toDocument), ("rhs", right.toDocument)])
  | .cast operand target =>
    .ofChoice "cast" (.ofEntries [("expr", operand.toDocument), ("to", .ofTy target)])
  | .call callee args _ =>
    .ofChoice "call"
      (.ofEntries [("callee", .ofText callee), ("args", .list (exprsToDocuments args))])
  | .action connector name args _ =>
    .ofChoice "action" (.ofEntries [("connector", connector.toDocument), ("action", .ofText name),
      ("args", .list (exprsToDocuments args))])

/-- The documents of several expressions. -/
def exprsToDocuments : List Expr → List Document
  | [] => []
  | e :: es => e.toDocument :: exprsToDocuments es

/-- The documents of named expressions, each a list of two. -/
def namedToDocuments : List (String × Expr) → List Document
  | [] => []
  | (name, e) :: entries => .list [.ofText name, e.toDocument] :: namedToDocuments entries

end

/-! ## Statements -/

/-- The document of a target. -/
def Target.toDocument : Target → Document
  | .var v => .ofChoice "var" (.ofText v.name)
  | .index base key =>
    .ofChoice "index" (.ofEntries [("base", base.toDocument), ("index", key.toDocument)])
  | .field base name =>
    .ofChoice "field" (.ofEntries [("base", base.toDocument), ("name", .ofText name)])

mutual

/-- The document of a statement. -/
def Stmt.toDocument : Stmt → Document
  | .define name ty init? _ =>
    .ofChoice "var" (.ofEntries ([("name", .ofText name), ("type", .ofTy ty)] ++
      match init? with
      | some init => [("init", init.toDocument)]
      | none => []))
  | .assign targets value =>
    .ofChoice "assign" (.ofEntries
      [("targets", .list (targets.map Target.toDocument)), ("value", value.toDocument)])
  | .branch cond yes no =>
    .ofChoice "if" (.ofEntries
      ([("cond", cond.toDocument), ("then", .list (stmtsToDocuments yes))] ++
        if no.isEmpty then [] else [("else", .list (stmtsToDocuments no))]))
  | .loop cond body =>
    .ofChoice "while"
      (.ofEntries [("cond", cond.toDocument), ("body", .list (stmtsToDocuments body))])
  | .leave => .ofText "break"
  | .next => .ofText "continue"
  | .result values => .ofChoice "return" (.list (exprsToDocuments values))
  | .run e => .ofChoice "expr" e.toDocument
  | .block body => .ofChoice "block" (.list (stmtsToDocuments body))

/-- The documents of several statements. -/
def stmtsToDocuments : List Stmt → List Document
  | [] => []
  | s :: ss => s.toDocument :: stmtsToDocuments ss

end

/-! ## Declarations -/

/-- The document of a visibility. -/
def Visibility.toDocument : Visibility → Document
  | .everyone => .ofText "public"
  | .ownPackage => .ofText "private"

/-- The document of a typed name. -/
def Param.toDocument (p : Param) : Document :=
  .ofEntries [("name", .ofText p.name), ("type", .ofTy p.ty)]

/-- The document of a struct declaration. -/
def StructDecl.toDocument (decl : StructDecl) : Document :=
  .ofEntries [("name", .ofText decl.name), ("fields", .list (decl.fields.map Param.toDocument))]

/-- A size under its key, unless it is absent. -/
def sizeEntry (key : String) : Option Nat → List (String × Document)
  | some size => [(key, .ofScalar (.int (Int.ofNat size)))]
  | none => []

/-- The document of a function declaration. -/
def FunctionDecl.toDocument (decl : FunctionDecl) : Document :=
  .ofEntries ([("name", .ofText decl.name), ("visibility", decl.visibility.toDocument),
    ("params", .list (decl.params.map Param.toDocument)),
    ("returns", .list (decl.returns.map Document.ofTy)),
    ("body", .list (stmtsToDocuments decl.body))] ++
    sizeEntry "stack_frame_size" decl.stackSize? ++ sizeEntry "temp_frame_size" decl.tempSize?)

/-- The document of a connector declaration. -/
def ConnectorDecl.toDocument (decl : ConnectorDecl) : Document :=
  .ofEntries [("name", .ofText decl.name), ("params", .list (decl.params.map Param.toDocument)),
    ("actions", .list (decl.actions.map FunctionDecl.toDocument))]

namespace Source

/-- The document of a program source. -/
def toDocument (source : Source) : Document :=
  .ofEntries [("package", .ofText source.package),
    ("structs", .list (source.structs.map StructDecl.toDocument)),
    ("connectors", .list (source.connectors.map ConnectorDecl.toDocument)),
    ("functions", .list (source.functions.map FunctionDecl.toDocument))]

/-- The compact JSON text of a program source. -/
def jsonText (source : Source) : String :=
  source.toDocument.jsonText

end Source

end FrameScript
