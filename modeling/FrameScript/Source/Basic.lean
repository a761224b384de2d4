import FrameScript.Syntax

set_option autoImplicit false

/-!
# Program sources

The declarations of a program as its author hands them over.

## Main definitions

* `Param`, `Visibility` — parts of declarations.
* `StructDecl`, `ConnectorDecl`, `FunctionDecl` — the declarations.
* `Source` — a whole program.
-/

namespace FrameScript

/-- Who may see a declaration. -/
inductive Visibility
  /-- Everyone. -/
  | everyone
  /-- Its own package. -/
  | ownPackage
  deriving DecidableEq, Repr

/-- A typed name: a parameter, or a field of a struct. -/
structure Param where
  /-- The name. -/
  name : String
  /-- The declared type. -/
  ty : Ty
  deriving DecidableEq, Repr

/-- The declaration of a struct type. -/
structure StructDecl where
  /-- The name of the type. -/
  name : String
  /-- The fields in order. -/
  fields : List Param
  deriving DecidableEq, Repr

/-- The declared type of a field; the first field of a name counts. -/
def StructDecl.fieldType? (decl : StructDecl) (name : String) : Option Ty :=
  (decl.fields.find? (·.name == name)).map (·.ty)

/-- The declaration of a function or of an action of a connector. -/
structure FunctionDecl where
  /-- The name without its package. -/
  name : String
  /-- Who may call it. -/
  visibility : Visibility := .everyone
  /-- The parameters in order. -/
  params : List Param := []
  /-- The types of its results. -/
  returns : List Ty := []
  /-- The body. -/
  body : List Stmt := []
  /-- The number of slots its author counted. -/
  stackSize? : Option Nat := none
  /-- The number of temporary slots its author counted. -/
  tempSize? : Option Nat := none
  deriving BEq

/-- The declaration of a connector: what one is built from, and what it can do. -/
structure ConnectorDecl where
  /-- The name of the connector type. -/
  name : String
  /-- What a connector is built from. -/
  params : List Param
  /-- The actions, whose names lie inside the connector. -/
  actions : List FunctionDecl
  deriving BEq

/-- The source of a program. -/
structure Source where
  /-- The package the program's functions lie in; the empty name is no package. -/
  package : String := ""
  /-- The struct types. -/
  structs : List StructDecl := []
  /-- The connectors. -/
  connectors : List ConnectorDecl := []
  /-- The functions. -/
  functions : List FunctionDecl := []
  deriving BEq

end FrameScript
