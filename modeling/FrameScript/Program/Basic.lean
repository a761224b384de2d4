import FrameScript.Program.Registry

set_option autoImplicit false

/-!
# Programs

A loaded program: its declarations, and everything it can call by qualified name.

## Main definitions

* `Program` — a loaded program.
* `Program.find?`, `Program.resolve` — the callable a name means inside the program.
* `Program.structFields?`, `Program.connectorParams?` — declarations by name.
* `Program.callables` — every callable in ascending order of the qualified names.
-/

namespace FrameScript

/-- A loaded program. -/
structure Program where
  /-- The package of the program. -/
  package : String := ""
  /-- The struct types. -/
  structs : Dict StructDecl := []
  /-- The parameters of the connectors. -/
  connectors : Dict (List Param) := []
  /-- The callables in ascending order of their qualified names. -/
  units : Dict Callable := []

namespace Program

/-- The callable of a qualified name, or of a bare name inside the package of the program. -/
def find? (p : Program) (name : String) : Option Callable :=
  match Dict.find? name p.units with
  | some unit => some unit
  | none =>
    if p.package.isEmpty || name.toList.contains ':' then none
    else Dict.find? (p.package ++ ":" ++ name) p.units

/-- The callable a name means. -/
def resolve (p : Program) (name : String) : Except Fault Callable :=
  match p.find? name with
  | some unit => .ok unit
  | none => .error (.undefinedCallable name)

/-- The declaration of a struct type. -/
def struct? (p : Program) (name : String) : Option StructDecl :=
  Dict.find? name p.structs

/-- The declared fields of a struct type. -/
def structFields? (p : Program) (name : String) : Option (List Param) :=
  (p.struct? name).map (·.fields)

/-- The parameters of a connector. -/
def connectorParams? (p : Program) (name : String) : Option (List Param) :=
  Dict.find? name p.connectors

/-- Every callable under its qualified name, in ascending order of the names. -/
def callables (p : Program) : List (String × Callable) :=
  p.units

/-- The functions with a body, in ascending order of their qualified names. -/
def functions (p : Program) : List Function :=
  p.units.filterMap fun (_, unit) =>
    match unit with
    | .function f => some f
    | .native _ => none

end Program

end FrameScript
