import FrameScript.Source.Basic

set_option autoImplicit false

/-!
# Scopes

Which slot a name means at a place in a function body.

A definition takes the next free slot, whether its block is ever left or not, so every definition
of a function has a slot of its own. A name means the newest binding in sight; leaving a block
brings back the bindings from before it but frees no slots.

## Main definitions

* `Scope` — the bindings in sight and the next free slot.
* `Stmt.definedTypes` — the types of the definitions in a statement, in the order of the text.
* `Stmt.scopeAfter` — the scope behind a statement.
-/

namespace FrameScript

/-- The bindings in sight at a place, and the next free slot. -/
structure Scope where
  /-- Names with their slots, the newest binding first. -/
  bindings : List (String × Nat) := []
  /-- The next free slot. -/
  next : Nat := 0
  deriving DecidableEq, Repr

namespace Scope

/-- The slot a name means. -/
def slot? (scope : Scope) (name : String) : Option Nat :=
  (scope.bindings.find? (·.1 == name)).map (·.2)

/-- The scope with a new binding. -/
def define (scope : Scope) (name : String) : Scope :=
  ⟨(name, scope.next) :: scope.bindings, scope.next + 1⟩

/-- The scope with slots taken by bindings that are no longer in sight. -/
def skip (scope : Scope) (slots : Nat) : Scope :=
  { scope with next := scope.next + slots }

/-- The scope of parameters. -/
def ofParams (params : List Param) : Scope :=
  params.foldl (fun scope p => scope.define p.name) {}

end Scope

mutual

/-- The types of the definitions in a statement, in the order of the text. -/
def Stmt.definedTypes : Stmt → List Ty
  | .define _ ty _ _ => [ty]
  | .assign _ _ => []
  | .branch _ yes no => definedTypesIn yes ++ definedTypesIn no
  | .loop _ body => definedTypesIn body
  | .leave => []
  | .next => []
  | .result _ => []
  | .run _ => []
  | .block body => definedTypesIn body

/-- The types of the definitions in a block, in the order of the text. -/
def definedTypesIn : List Stmt → List Ty
  | [] => []
  | s :: ss => s.definedTypes ++ definedTypesIn ss

end

/-- The scope behind a statement: a definition is in sight from then on, and what blocks inside the
statement define is not. -/
def Stmt.scopeAfter (scope : Scope) : Stmt → Scope
  | .define name _ _ _ => scope.define name
  | s => scope.skip s.definedTypes.length

end FrameScript
