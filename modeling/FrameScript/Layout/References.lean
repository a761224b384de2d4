import FrameScript.Syntax

set_option autoImplicit false

/-!
# References of a body

The places of a body that the layout fills in, in the order they are met.

## Main definitions

* `Reference` — a mention of a variable, a definition, or a call.
* `Expr.references`, `Target.references`, `Stmt.references` — the references of a tree. A definition
  comes behind its start value, an assignment gives its value in front of its targets, and a call
  comes in front of its arguments.
-/

namespace FrameScript

/-- A place that the layout fills in. -/
inductive Reference
  /-- A mention of a variable. -/
  | mention (name : String) (slot? : Option Nat)
  /-- A definition. -/
  | definition (name : String) (slot? : Option Nat)
  /-- A call of a named callable. -/
  | call (callee : String) (stage : Nat)
  /-- A call of an action. -/
  | action (name : String) (stage : Nat)
  deriving DecidableEq, Repr

mutual

/-- The references of an expression. -/
def Expr.references : Expr → List Reference
  | .int _ => []
  | .float _ => []
  | .bool _ => []
  | .str _ => []
  | .null => []
  | .json _ => []
  | .xml _ => []
  | .var v => [.mention v.name v.slot?]
  | .array _ items => referencesIn items
  | .map entries => referencesInNamed entries
  | .struct _ fields => referencesInNamed fields
  | .connector _ args => referencesIn args
  | .message payload => payload.references
  | .index base key => base.references ++ key.references
  | .field base _ => base.references
  | .unary _ operand => operand.references
  | .binary _ left right => left.references ++ right.references
  | .cast operand _ => operand.references
  | .call callee args stage => .call callee stage :: referencesIn args
  | .action target name args stage =>
    .action name stage :: (target.references ++ referencesIn args)

/-- The references of several expressions. -/
def referencesIn : List Expr → List Reference
  | [] => []
  | e :: es => e.references ++ referencesIn es

/-- The references of named expressions. -/
def referencesInNamed : List (String × Expr) → List Reference
  | [] => []
  | (_, e) :: entries => e.references ++ referencesInNamed entries

end

/-- The references of a target. -/
def Target.references : Target → List Reference
  | .var v => [.mention v.name v.slot?]
  | .index base key => base.references ++ key.references
  | .field base _ => base.references

mutual

/-- The references of a statement. -/
def Stmt.references : Stmt → List Reference
  | .define name _ init? slot? =>
    (match init? with
      | some init => init.references
      | none => []) ++ [.definition name slot?]
  | .assign targets value => value.references ++ targets.flatMap Target.references
  | .branch cond yes no => cond.references ++ (referencesInBlock yes ++ referencesInBlock no)
  | .loop cond body => cond.references ++ referencesInBlock body
  | .leave => []
  | .next => []
  | .result values => referencesIn values
  | .run e => e.references
  | .block body => referencesInBlock body

/-- The references of a block. -/
def referencesInBlock : List Stmt → List Reference
  | [] => []
  | s :: ss => s.references ++ referencesInBlock ss

end

end FrameScript
