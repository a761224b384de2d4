import FrameScript.Layout.Scope
import FrameScript.Program.Callable
import FrameScript.Program.Diagnostic

set_option autoImplicit false

/-!
# Laying out bodies

Gives every definition and every mention of a variable its slot, and every call the first temporary
slot its arguments are staged in. Argument `i` of a call that stages from `b` on goes to `b + i`,
and calls inside that argument stage from `b + i` on, so no value that waits for its call is
overwritten.

## Main definitions

* `Expr.layout`, `Target.layout`, `Stmt.layout` — a tree with slots and stages filled in.
* `Expr.unbound`, `Target.unbound`, `Stmt.unbound` — the names that mean nothing, in the order they
  are met.
* `Expr.tempsEnd`, `Target.tempsEnd`, `Stmt.tempsEnd` — the end of the temporary slots in use.
* `layOut` — the layout and the laid out body of a function, or what is wrong with its names.
-/

namespace FrameScript

/-! ## Expressions -/

mutual

/-- Fills in the slots of variables by `slot?` and the stages of calls, of which the outermost
stage from `base` on. -/
def Expr.layout (slot? : String → Option Nat) (base : Nat) : Expr → Expr
  | .int n => .int n
  | .float x => .float x
  | .bool b => .bool b
  | .str s => .str s
  | .null => .null
  | .json doc => .json doc
  | .xml text => .xml text
  | .var v => .var ⟨v.name, slot? v.name⟩
  | .array elem items => .array elem (layoutEach slot? base items)
  | .map entries => .map (layoutNamed slot? base entries)
  | .struct name fields => .struct name (layoutNamed slot? base fields)
  | .connector name args => .connector name (layoutEach slot? base args)
  | .message payload => .message (payload.layout slot? base)
  | .index b key => .index (b.layout slot? base) (key.layout slot? base)
  | .field b name => .field (b.layout slot? base) name
  | .unary op operand => .unary op (operand.layout slot? base)
  | .binary op left right => .binary op (left.layout slot? base) (right.layout slot? base)
  | .cast operand target => .cast (operand.layout slot? base) target
  | .call callee args _ => .call callee (layoutStaged slot? base args) base
  | .action target name args _ =>
    .action (target.layout slot? base) name (layoutStaged slot? (base + 1) args) base

/-- Lays out expressions none of which waits for the next. -/
def layoutEach (slot? : String → Option Nat) (base : Nat) : List Expr → List Expr
  | [] => []
  | e :: es => e.layout slot? base :: layoutEach slot? base es

/-- Lays out named expressions. -/
def layoutNamed (slot? : String → Option Nat) (base : Nat) :
    List (String × Expr) → List (String × Expr)
  | [] => []
  | (name, e) :: entries => (name, e.layout slot? base) :: layoutNamed slot? base entries

/-- Lays out arguments, each of which is staged while those behind it are evaluated. -/
def layoutStaged (slot? : String → Option Nat) (base : Nat) : List Expr → List Expr
  | [] => []
  | e :: es => e.layout slot? base :: layoutStaged slot? (base + 1) es

end

mutual

/-- The variables in an expression that mean nothing, in the order they are met. -/
def Expr.unbound (slot? : String → Option Nat) : Expr → List String
  | .int _ => []
  | .float _ => []
  | .bool _ => []
  | .str _ => []
  | .null => []
  | .json _ => []
  | .xml _ => []
  | .var v => if (slot? v.name).isNone then [v.name] else []
  | .array _ items => unboundIn slot? items
  | .map entries => unboundInNamed slot? entries
  | .struct _ fields => unboundInNamed slot? fields
  | .connector _ args => unboundIn slot? args
  | .message payload => payload.unbound slot?
  | .index b key => b.unbound slot? ++ key.unbound slot?
  | .field b _ => b.unbound slot?
  | .unary _ operand => operand.unbound slot?
  | .binary _ left right => left.unbound slot? ++ right.unbound slot?
  | .cast operand _ => operand.unbound slot?
  | .call _ args _ => unboundIn slot? args
  | .action target _ args _ => target.unbound slot? ++ unboundIn slot? args

/-- The variables in several expressions that mean nothing. -/
def unboundIn (slot? : String → Option Nat) : List Expr → List String
  | [] => []
  | e :: es => e.unbound slot? ++ unboundIn slot? es

/-- The variables in named expressions that mean nothing. -/
def unboundInNamed (slot? : String → Option Nat) : List (String × Expr) → List String
  | [] => []
  | (_, e) :: entries => e.unbound slot? ++ unboundInNamed slot? entries

end

mutual

/-- The end of the temporary slots that an expression uses when it stages from `base` on. -/
def Expr.tempsEnd (base : Nat) : Expr → Nat
  | .int _ => 0
  | .float _ => 0
  | .bool _ => 0
  | .str _ => 0
  | .null => 0
  | .json _ => 0
  | .xml _ => 0
  | .var _ => 0
  | .array _ items => tempsEndOfEach base items
  | .map entries => tempsEndOfNamed base entries
  | .struct _ fields => tempsEndOfNamed base fields
  | .connector _ args => tempsEndOfEach base args
  | .message payload => payload.tempsEnd base
  | .index b key => max (b.tempsEnd base) (key.tempsEnd base)
  | .field b _ => b.tempsEnd base
  | .unary _ operand => operand.tempsEnd base
  | .binary _ left right => max (left.tempsEnd base) (right.tempsEnd base)
  | .cast operand _ => operand.tempsEnd base
  | .call _ args _ => max (tempsEndOfStaged base args) (base + args.length)
  | .action target _ args _ =>
    max (target.tempsEnd base) (max (tempsEndOfStaged (base + 1) args) (base + 1 + args.length))

/-- The end of the temporary slots of expressions none of which waits for the next. -/
def tempsEndOfEach (base : Nat) : List Expr → Nat
  | [] => 0
  | e :: es => max (e.tempsEnd base) (tempsEndOfEach base es)

/-- The end of the temporary slots of named expressions. -/
def tempsEndOfNamed (base : Nat) : List (String × Expr) → Nat
  | [] => 0
  | (_, e) :: entries => max (e.tempsEnd base) (tempsEndOfNamed base entries)

/-- The end of the temporary slots of arguments. -/
def tempsEndOfStaged (base : Nat) : List Expr → Nat
  | [] => 0
  | e :: es => max (e.tempsEnd base) (tempsEndOfStaged (base + 1) es)

end

/-! ## Targets -/

namespace Target

/-- Fills in the slots and stages of a target. -/
def layout (slot? : String → Option Nat) : Target → Target
  | .var v => .var ⟨v.name, slot? v.name⟩
  | .index base key => .index (base.layout slot? 0) (key.layout slot? 0)
  | .field base name => .field (base.layout slot? 0) name

/-- The variables in a target that mean nothing. -/
def unbound (slot? : String → Option Nat) : Target → List String
  | .var v => if (slot? v.name).isNone then [v.name] else []
  | .index base key => base.unbound slot? ++ key.unbound slot?
  | .field base _ => base.unbound slot?

/-- The end of the temporary slots of a target. -/
def tempsEnd : Target → Nat
  | .var _ => 0
  | .index base key => max (base.tempsEnd 0) (key.tempsEnd 0)
  | .field base _ => base.tempsEnd 0

end Target

/-! ## Statements -/

mutual

/-- Fills in the slots and stages of a statement at a place with the given scope. The start value of
a definition does not see the definition. -/
def Stmt.layout (scope : Scope) : Stmt → Stmt
  | .define name ty init? _ =>
    .define name ty (init?.map (·.layout scope.slot? 0)) (some scope.next)
  | .assign targets value =>
    .assign (targets.map (·.layout scope.slot?)) (value.layout scope.slot? 0)
  | .branch cond yes no =>
    .branch (cond.layout scope.slot? 0) (layoutBlock scope yes)
      (layoutBlock (scope.skip (definedTypesIn yes).length) no)
  | .loop cond body => .loop (cond.layout scope.slot? 0) (layoutBlock scope body)
  | .leave => .leave
  | .next => .next
  | .result values => .result (values.map (·.layout scope.slot? 0))
  | .run e => .run (e.layout scope.slot? 0)
  | .block body => .block (layoutBlock scope body)

/-- Fills in the slots and stages of the statements of a block. -/
def layoutBlock (scope : Scope) : List Stmt → List Stmt
  | [] => []
  | s :: ss => s.layout scope :: layoutBlock (s.scopeAfter scope) ss

end

mutual

/-- The variables in a statement that mean nothing, in the order they are met. -/
def Stmt.unbound (scope : Scope) : Stmt → List String
  | .define _ _ init? _ =>
    match init? with
    | some init => init.unbound scope.slot?
    | none => []
  | .assign targets value =>
    value.unbound scope.slot? ++ targets.flatMap (·.unbound scope.slot?)
  | .branch cond yes no =>
    cond.unbound scope.slot? ++ (unboundInBlock scope yes ++
      unboundInBlock (scope.skip (definedTypesIn yes).length) no)
  | .loop cond body => cond.unbound scope.slot? ++ unboundInBlock scope body
  | .leave => []
  | .next => []
  | .result values => values.flatMap (·.unbound scope.slot?)
  | .run e => e.unbound scope.slot?
  | .block body => unboundInBlock scope body

/-- The variables in a block that mean nothing. -/
def unboundInBlock (scope : Scope) : List Stmt → List String
  | [] => []
  | s :: ss => s.unbound scope ++ unboundInBlock (s.scopeAfter scope) ss

end

mutual

/-- The end of the temporary slots of a statement. -/
def Stmt.tempsEnd : Stmt → Nat
  | .define _ _ init? _ =>
    match init? with
    | some init => init.tempsEnd 0
    | none => 0
  | .assign targets value => max (value.tempsEnd 0) (tempsEndOfTargets targets)
  | .branch cond yes no => max (cond.tempsEnd 0) (max (tempsEndOfBlock yes) (tempsEndOfBlock no))
  | .loop cond body => max (cond.tempsEnd 0) (tempsEndOfBlock body)
  | .leave => 0
  | .next => 0
  | .result values => tempsEndOfEach 0 values
  | .run e => e.tempsEnd 0
  | .block body => tempsEndOfBlock body

/-- The end of the temporary slots of a block. -/
def tempsEndOfBlock : List Stmt → Nat
  | [] => 0
  | s :: ss => max s.tempsEnd (tempsEndOfBlock ss)

/-- The end of the temporary slots of several targets. -/
def tempsEndOfTargets : List Target → Nat
  | [] => 0
  | t :: ts => max t.tempsEnd (tempsEndOfTargets ts)

end

/-! ## Functions -/

/-- The names of parameters that an earlier parameter has; `seen` are the names before `params`. -/
def repeatedParams (seen : List String) : List Param → List String
  | [] => []
  | p :: ps =>
    if seen.contains p.name then p.name :: repeatedParams seen ps
    else repeatedParams (p.name :: seen) ps

/-- What is wrong with the names of a function. -/
def nameErrors (params : List Param) (body : List Stmt) : List Diagnostic :=
  (repeatedParams [] params).map .duplicateParam ++
    (unboundInBlock (Scope.ofParams params) body).map .undefinedVariable

/-- The slots of a function: those of its parameters, then those of its definitions. -/
def layoutOf (params : List Param) (body : List Stmt) : Layout :=
  ⟨params.map (·.ty) ++ definedTypesIn body, tempsEndOfBlock body⟩

/-- The layout of a function and its laid out body, which shares a scope with the parameters; or
everything that is wrong with its names. -/
def layOut (params : List Param) (body : List Stmt) :
    Except (List Diagnostic) (Layout × List Stmt) :=
  match nameErrors params body with
  | [] => .ok (layoutOf params body, layoutBlock (Scope.ofParams params) body)
  | errors => .error errors

end FrameScript
