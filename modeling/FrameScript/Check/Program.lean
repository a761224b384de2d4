import FrameScript.Check.Infer

set_option autoImplicit false

/-!
# Checking programs

The analysis of statements, functions and programs. Everything that is found is collected; nothing
stops at the first finding.

## Main definitions

* `Target.infer` — the type of the place an assignment writes to.
* `Stmt.check` — the findings in a statement.
* `Function.check` — the findings in a function.
* `Program.check` — the findings in all functions, in ascending order of their qualified names.
-/

namespace FrameScript

open Checker

/-! ## Targets -/

/-- The type of the place a target stands for, and the findings in it. -/
def Target.infer (c : Checker) : Target → Ty × List Diagnostic
  | .var v => (c.slotType v.slot?, [])
  | .index base key => c.indexType (base.infer c) (key.infer c)
  | .field base name =>
    let (ty, found) := base.infer c
    let (fieldTy, more) := c.fieldType ty name
    (fieldTy, found ++ more)

/-! ## Statements -/

/-- The findings on all values of an expression in places of declared types; `mismatch` reports
different numbers of them. -/
def checkAll (c : Checker) (mismatch : Nat → Nat → Diagnostic) (expected : List Ty) (value : Expr) :
    List Diagnostic :=
  let (found, findings) := value.inferAll c
  findings ++
    if found.length != expected.length then [mismatch expected.length found.length]
    else c.compatibleAll findings expected found

/-- The findings in an assignment. -/
def checkAssign (c : Checker) (targets : List Target) (value : Expr) : List Diagnostic :=
  let places := targets.map (·.infer c)
  places.flatMap (·.2) ++
    match places with
    | [(ty, _)] => c.expecting ty (value.infer c)
    | places => checkAll c .assignmentCount (places.map (·.1)) value

/-- The findings in the values of a result. -/
def checkResult (c : Checker) (returns : List Ty) (values : List Expr) : List Diagnostic :=
  match values, returns with
  | [single], _ :: _ :: _ => checkAll c .returnCount returns single
  | values, returns =>
    if values.length != returns.length then [.returnCount returns.length values.length]
    else inferAgainst c returns values

mutual

/-- The findings in a statement of a function with the given results, inside a loop or not. -/
def Stmt.check (c : Checker) (returns : List Ty) (inLoop : Bool) : Stmt → List Diagnostic
  | .define _ ty init? _ =>
    match init? with
    | some init => c.expecting ty (init.infer c)
    | none => []
  | .assign targets value => checkAssign c targets value
  | .branch cond yes no =>
    c.expecting .boolean (cond.infer c) ++
      (checkBlock c returns inLoop yes ++ checkBlock c returns inLoop no)
  | .loop cond body =>
    c.expecting .boolean (cond.infer c) ++ checkBlock c returns true body
  | .leave => if inLoop then [] else [.strayJump]
  | .next => if inLoop then [] else [.strayJump]
  | .result values => checkResult c returns values
  | .run e => (e.inferAll c).2
  | .block body => checkBlock c returns inLoop body

/-- The findings in the statements of a block. -/
def checkBlock (c : Checker) (returns : List Ty) (inLoop : Bool) : List Stmt → List Diagnostic
  | [] => []
  | s :: ss => s.check c returns inLoop ++ checkBlock c returns inLoop ss

end

/-! ## Functions and programs -/

/-- The analysis of a function in a program. -/
def Checker.ofFunction (p : Program) (f : Function) (followUps : Bool) : Checker :=
  { program := p, slots := f.layout.slots, followUps }

/-- The findings in a function. With `followUps`, uses of an `any` that stems from another finding
are reported as well. -/
def Function.checkWith (p : Program) (f : Function) (followUps : Bool) : List SemanticError :=
  (checkBlock (Checker.ofFunction p f followUps) f.sig.returns false f.body).map (⟨f.sig.name, ·⟩)

/-- The findings in a function. -/
def Function.check (p : Program) (f : Function) : List SemanticError :=
  f.checkWith p false

/-- The findings in all functions of a program, in ascending order of their qualified names. -/
def Program.check (p : Program) : List SemanticError :=
  p.functions.flatMap (·.check p)

end FrameScript
