import FrameScript.Check.Program
import FrameScript.Proofs.Judgement

set_option autoImplicit false

/-!
# What is written in a program

The types written in a program, the expressions for which the analysis infers the top type, and the
places where values of these expressions are stored.

## Main definitions

* `Ty.mentionsAny`, `Program.writtenTypes` — the top type, and the types written in a program.
* `Checker.Pins`, `Function.ConfinesAny`, `Program.ConfinesAny` — the top type is inferred for the
  operands of conversions only.
* `Expr.stores`, `Stmt.stores`, `Target.isTyped` — the places that values are stored in without a
  test of their type.
* `Function.GuardsAny`, `Program.GuardsAny` — values of the top type are stored under that type
  only, and nothing is assigned through an expression of the top type or an array of it.
-/

namespace FrameScript

/-! ## Written types -/

mutual

/-- Whether the top type occurs in a type. -/
def Ty.mentionsAny : Ty → Bool
  | .any => true
  | .ref r => r.mentionsAny
  | _ => false

/-- Whether the top type occurs in a reference type. -/
def RefTy.mentionsAny : RefTy → Bool
  | .array elem => elem.mentionsAny
  | _ => false

end

/-- The types that an expression spells out. -/
def Expr.ownTypes : Expr → List Ty
  | .array elem _ => [elem]
  | .cast _ target => [target]
  | _ => []

/-- The types written in a function: those of its parameters and variables, those of its results,
and those in its body. -/
def Function.writtenTypes (f : Function) : List Ty :=
  f.layout.slots ++ f.sig.returns ++ f.exprs.flatMap (·.ownTypes)

/-- The types written in a program. -/
def Program.writtenTypes (p : Program) : List Ty :=
  p.structs.flatMap (fun (_, decl) => decl.fields.map (·.ty)) ++
    p.connectors.flatMap (fun (_, params) => params.map (·.ty)) ++
      p.functions.flatMap (·.writtenTypes)

/-! ## Inferred types -/

/-- The analysis of a function of a program. -/
abbrev Function.checker (p : Program) (f : Function) : Checker :=
  Checker.ofFunction p f false

/-- The analysis infers the top type for no value of the expression. -/
def Checker.Pins (c : Checker) (e : Expr) : Prop :=
  .any ∉ (e.inferAll c).1

instance (c : Checker) (e : Expr) : Decidable (c.Pins e) :=
  inferInstanceAs (Decidable (_ ∉ _))

/-- Whether an expression is a conversion. -/
def Expr.isCast : Expr → Bool
  | .cast _ _ => true
  | _ => false

/-- The analysis infers the top type in the function for the operands of conversions only: neither
for an expression of a statement nor for a part of an expression that is no conversion. -/
def Function.ConfinesAny (p : Program) (f : Function) : Prop :=
  (∀ e ∈ f.topExprs, (Checker.ofFunction p f false).Pins e) ∧
    ∀ e ∈ f.exprs, e.isCast = false → ∀ x ∈ e.parts, (Checker.ofFunction p f false).Pins x

instance (p : Program) (f : Function) : Decidable (f.ConfinesAny p) :=
  inferInstanceAs (Decidable (_ ∧ _))

/-- The top type is neither written in the program nor inferred in any of its functions for anything
but operands of conversions. -/
def Program.ConfinesAny (p : Program) : Prop :=
  (∀ ty ∈ p.writtenTypes, ty.mentionsAny = false) ∧ ∀ f ∈ p.functions, f.ConfinesAny p

instance (p : Program) : Decidable p.ConfinesAny :=
  inferInstanceAs (Decidable (_ ∧ _))

/-! ## Stores -/

/-- The types of the places that the values of the parts of an expression are stored in without a
test, each with the type that is inferred for the value. -/
def Expr.stores (c : Checker) : Expr → List (Ty × Ty)
  | .array elem items => items.map fun e => (elem, (e.infer c).1)
  | .struct name fields => fields.filterMap fun entry =>
    ((c.program.struct? name).bind (·.fieldType? entry.1)).map (·, (entry.2.infer c).1)
  | .connector name args =>
    (((c.program.connectorParams? name).getD []).map (·.ty)).zip (args.map fun e => (e.infer c).1)
  | _ => []

/-- The types of the places that the values of the expressions of a statement are stored in, each
with the type that is inferred for the value. -/
def Stmt.stores (c : Checker) (returns : List Ty) : Stmt → List (Ty × Ty)
  | .define _ ty (some init) _ => [(ty, (init.infer c).1)]
  | .assign [target] value => [((target.infer c).1, (value.infer c).1)]
  | .assign targets value => (targets.map fun target => (target.infer c).1).zip (value.inferAll c).1
  | .result values =>
    match values, returns with
    | [single], _ :: _ :: _ => returns.zip (single.inferAll c).1
    | values, returns => returns.zip (values.map fun e => (e.infer c).1)
  | _ => []

/-- The targets of an assignment. -/
def Stmt.targets : Stmt → List Target
  | .assign targets _ => targets
  | _ => []

/-- An assignment to the target does not go through an expression of the top type or an array of
it. -/
def Target.isTyped (c : Checker) : Target → Bool
  | .var _ => true
  | .index base _ | .field base _ => (base.infer c).1 != .any && (base.infer c).1 != .arrayOf .any

/-- In the function values of the top type are stored in places of the top type only, and nothing is
assigned through an expression of the top type or an array of it. -/
structure Function.GuardsAny (p : Program) (f : Function) : Prop where
  parts : ∀ e ∈ f.exprs, ∀ store ∈ e.stores (f.checker p), store.2 = .any → store.1 = .any
  stmts : ∀ s ∈ statementsOf f.body, ∀ store ∈ s.stores (f.checker p) f.sig.returns,
    store.2 = .any → store.1 = .any
  targets : ∀ s ∈ statementsOf f.body, ∀ target ∈ s.targets, target.isTyped (f.checker p) = true

instance (p : Program) (f : Function) : Decidable (f.GuardsAny p) :=
  decidable_of_iff (_ ∧ _ ∧ _) ⟨fun ⟨parts, stmts, targets⟩ => ⟨parts, stmts, targets⟩,
    fun h => ⟨h.parts, h.stmts, h.targets⟩⟩

/-- In all functions of the program values of the top type are stored in places of the top type
only, and nothing is assigned through an expression of the top type or an array of it. -/
def Program.GuardsAny (p : Program) : Prop :=
  ∀ f ∈ p.functions, f.GuardsAny p

instance (p : Program) : Decidable p.GuardsAny :=
  inferInstanceAs (Decidable (∀ f ∈ p.functions, f.GuardsAny p))

end FrameScript
