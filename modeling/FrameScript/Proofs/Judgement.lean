import FrameScript.Proofs.Keeps
import FrameScript.Proofs.Run
import FrameScript.Proofs.Slots
import FrameScript.Proofs.Subterms

set_option autoImplicit false

/-!
# Judgements on bodies

A discipline says what the places of a run may hold. What a body stores there it has evaluated
before, so to keep a discipline something has to be known of the values of its expressions. A
judgement says which values these are, and a judgement is sound if it follows the rules by which
bodies evaluate, and if what it says of the value of an expression is enough for the place the value
goes to.

## Main definitions

* `Discipline.Binds` — values that are bound to places of a type without harm.
* `Judgement` — what may stand in a body, and what its expressions may evaluate to.
* `Judgement.Sound` — the rules a judgement has to follow.
* `Code.HandsOver` — bodies whose calls hand over what callers may, as far as a judgement knows.

## Design

A rule has no more premises than what evaluation knows when it needs the rule, and speaks of one
node and the values of its parts. So the induction over bodies is done once, for all judgements.
-/

namespace FrameScript

/-! ## Forms -/

/-- The type that a literal or a new object has by its form. -/
def Expr.ownType? : Expr → Option Ty
  | .int _ => some .int
  | .float _ => some .float
  | .bool _ => some .boolean
  | .str _ => some .string
  | .null => some (.ref .null)
  | .json _ => some (.ref .json)
  | .xml _ => some (.ref .xml)
  | .array elem _ => some (.arrayOf elem)
  | .map _ => some (.ref .map)
  | .struct name _ => some (.ref (.struct name))
  | .connector name _ => some (.ref (.connector name))
  | .message _ => some (.ref .message)
  | _ => none

/-- The statements inside a slotted statement are slotted. -/
theorem Stmt.Slotted.inner {slots : List Ty} {s s' : Stmt} (h : s.Slotted slots)
    (hs : s' ∈ s.inner) : s'.Slotted slots := by
  cases s with
  | branch cond yes no =>
    simp only [Stmt.Slotted] at h
    exact (List.mem_append.mp hs).elim (BlockSlotted.of_mem h.1) (BlockSlotted.of_mem h.2)
  | loop cond body =>
    simp only [Stmt.Slotted] at h
    exact BlockSlotted.of_mem h hs
  | block body =>
    simp only [Stmt.Slotted] at h
    exact BlockSlotted.of_mem h hs
  | _ => cases hs

/-! ## Values on their way into places -/

namespace Discipline

variable (D : Discipline)

/-- Whatever is stored when the value is bound to a place of the type, the place may hold it. -/
def Binds (ty : Ty) (v : Value) : Prop :=
  ∀ w, v.bind ty = .ok w → D.Holds ty w

/-- Each value may be bound to the place of its number, if there is such a place. -/
def BindsAll (tys : List Ty) (vs : List Value) : Prop :=
  ∀ (i : Nat) ty v, tys[i]? = some ty → vs[i]? = some v → D.Binds ty v

/-- What reading an element may yield, by the container. -/
inductive Element (key : Value) : Value → Value → Prop
  /-- Arrays hold what their element type admits. -/
  | array {elem : Ty} {id : Nat} {v : Value} (h : D.Holds elem v) : Element key (.array elem id) v
  /-- Maps hold anything. -/
  | map {id : Nat} {v : Value} : Element key (.map id) v
  /-- Documents have parts. -/
  | document {doc : Json} : Element key (.json doc) (documentPart doc key)

/-- What reading a field may yield, by what the field is one of. -/
inductive Member (p : Program) (name : String) : Value → Value → Prop
  /-- Structs hold what the types of their fields admit. -/
  | struct {struct : String} {id : Nat} {decl : StructDecl} {ty : Ty} {v : Value}
    (hdecl : p.struct? struct = some decl) (hty : decl.fieldType? name = some ty)
    (h : D.Holds ty v) : Member p name (.struct struct id) v
  /-- Connectors hold what they were built from. -/
  | connector {connector : String} {id i : Nat} {args : List Value} {v : Value}
    (hi : ((p.connectorParams? connector).getD []).findIdx? (·.name == name) = some i)
    (hbuilds : D.Builds p connector args) (hv : args[i]? = some v) :
    Member p name (.connector connector id) v
  /-- Documents have members. -/
  | document {doc : Json} : Member p name (.json doc) (documentPart doc (.str name))

variable {D} {t : HeapTyping}

/-- The default of a type may be bound to its places. -/
theorem binds_default (D : Discipline) (ty : Ty) : D.Binds ty ty.default := by
  intro w hw
  have hsame : ty.default.declaredAs ty = ty.default := by
    cases ty with
    | ref r => cases r <;> rfl
    | _ => rfl
  unfold Value.bind at hw
  split at hw
  · cases hw
  · cases hw
    rw [hsame]
    exact D.default ty

/-- A bound value may be held by the place it is bound to, if there is one. -/
theorem places_of_bindAs {ty? : Option Ty} {v w : Value} (hv : t.Knows v)
    (hbinds : ∀ ty, ty? = some ty → D.Binds ty v) (h : bindAs ty? v = .ok w) :
    t.Knows w ∧ ∀ ty, ty? = some ty → D.Places t ty w := by
  cases ty? with
  | none =>
    cases h
    exact ⟨hv, nofun⟩
  | some ty =>
    have hknows : t.Knows w := hv.of_bind h
    refine ⟨hknows, fun ty' hty' => ?_⟩
    cases hty'
    exact ⟨hknows, hbinds ty rfl w h⟩

/-- The first of values for the places from one on may be bound to that one. -/
theorem BindsAll.first {tys : List Ty} {index : Nat} {v : Value} {vs : List Value}
    (h : D.BindsAll (tys.drop index) (v :: vs)) : ∀ ty, tys[index]? = some ty → D.Binds ty v := by
  intro ty hty
  refine h 0 ty v ?_ rfl
  rw [List.getElem?_drop, Nat.add_zero]
  exact hty

/-- The values behind the first are for the places behind it. -/
theorem BindsAll.rest {tys : List Ty} {index : Nat} {v : Value} {vs : List Value}
    (h : D.BindsAll (tys.drop index) (v :: vs)) : D.BindsAll (tys.drop (index + 1)) vs := by
  intro i ty w hty hw
  refine h (i + 1) ty w ?_ hw
  rw [List.getElem?_drop] at hty ⊢
  rwa [← Nat.add_assoc, Nat.add_right_comm]

/-- Values that may be bound one by one, to as many places. -/
theorem bindsAll_of_forall₂ {tys : List Ty} {vs : List Value}
    (h : List.Forall₂ D.Binds tys vs) : D.BindsAll tys vs := by
  intro i ty v hty hv
  obtain ⟨ty', hty', hbinds⟩ := forall₂_getElem? h hv
  obtain rfl : ty' = ty := Option.some.inj (hty'.symm.trans hty)
  exact hbinds

/-- Values that may be handed over one by one, for as many parameters. -/
theorem handsAll_of_forall₂ {tys : List Ty} {vs : List Value} (h : List.Forall₂ D.Hands tys vs) :
    D.HandsAll tys vs := by
  intro i ty v hty hv
  obtain ⟨ty', hty', hhands⟩ := forall₂_getElem? h hv
  obtain rfl : ty' = ty := Option.some.inj (hty'.symm.trans hty)
  exact hhands

end Discipline

/-! ## Judgements -/

/-- What may stand in a body, and what is known of it. -/
structure Judgement where
  /-- The expressions that may occur. -/
  Admits : Expr → Prop
  /-- The values that an expression may have. -/
  Yields : Expr → Value → Prop
  /-- The lists of values that an expression may have where all its values count. -/
  YieldsAll : Expr → List Value → Prop
  /-- The values that may be assigned to a target. -/
  Takes : Target → Value → Prop
  /-- The statements that may occur. -/
  Runs : Stmt → Prop

namespace Judgement

variable (J : Judgement) (D : Discipline) (p : Program) (f : Function)

/-- The rules of expressions. -/
structure SoundOnExprs : Prop where
  part : ∀ {e x}, J.Admits e → x ∈ e.parts → J.Admits x
  own : ∀ {e v}, J.Admits e → e.ownType? = some v.ty → J.Yields e v
  var : ∀ {x slot ty v}, J.Admits (.var x) → x.slot? = some slot →
    f.layout.slots[slot]? = some ty → D.Holds ty v → J.Yields (.var x) v
  item : ∀ {elem items e v}, J.Admits (.array elem items) → e ∈ items → J.Yields e v →
    D.Binds elem v
  given : ∀ {name fields field e decl ty v}, J.Admits (.struct name fields) →
    (field, e) ∈ fields → p.struct? name = some decl → decl.fieldType? field = some ty →
    J.Yields e v → D.Binds ty v
  built : ∀ {name args vs}, J.Admits (.connector name args) → List.Forall₂ J.Yields args vs →
    D.Builds p name vs
  element : ∀ {base key container k v}, J.Admits (.index base key) → J.Yields base container →
    D.Element k container v → J.Yields (.index base key) v
  member : ∀ {base name target v}, J.Admits (.field base name) → J.Yields base target →
    D.Member p name target v → J.Yields (.field base name) v
  unary : ∀ {op e v w}, J.Admits (.unary op e) → J.Yields e v → op.apply v = .ok w →
    J.Yields (.unary op e) w
  decided : ∀ {op left right l v}, J.Admits (.binary op left right) →
    shortCircuit? op l = some v → J.Yields (.binary op left right) v
  binary : ∀ {op left right h l r v}, J.Admits (.binary op left right) → J.Yields left l →
    J.Yields right r → BinaryOp.apply h op l r = .ok v → J.Yields (.binary op left right) v
  cast : ∀ {e ty} {v w : Value}, J.Admits (.cast e ty) → v.cast ty = .ok w → J.Yields (.cast e ty) w
  call : ∀ {callee args stage unit vs}, J.Admits (.call callee args stage) →
    p.resolve callee = .ok unit → List.Forall₂ D.Holds unit.sig.returns vs →
    J.YieldsAll (.call callee args stage) vs
  action : ∀ {target name args stage connector id unit vs},
    J.Admits (.action target name args stage) → J.Yields target (.connector connector id) →
    p.resolve (connector ++ "." ++ name) = .ok unit →
    List.Forall₂ D.Holds unit.sig.returns vs → J.YieldsAll (.action target name args stage) vs
  first : ∀ {e v vs}, J.Admits e → J.YieldsAll e (v :: vs) → J.Yields e v
  only : ∀ {e v}, e.isCall = false → J.Yields e v → J.YieldsAll e [v]

/-- The rules of assignments. -/
structure SoundOnTargets : Prop where
  target : ∀ {target v e}, J.Takes target v → e ∈ target.parts → J.Admits e
  slot : ∀ {x v slot ty}, J.Takes (.var x) v → x.slot? = some slot →
    f.layout.slots[slot]? = some ty → D.Binds ty v
  item : ∀ {base key v elem id}, J.Takes (.index base key) v → J.Yields base (.array elem id) →
    D.Binds elem v
  field : ∀ {base name v struct id decl ty}, J.Takes (.field base name) v →
    J.Yields base (.struct struct id) → p.struct? struct = some decl →
    decl.fieldType? name = some ty → D.Binds ty v

/-- The rules of statements. -/
structure SoundOnStmts : Prop where
  body : ∀ s ∈ f.body, J.Runs s
  expr : ∀ {s e}, J.Runs s → e ∈ s.exprs → J.Admits e
  inner : ∀ {s s'}, J.Runs s → s' ∈ s.inner → J.Runs s'
  place : ∀ {name ty init? slot?}, J.Runs (.define name ty init? slot?) →
    ∃ slot, slot? = some slot ∧ f.layout.slots[slot]? = some ty
  start : ∀ {name ty init slot? v}, J.Runs (.define name ty (some init) slot?) →
    J.Yields init v → D.Binds ty v
  assigned : ∀ {target value v}, J.Runs (.assign [target] value) → J.Yields value v →
    J.Takes target v
  assignedAll : ∀ {targets value vs}, J.Runs (.assign targets value) → targets.length ≠ 1 →
    J.YieldsAll value vs → vs.length = targets.length → List.Forall₂ J.Takes targets vs
  returns : ∀ {values vs}, J.Runs (.result values) →
    (values.length = 1 → f.sig.returns.length < 2) → List.Forall₂ J.Yields values vs →
    D.BindsAll f.sig.returns vs
  returnsAll : ∀ {value vs}, J.Runs (.result [value]) → 2 ≤ f.sig.returns.length →
    J.YieldsAll value vs → D.BindsAll f.sig.returns vs

/-- The judgement on the body of a function follows the rules by which bodies run, and gives the
places of the program what the discipline asks for. -/
structure Sound : Prop where
  exprs : J.SoundOnExprs D p f
  targets : J.SoundOnTargets D p f
  stmts : J.SoundOnStmts D f

end Judgement

/-! ## Calls -/

section Calls

variable (D : Discipline) (J : Judgement) (p : Program) (code : Code)

/-- What the body stages for its calls and takes out again is what callers may hand over, if the
arguments evaluate to what the judgement says. -/
structure Code.HandsOver : Prop where
  called : ∀ {callee args stage unit rest}, J.Admits (.call callee args stage) →
    p.resolve callee = .ok unit →
    Ensures D p (code.function.sig.qualifiedName :: rest) (evalArgs code args)
      (List.Forall₂ J.Yields args) →
    Ensures D p (code.function.sig.qualifiedName :: rest)
      (do stageArgs code stage args; takeStaged stage args.length) (D.HandsAll unit.sig.paramTypes)
  acted : ∀ {target name args stage connector id unit rest},
    J.Admits (.action target name args stage) → J.Yields target (.connector connector id) →
    p.resolve (connector ++ "." ++ name) = .ok unit →
    Ensures D p (code.function.sig.qualifiedName :: rest) (evalArgs code args)
      (List.Forall₂ J.Yields args) →
    Ensures D p (code.function.sig.qualifiedName :: rest)
      (do
        Exec.setTemp stage (.connector connector id)
        stageArgs code (stage + 1) args
        takeStaged stage (args.length + 1)) (D.HandsAll unit.sig.paramTypes)

/-- A body under way whose calls hand over what callers may, and keep the discipline then. -/
structure Code.KeepsBy : Prop extends code.Keeps D p, code.HandsOver D J p

variable {D J p code}

/-- If callers may hand over anything, all bodies do what they may. -/
theorem Code.HandsOver.of_all (h : ∀ ty v, D.Hands ty v) : code.HandsOver D J p where
  called _ _ _ _ _ _ _ _ _ := fun _ ty v _ _ => h ty v
  acted _ _ _ _ _ _ _ _ _ _ := fun _ ty v _ _ => h ty v

end Calls

end FrameScript
