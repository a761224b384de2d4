import FrameScript.Proofs.Inference
import FrameScript.Proofs.Loading

set_option autoImplicit false

/-!
# Programs without the top type

If the top type is not written in a program, the analysis infers no type that mentions it other than
the top type itself. So a program that confines the top type to operands of conversions has nothing
to guard: nothing of the top type is stored, and nothing is assigned through it.

## Main definitions

* `Checker.AnyFree` — the top type is not declared anywhere.

## Main results

* `Expr.infer_mentionsAny` — the top type does not occur inside of inferred types.
* `Program.ConfinesAny.guardsAny` — programs that confine the top type guard it.
-/

namespace FrameScript

open Checker

/-! ## Inferred types -/

/-- The top type is not declared anywhere. -/
structure Checker.AnyFree (c : Checker) : Prop where
  slots : ∀ ty ∈ c.slots, ty.mentionsAny = false
  fields : ∀ name decl field ty, c.program.struct? name = some decl →
    decl.fieldType? field = some ty → ty.mentionsAny = false
  params : ∀ name params, c.program.connectorParams? name = some params →
    ∀ param ∈ params, param.ty.mentionsAny = false
  returns : ∀ name unit, c.program.find? name = some unit →
    ∀ ty ∈ unit.sig.returns, ty.mentionsAny = false

/-- What is inferred is the top type itself, or the top type does not occur in it. -/
theorem Expr.infer_mentionsAny {c : Checker} (hc : c.AnyFree) (e : Expr)
    (he : ∀ x ∈ e.subterms, ∀ ty ∈ x.ownTypes, ty.mentionsAny = false) :
    (e.infer c).1 = .any ∨ (e.infer c).1.mentionsAny = false := by
  have hfirst {callee : String} {inferred : List Ty × List Diagnostic}
      (h : inferred.1 = [.any] ∨ ∀ ty ∈ inferred.1, ty.mentionsAny = false) :
      (firstType callee inferred).1 = .any ∨
        (firstType callee inferred).1.mentionsAny = false := by
    unfold firstType
    split
    next ty tys htys =>
      rcases h with hany | hall
      · rw [hany] at htys
        cases htys
        exact .inl rfl
      · exact .inr (hall ty (htys ▸ List.mem_cons_self))
    · exact .inl rfl
  cases e with
  | int | float | bool | str | null | json | xml | map | struct | connector | message =>
    exact .inr rfl
  | var v =>
    simp only [Expr.infer, slotType]
    split
    next slot _ =>
      rcases hty : c.slots[slot]? with _ | ty
      · exact .inl rfl
      · exact .inr (hc.slots ty (List.mem_of_getElem? hty))
    · exact .inl rfl
  | array elem items => exact .inr (he _ List.mem_cons_self elem (List.mem_singleton_self _))
  | cast operand target =>
    exact .inr (he _ List.mem_cons_self target (List.mem_singleton_self _))
  | index base key =>
    have hbase := Expr.infer_mentionsAny hc base fun y hy =>
      he y (Expr.mem_subterms (by simp [Expr.parts]) hy)
    simp only [Expr.infer, indexType]
    split
    next elem hty =>
      rw [hty] at hbase
      exact .inr (hbase.resolve_left (by simp))
    · exact .inl rfl
    · exact .inr rfl
    · exact .inl rfl
    · exact .inl rfl
  | field base name =>
    simp only [Expr.infer, fieldType]
    split
    · split
      · exact .inl rfl
      next decl hdecl =>
        split
        next ty hty => exact .inr (hc.fields _ decl name ty hdecl hty)
        · exact .inl rfl
    next connector _ =>
      split
      next param hparam =>
        have hmem := List.mem_of_find?_eq_some hparam
        rcases hparams : c.program.connectorParams? connector with _ | params
        · rw [hparams] at hmem
          cases hmem
        · rw [hparams] at hmem
          exact .inr (hc.params connector params hparams param hmem)
      · exact .inl rfl
    · exact .inr rfl
    · exact .inl rfl
    · exact .inl rfl
  | unary op operand =>
    have hoperand := Expr.infer_mentionsAny hc operand fun y hy =>
      he y (Expr.mem_subterms (by simp [Expr.parts]) hy)
    simp only [Expr.infer, unaryType]
    split
    · exact .inl rfl
    · cases op with
      | not => exact .inr rfl
      | neg => exact hoperand
  | binary op left right =>
    simp only [Expr.infer, binaryType, arithmeticType]
    repeat' split
    all_goals first
      | exact .inl rfl
      | exact .inr rfl
  | call callee args stage =>
    rw [Expr.infer_call]
    refine hfirst ?_
    simp only [Expr.inferAll, callTypes]
    split
    · exact .inl rfl
    next unit hunit => exact .inr (hc.returns callee unit hunit)
  | action target name args stage =>
    rw [Expr.infer_action]
    refine hfirst ?_
    simp only [Expr.inferAll, actionTypes]
    split
    · split
      · exact .inl rfl
      next unit hunit => exact .inr (hc.returns _ unit hunit)
    · exact .inl rfl
    · exact .inl rfl

/-! ## Programs -/

/-- The units of the standard library return nothing of the top type. -/
theorem Library.returns_anyFree {package : NativePackage} (hpackage : package ∈ packages)
    {u : NativeUnit} (hu : u ∈ package.units) : ∀ ty ∈ u.sig.returns, ty.mentionsAny = false := by
  have h : ∀ package ∈ packages, ∀ u ∈ package.units,
      u.sig.returns.all (!·.mentionsAny) = true := by decide
  simpa using h package hpackage u hu

namespace Program

variable {p : Program} {f : Function}

/-- Nothing is found in the body of a function of a program in which nothing is found. -/
theorem checkBlock_clean (hcheck : p.check = []) (hf : f ∈ p.functions) :
    checkBlock (f.checker p) f.sig.returns false f.body = [] := by
  have h : f.check p = [] := List.flatMap_eq_nil_iff.mp hcheck f hf
  exact List.map_eq_nil_iff.mp h

/-- If the top type is not written in a linked program, then no declaration mentions it. -/
theorem anyFree_of_written (hp : p.Linked Library.standard)
    (hwritten : ∀ ty ∈ p.writtenTypes, ty.mentionsAny = false) (hf : f ∈ p.functions) :
    (f.checker p).AnyFree where
  slots ty hty := by
    refine hwritten ty (List.mem_append_right _ (List.mem_flatMap.mpr ⟨f, hf, ?_⟩))
    exact List.mem_append_left _ (List.mem_append_left _ hty)
  fields struct decl field ty hdecl hty := by
    refine hwritten ty (List.mem_append_left _ (List.mem_append_left _ ?_))
    obtain ⟨param, hparam, rfl⟩ := Option.map_eq_some_iff.mp hty
    exact List.mem_flatMap.mpr ⟨_, Dict.mem_of_find? hdecl,
      List.mem_map_of_mem (List.mem_of_find?_eq_some hparam)⟩
  params connector params hparams param hparam := by
    refine hwritten _ (List.mem_append_left _ (List.mem_append_right _ ?_))
    exact List.mem_flatMap.mpr ⟨_, Dict.mem_of_find? hparams, List.mem_map_of_mem hparam⟩
  returns callee unit hunit ty hty := by
    cases unit with
    | function g =>
      refine hwritten ty (List.mem_append_right _ (List.mem_flatMap.mpr
        ⟨g, mem_functions hunit, ?_⟩))
      exact List.mem_append_left _ (List.mem_append_right _ hty)
    | native u =>
      obtain ⟨package, hpackage, hmem⟩ := hp.mem_packages hunit
      exact Library.returns_anyFree hpackage hmem ty hty

/-- A type that an expression of a function spells out is written in the program. -/
theorem mem_writtenTypes (hf : f ∈ p.functions) {e : Expr} (he : e ∈ f.exprs) {ty : Ty}
    (hty : ty ∈ e.ownTypes) : ty ∈ p.writtenTypes := by
  refine List.mem_append_right _ (List.mem_flatMap.mpr ⟨f, hf, List.mem_append_right _ ?_⟩)
  exact List.mem_flatMap.mpr ⟨e, he, hty⟩

/-- In a program that confines the top type, and in which nothing is found, it is known which
connector an action is called on. -/
theorem ConfinesAny.isDynamic_eq_false (h : p.ConfinesAny) (hcheck : p.check = [])
    (hf : f ∈ p.functions) {e : Expr} (he : e ∈ f.exprs) : e.isDynamic (f.checker p) = false := by
  cases e with
  | action target name args stage =>
    have hclean := Function.exprs_clean (checkBlock_clean hcheck hf) _ he
    have htarget : target ∈ (Expr.action target name args stage).parts := List.mem_cons_self
    have hne := ((h.2 f hf).2 _ he rfl target htarget).infer_ne_any
      (Expr.parts_clean hclean target htarget)
    simpa [Expr.isDynamic] using hne
  | _ => rfl

/-- **Programs that confine the top type guard it**, if nothing is found in them.

**Proof sketch.** What is stored has a type that is inferred for an expression other than the
operand of a conversion, and that type is not the top type. What an assignment goes through has such
a type, too, in which the top type does not occur because it is not written anywhere. -/
theorem ConfinesAny.guardsAny (hp : p.Linked Library.standard) (hcheck : p.check = [])
    (h : p.ConfinesAny) : p.GuardsAny := by
  intro f hf
  obtain ⟨htop, hparts⟩ := h.2 f hf
  have hclean := checkBlock_clean hcheck hf
  have hstmts := statementsOf_clean hclean
  have hne {x : Expr} {ty : Ty} (hx : (f.checker p).Pins x)
      (hty : ty ∈ (x.inferAll (f.checker p)).1) : ty ≠ .any := by
    rintro rfl
    exact hx hty
  refine ⟨fun e he store hstore hany => ?_, fun s hs store hstore hany => ?_,
    fun s hs target htarget => ?_⟩
  · obtain ⟨hcast, x, hx, hty⟩ := Expr.inferred_of_stores (Function.exprs_clean hclean e he) hstore
    exact absurd hany (hne (hparts e he hcast x hx) hty)
  · obtain ⟨_, hs'⟩ := hstmts s hs
    obtain ⟨x, hx, hty⟩ := Stmt.inferred_of_stores hs' hstore
    exact absurd hany (hne (htop x (f.mem_topExprs hs hx)) hty)
  · obtain ⟨_, hs'⟩ := hstmts s hs
    have hbase {base : Expr} (hbase : base ∈ target.parts) :
        ((base.infer (f.checker p)).1 != .any &&
          (base.infer (f.checker p)).1 != .arrayOf .any) = true := by
      have hmem := f.mem_topExprs hs (Stmt.mem_exprs_of_target htarget hbase)
      have hne := (htop base hmem).infer_ne_any (Target.parts_clean
        (Stmt.targets_clean hs' target htarget) base hbase)
      have hfree := (Expr.infer_mentionsAny (anyFree_of_written hp h.1 hf) base fun x hx ty hty =>
        h.1 ty (mem_writtenTypes hf (List.mem_flatMap.mpr ⟨base, hmem, hx⟩) hty)).resolve_left hne
      rw [Bool.and_eq_true, bne_iff_ne, bne_iff_ne]
      refine ⟨hne, fun heq => ?_⟩
      rw [heq] at hfree
      cases hfree
    cases target with
    | var v => rfl
    | index base key => exact hbase List.mem_cons_self
    | field base name => exact hbase List.mem_cons_self

end Program

end FrameScript
