import FrameScript.Proofs.Written

set_option autoImplicit false

/-!
# Analyses that find nothing

What it means for the parts of an expression, target or statement that the analysis finds nothing
in the whole.

## Main results

* `Expr.parts_clean` — nothing is found in the parts of an expression in which nothing is found.
* `Stmt.exprs_clean`, `Stmt.inner_clean` — nothing is found in the expressions and the inner
  statements of a statement in which nothing is found.
-/

namespace FrameScript

open Checker

variable {c : Checker}

namespace Checker

/-! ## Places of declared types -/

/-- Nothing is found on a value for a place exactly if nothing is found in the value and its type
is compatible. -/
theorem expecting_eq_nil {expected : Ty} {inferred : Ty × List Diagnostic} :
    c.expecting expected inferred = [] ↔ inferred.2 = [] ∧ compatible expected inferred.1 = [] := by
  unfold expecting compatibleAfter
  rw [List.append_eq_nil_iff]
  refine and_congr_right fun h => ?_
  simp [h]

/-- A type other than the top type is compatible only with places that accept it. -/
theorem accepts_of_compatible {expected found : Ty} (h : compatible expected found = [])
    (hany : found ≠ .any) : expected.accepts found = true := by
  unfold compatible at h
  rw [if_neg (by intro hnull; simp [hnull] at h)] at h
  rw [if_neg (by simpa using hany)] at h
  by_contra haccepts
  simp [haccepts] at h

/-- Nothing is found on an argument only if nothing is found on it as a value for the parameter. -/
theorem expecting_of_argument {callee : String} {param : Ty} {inferred : Ty × List Diagnostic}
    (h : c.argument callee param inferred = []) : c.expecting param inferred = [] := by
  unfold argument at h
  split at h
  · simp at h
  · exact h

/-! ## Lists of expressions -/

theorem mem_inferEach {es : List Expr} (h : inferEach c es = []) :
    ∀ e ∈ es, (e.infer c).2 = [] := by
  induction es with
  | nil => simp
  | cons e es ih =>
    rw [inferEach, List.append_eq_nil_iff] at h
    exact List.forall_mem_cons.mpr ⟨h.1, ih h.2⟩

theorem mem_inferEntries {entries : List (String × Expr)} (h : inferEntries c entries = []) :
    ∀ e ∈ entries.map (·.2), (e.infer c).2 = [] := by
  induction entries with
  | nil => simp
  | cons entry entries ih =>
    rw [inferEntries, List.append_eq_nil_iff] at h
    exact List.forall_mem_cons.mpr ⟨h.1, ih h.2⟩

theorem mem_inferItems {elem : Ty} {es : List Expr} (h : inferItems c elem es = []) :
    ∀ e ∈ es, c.expecting elem (e.infer c) = [] := by
  induction es with
  | nil => simp
  | cons e es ih =>
    rw [inferItems, List.append_eq_nil_iff] at h
    exact List.forall_mem_cons.mpr ⟨h.1, ih h.2⟩

theorem mem_inferFields {decl : StructDecl} {fields : List (String × Expr)}
    (h : inferFields c decl fields = []) : ∀ entry ∈ fields,
      ∃ ty, decl.fieldType? entry.1 = some ty ∧ c.expecting ty (entry.2.infer c) = [] := by
  induction fields with
  | nil => simp
  | cons entry fields ih =>
    obtain ⟨name, e⟩ := entry
    rw [inferFields, List.append_eq_nil_iff] at h
    refine List.forall_mem_cons.mpr ⟨?_, ih h.2⟩
    rcases hty : decl.fieldType? name with _ | ty
    · simp [hty] at h
    · exact ⟨ty, rfl, by simpa only [hty] using h.1⟩

theorem forall₂_inferAgainst {tys : List Ty} {es : List Expr} (hlen : tys.length = es.length)
    (h : inferAgainst c tys es = []) :
    List.Forall₂ (fun ty e => c.expecting ty (e.infer c) = []) tys es := by
  induction es generalizing tys with
  | nil => rw [List.length_eq_zero_iff.mp hlen]; exact .nil
  | cons e es ih =>
    obtain _ | ⟨ty, tys⟩ := tys
    · cases hlen
    · rw [inferAgainst, List.append_eq_nil_iff] at h
      exact .cons h.1 (ih (by simpa using hlen) h.2)

theorem forall₂_inferArguments {callee : String} {tys : List Ty} {es : List Expr}
    (hlen : tys.length = es.length) (h : inferArguments c callee tys es = []) :
    List.Forall₂ (fun ty e => c.expecting ty (e.infer c) = []) tys es := by
  induction es generalizing tys with
  | nil => rw [List.length_eq_zero_iff.mp hlen]; exact .nil
  | cons e es ih =>
    obtain _ | ⟨ty, tys⟩ := tys
    · cases hlen
    · rw [inferArguments, List.append_eq_nil_iff] at h
      exact .cons (expecting_of_argument h.1) (ih (by simpa using hlen) h.2)

end Checker

/-- Nothing is found in values that nothing is found on in their places. -/
theorem mem_of_forall₂_expecting {tys : List Ty} {es : List Expr}
    (h : List.Forall₂ (fun ty e => c.expecting ty (e.infer c) = []) tys es) :
    ∀ e ∈ es, (e.infer c).2 = [] := by
  induction h with
  | nil => simp
  | cons hfirst _ ih => exact List.forall_mem_cons.mpr ⟨(expecting_eq_nil.mp hfirst).1, ih⟩

/-! ## Calls -/

/-- A call in which nothing is found has a known callee and an argument for every parameter. -/
theorem callTypes_clean {callee : String} {args : List Expr}
    (h : (c.callTypes callee args.length (inferEach c args) fun params =>
      inferArguments c callee params args).2 = []) :
    ∃ unit, c.program.find? callee = some unit ∧
      List.Forall₂ (fun ty e => c.expecting ty (e.infer c) = []) unit.sig.paramTypes args := by
  unfold callTypes at h
  split at h
  · simp at h
  next unit hunit =>
    obtain ⟨hcount, hargs⟩ := List.append_eq_nil_iff.mp h
    have hlen : unit.sig.paramTypes.length = args.length := by
      by_contra hne
      simp [argumentCount, hne] at hcount
    exact ⟨unit, hunit, forall₂_inferArguments hlen hargs⟩

/-- A call of an action in which nothing is found has clean arguments. If its connector is not of
the top type it has a known callee, and an argument for every parameter of it but the first. -/
theorem actionTypes_clean {target : Expr} {name : String} {args : List Expr}
    (h : (c.actionTypes (target.infer c) name args.length (inferEach c args)
      fun callee params => inferArguments c callee params args).2 = []) :
    (target.infer c).2 = [] ∧ (∀ e ∈ args, (e.infer c).2 = []) ∧
      ((target.infer c).1 ≠ .any → ∃ connector unit,
        (target.infer c).1 = .ref (.connector connector) ∧
        c.program.find? (connector ++ "." ++ name) = some unit ∧
        List.Forall₂ (fun ty e => c.expecting ty (e.infer c) = [])
          (unit.sig.paramTypes.drop 1) args) := by
  unfold actionTypes at h
  split at h
  next connector hty =>
    dsimp only at h
    split at h
    · simp at h
    next unit hunit =>
      obtain ⟨htarget, hrest⟩ := List.append_eq_nil_iff.mp h
      obtain ⟨hcount, hargs⟩ := List.append_eq_nil_iff.mp hrest
      have hlen : (unit.sig.paramTypes.drop 1).length = args.length := by
        by_contra hne
        simp only [argumentCount, beq_iff_eq, hne, if_false] at hcount
        cases hcount
      have hexpecting := forall₂_inferArguments hlen hargs
      exact ⟨htarget, mem_of_forall₂_expecting hexpecting,
        fun _ => ⟨connector, unit, hty, hunit, hexpecting⟩⟩
  next hty =>
    obtain ⟨htarget, hargs⟩ := List.append_eq_nil_iff.mp h
    exact ⟨htarget, mem_inferEach hargs, fun hany => absurd hty hany⟩
  · simp at h

/-- A call has the type of its first result. -/
theorem Expr.infer_call (callee : String) (args : List Expr) (stage : Nat) :
    (Expr.call callee args stage).infer c =
      firstType callee ((Expr.call callee args stage).inferAll c) := by
  simp only [Expr.infer, Expr.inferAll]

theorem Expr.infer_action (target : Expr) (name : String) (args : List Expr) (stage : Nat) :
    (Expr.action target name args stage).infer c =
      firstType actionName ((Expr.action target name args stage).inferAll c) := by
  simp only [Expr.infer, Expr.inferAll]

/-- An expression that is no call has the one type that is inferred for it. -/
theorem Expr.inferAll_of_not_isCall {e : Expr} (he : e.isCall = false) :
    e.inferAll c = ([(e.infer c).1], (e.infer c).2) := by
  cases e with
  | call | action => cases he
  | _ => rfl

/-- The type of an expression in the place of a value is the first of its types. -/
theorem Expr.infer_eq_of_inferAll {e : Expr} {ty : Ty} {tys : List Ty}
    (h : (e.inferAll c).1 = ty :: tys) : (e.infer c).1 = ty := by
  cases hcall : e.isCall with
  | false =>
    rw [Expr.inferAll_of_not_isCall hcall] at h
    cases h
    rfl
  | true =>
    cases e with
    | call callee args stage => rw [Expr.infer_call, firstType, h]
    | action target name args stage => rw [Expr.infer_action, firstType, h]
    | _ => cases hcall

/-- An action of what may be a connector of any type: nothing is known of its results. -/
def Expr.isDynamic (c : Checker) : Expr → Bool
  | .action target _ _ _ => (target.infer c).1 == .any
  | _ => false

theorem Expr.inferAll_of_isDynamic {e : Expr} (h : e.isDynamic c = true) :
    (e.inferAll c).1 = [.any] := by
  cases e with
  | action target name args stage =>
    have hany : (target.infer c).1 = .any := by simpa [Expr.isDynamic] using h
    simp only [Expr.inferAll, actionTypes, hany]
  | _ => cases h

/-- Nothing is found in an expression if nothing is found in it in the place of a value; then it has
a value. -/
theorem Expr.inferAll_clean {e : Expr} (h : (e.infer c).2 = []) :
    (e.inferAll c).2 = [] ∧ (e.infer c).1 ∈ (e.inferAll c).1 := by
  cases hcall : e.isCall with
  | false =>
    rw [Expr.inferAll_of_not_isCall hcall]
    exact ⟨h, List.mem_singleton_self _⟩
  | true =>
    rcases htys : (e.inferAll c).1 with _ | ⟨ty, tys⟩
    · cases e with
      | call callee args stage => simp [Expr.infer_call, firstType, htys] at h
      | action target name args stage => simp [Expr.infer_action, firstType, htys] at h
      | _ => cases hcall
    · rw [Expr.infer_eq_of_inferAll htys]
      refine ⟨?_, List.mem_cons_self⟩
      cases e with
      | call callee args stage => simpa [Expr.infer_call, firstType, htys] using h
      | action target name args stage => simpa [Expr.infer_action, firstType, htys] using h
      | _ => cases hcall

/-- The top type is not inferred for an expression in the place of a value, if it is inferred for
none of its values and nothing is found in it. -/
theorem Checker.Pins.infer_ne_any {e : Expr} (h : c.Pins e) (hclean : (e.infer c).2 = []) :
    (e.infer c).1 ≠ .any := by
  intro hany
  exact h (hany ▸ (Expr.inferAll_clean hclean).2)

/-! ## Parts -/

/-- Nothing is found in the container and the key of an element in which nothing is found. -/
theorem indexType_clean {base key : Ty × List Diagnostic} (h : (c.indexType base key).2 = []) :
    base.2 = [] ∧ key.2 = [] := by
  unfold indexType at h
  split at h <;> simp_all [expecting]

/-- A connector in which nothing is found is declared, and built from a value for every
parameter. -/
theorem Expr.connector_clean {name : String} {args : List Expr}
    (h : ((Expr.connector name args).inferAll c).2 = []) :
    ∃ params, c.program.connectorParams? name = some params ∧
      List.Forall₂ (fun ty e => c.expecting ty (e.infer c) = []) (params.map (·.ty)) args := by
  simp only [Expr.inferAll, Expr.infer, connectorArguments] at h
  split at h
  · simp at h
  next params hparams =>
    obtain ⟨hcount, hargs⟩ := List.append_eq_nil_iff.mp h
    have hlen : (params.map (·.ty)).length = args.length := by
      by_contra hne
      simp_all
    exact ⟨params, hparams, forall₂_inferAgainst hlen hargs⟩

/-- Nothing is found in the parts of an expression in which nothing is found. -/
theorem Expr.parts_clean {e : Expr} (h : (e.inferAll c).2 = []) :
    ∀ x ∈ e.parts, (x.infer c).2 = [] := by
  cases e with
  | array elem items =>
    have hitems : inferItems c elem items = [] := by simpa only [Expr.inferAll, Expr.infer] using h
    exact fun x hx => (expecting_eq_nil.mp (mem_inferItems hitems x hx)).1
  | map entries => exact mem_inferEntries (by simpa only [Expr.inferAll, Expr.infer] using h)
  | struct name fields =>
    simp only [Expr.inferAll, Expr.infer] at h
    rcases hdecl : c.program.struct? name with _ | decl
    · simp [hdecl] at h
    · rw [hdecl] at h
      intro x hx
      obtain ⟨entry, hentry, rfl⟩ := List.mem_map.mp hx
      obtain ⟨ty, _, hty⟩ := mem_inferFields h entry hentry
      exact (expecting_eq_nil.mp hty).1
  | connector name args =>
    obtain ⟨params, _, hargs⟩ := Expr.connector_clean h
    exact mem_of_forall₂_expecting hargs
  | message payload =>
    simp only [Expr.inferAll, Expr.infer] at h
    exact List.forall_mem_singleton.mpr (expecting_eq_nil.mp h).1
  | index base key =>
    simp only [Expr.inferAll, Expr.infer] at h
    have hparts := indexType_clean h
    exact List.forall_mem_cons.mpr ⟨hparts.1, List.forall_mem_singleton.mpr hparts.2⟩
  | field base name =>
    simp only [Expr.inferAll, Expr.infer, List.append_eq_nil_iff] at h
    exact List.forall_mem_singleton.mpr h.1
  | unary op operand =>
    simp only [Expr.inferAll, Expr.infer, List.append_eq_nil_iff] at h
    exact List.forall_mem_singleton.mpr h.1
  | binary op left right =>
    simp only [Expr.inferAll, Expr.infer, List.append_eq_nil_iff] at h
    exact List.forall_mem_cons.mpr ⟨h.1.1, List.forall_mem_singleton.mpr h.1.2⟩
  | cast operand target =>
    refine List.forall_mem_singleton.mpr ?_
    simp only [Expr.inferAll, Expr.infer] at h
    split at h
    · cases h
    · exact h
  | call callee args stage =>
    obtain ⟨unit, _, hargs⟩ := callTypes_clean (by simpa only [Expr.inferAll] using h)
    exact mem_of_forall₂_expecting hargs
  | action target name args stage =>
    obtain ⟨htarget, hargs, _⟩ := actionTypes_clean (by simpa only [Expr.inferAll] using h)
    exact List.forall_mem_cons.mpr ⟨htarget, hargs⟩
  | _ => exact fun x hx => by cases hx

/-- Nothing is found in the expressions of a target in which nothing is found. -/
theorem Target.parts_clean {target : Target} (h : (target.infer c).2 = []) :
    ∀ x ∈ target.parts, (x.infer c).2 = [] := by
  cases target with
  | var v => exact fun x hx => by cases hx
  | index base key =>
    have hparts := indexType_clean h
    exact List.forall_mem_cons.mpr ⟨hparts.1, List.forall_mem_singleton.mpr hparts.2⟩
  | field base name =>
    simp only [Target.infer, List.append_eq_nil_iff] at h
    exact List.forall_mem_singleton.mpr h.1

/-! ## Statements -/

/-- Nothing is found in the statements of a block in which nothing is found. -/
theorem mem_checkBlock {returns : List Ty} {inLoop : Bool} {ss : List Stmt}
    (h : checkBlock c returns inLoop ss = []) : ∀ s ∈ ss, s.check c returns inLoop = [] := by
  induction ss with
  | nil => simp
  | cons s ss ih =>
    rw [checkBlock, List.append_eq_nil_iff] at h
    exact List.forall_mem_cons.mpr ⟨h.1, ih h.2⟩

/-- Nothing is found in the inner statements of a statement in which nothing is found. -/
theorem Stmt.inner_clean {returns : List Ty} {inLoop : Bool} {s : Stmt}
    (h : s.check c returns inLoop = []) :
    ∀ s' ∈ s.inner, ∃ inLoop, s'.check c returns inLoop = [] := by
  intro s' hs'
  cases s with
  | branch cond yes no =>
    simp only [Stmt.check, List.append_eq_nil_iff] at h
    rcases List.mem_append.mp hs' with hmem | hmem
    · exact ⟨_, mem_checkBlock h.2.1 s' hmem⟩
    · exact ⟨_, mem_checkBlock h.2.2 s' hmem⟩
  | loop cond body =>
    simp only [Stmt.check, List.append_eq_nil_iff] at h
    exact ⟨_, mem_checkBlock h.2 s' hs'⟩
  | block body =>
    simp only [Stmt.check] at h
    exact ⟨_, mem_checkBlock h s' hs'⟩
  | _ => cases hs'

theorem forall₂_compatibleAll {expected found : List Ty} (hlen : found.length = expected.length)
    (h : c.compatibleAll [] expected found = []) :
    List.Forall₂ (fun ty found => compatible ty found = []) expected found := by
  induction expected generalizing found with
  | nil => rw [List.length_eq_zero_iff.mp hlen]; exact .nil
  | cons ty expected ih =>
    obtain _ | ⟨first, found⟩ := found
    · cases hlen
    · rw [compatibleAll, List.append_eq_nil_iff] at h
      exact .cons (by simpa [compatibleAfter] using h.1) (ih (by simpa using hlen) h.2)

/-- Several values in which nothing is found are as many as their places and compatible with
them. -/
theorem checkAll_clean {mismatch : Nat → Nat → Diagnostic} {expected : List Ty} {value : Expr}
    (h : checkAll c mismatch expected value = []) :
    (value.inferAll c).2 = [] ∧
      List.Forall₂ (fun ty found => compatible ty found = []) expected (value.inferAll c).1 := by
  unfold checkAll at h
  generalize value.inferAll c = inferred at h ⊢
  obtain ⟨found, findings⟩ := inferred
  obtain ⟨rfl, hrest⟩ := List.append_eq_nil_iff.mp h
  refine ⟨rfl, ?_⟩
  split at hrest
  · cases hrest
  next hlen => exact forall₂_compatibleAll (by simpa using hlen) hrest

/-- Nothing is found in the targets and the value of an assignment in which nothing is found. -/
theorem checkAssign_clean {targets : List Target} {value : Expr}
    (h : checkAssign c targets value = []) :
    (∀ target ∈ targets, (target.infer c).2 = []) ∧ (value.inferAll c).2 = [] ∧
      (∀ target, targets = [target] → c.expecting (target.infer c).1 (value.infer c) = []) ∧
      (targets.length ≠ 1 → List.Forall₂ (fun target found =>
        compatible (target.infer c).1 found = []) targets (value.inferAll c).1) := by
  obtain ⟨htargets, hvalue⟩ := List.append_eq_nil_iff.mp h
  have htargets : ∀ target ∈ targets, (target.infer c).2 = [] := fun target hmem =>
    List.flatMap_eq_nil_iff.mp htargets _ (List.mem_map_of_mem hmem)
  split at hvalue
  next ty found hplaces =>
    obtain ⟨target, rfl, hinfer⟩ := List.map_eq_singleton_iff.mp hplaces
    refine ⟨htargets, (Expr.inferAll_clean (expecting_eq_nil.mp hvalue).1).1, ?_, ?_⟩
    · rintro target' heq
      cases heq
      rw [hinfer]
      exact hvalue
    · exact fun hlen => absurd rfl hlen
  next hplaces =>
    obtain ⟨hclean, hall⟩ := checkAll_clean hvalue
    refine ⟨htargets, hclean, ?_, fun _ => ?_⟩
    · rintro target rfl
      exact absurd rfl (hplaces _ _)
    · rw [List.map_map, List.forall₂_map_left_iff] at hall
      exact hall

/-- Nothing is found in the values of a result in which nothing is found. -/
theorem checkResult_clean {returns : List Ty} {values : List Expr}
    (h : checkResult c returns values = []) :
    (∀ e ∈ values, (e.inferAll c).2 = []) ∧
      ((values.length = 1 → returns.length < 2) →
        List.Forall₂ (fun ty e => c.expecting ty (e.infer c) = []) returns values) ∧
      (∀ value, values = [value] → 2 ≤ returns.length →
        List.Forall₂ (fun ty found => compatible ty found = []) returns (value.inferAll c).1) := by
  unfold checkResult at h
  split at h
  next value ty ty' tys =>
    obtain ⟨hclean, hall⟩ := checkAll_clean h
    refine ⟨List.forall_mem_singleton.mpr hclean, fun hlen => ?_, fun value' heq _ => ?_⟩
    · have htwo := hlen rfl
      simp only [List.length_cons] at htwo
      omega
    · cases heq
      exact hall
  next hmany =>
    split at h
    · cases h
    next hlen =>
      have hlen : returns.length = values.length := by
        rw [bne_iff_ne, not_not] at hlen
        exact hlen.symm
      have hvalues := forall₂_inferAgainst hlen h
      refine ⟨fun e he => (Expr.inferAll_clean (mem_of_forall₂_expecting hvalues e he)).1,
        fun _ => hvalues, ?_⟩
      rintro value rfl htwo
      rw [hlen] at htwo
      simp at htwo

/-- Nothing is found in the expressions of a statement in which nothing is found. -/
theorem Stmt.exprs_clean {returns : List Ty} {inLoop : Bool} {s : Stmt}
    (h : s.check c returns inLoop = []) : ∀ e ∈ s.exprs, (e.inferAll c).2 = [] := by
  have hplace {ty : Ty} {e : Expr} (h : c.expecting ty (e.infer c) = []) :
      (e.inferAll c).2 = [] := (Expr.inferAll_clean (expecting_eq_nil.mp h).1).1
  intro e he
  cases s with
  | define name ty init? slot? =>
    cases init? with
    | none => cases he
    | some init =>
      obtain rfl := List.mem_singleton.mp he
      exact hplace (by simpa only [Stmt.check] using h)
  | assign targets value =>
    obtain ⟨htargets, hvalue, _⟩ := checkAssign_clean (by simpa only [Stmt.check] using h)
    rcases List.mem_append.mp he with hmem | hmem
    · obtain ⟨target, htarget, hpart⟩ := List.mem_flatMap.mp hmem
      exact (Expr.inferAll_clean (Target.parts_clean (htargets target htarget) e hpart)).1
    · obtain rfl := List.mem_singleton.mp hmem
      exact hvalue
  | branch cond yes no =>
    obtain rfl := List.mem_singleton.mp he
    simp only [Stmt.check, List.append_eq_nil_iff] at h
    exact hplace h.1
  | loop cond body =>
    obtain rfl := List.mem_singleton.mp he
    simp only [Stmt.check, List.append_eq_nil_iff] at h
    exact hplace h.1
  | leave => cases he
  | next => cases he
  | block body => cases he
  | result values =>
    simp only [Stmt.check] at h
    exact (checkResult_clean h).1 e he
  | run e' =>
    obtain rfl := List.mem_singleton.mp he
    simpa only [Stmt.check] using h

/-! ## Stores -/

/-- What an expression in which nothing is found stores has a type that is inferred for a part of
it. -/
theorem Expr.inferred_of_stores {e : Expr} (h : (e.inferAll c).2 = []) {store : Ty × Ty}
    (hstore : store ∈ e.stores c) :
    e.isCast = false ∧ ∃ x ∈ e.parts, store.2 ∈ (x.inferAll c).1 := by
  have hinferred {x : Expr} (hx : x ∈ e.parts) : (x.infer c).1 ∈ (x.inferAll c).1 :=
    (Expr.inferAll_clean (Expr.parts_clean h x hx)).2
  cases e with
  | array elem items =>
    obtain ⟨x, hx, rfl⟩ := List.mem_map.mp hstore
    exact ⟨rfl, x, hx, hinferred hx⟩
  | struct name fields =>
    obtain ⟨entry, hentry, hstore⟩ := List.mem_filterMap.mp hstore
    obtain ⟨_, _, rfl⟩ := Option.map_eq_some_iff.mp hstore
    have hx := List.mem_map_of_mem (f := Prod.snd) hentry
    exact ⟨rfl, entry.2, hx, hinferred hx⟩
  | connector name args =>
    obtain ⟨x, hx, hty⟩ := List.mem_map.mp (List.of_mem_zip hstore).2
    exact ⟨rfl, x, hx, hty ▸ hinferred hx⟩
  | _ => cases hstore

theorem Stmt.stores_assign {targets : List Target} {value : Expr} {returns : List Ty}
    (h : targets.length ≠ 1) : (Stmt.assign targets value).stores c returns =
      (targets.map fun target => (target.infer c).1).zip (value.inferAll c).1 := by
  match targets, h with
  | [], _ => rfl
  | _ :: _ :: _, _ => rfl

theorem Stmt.stores_result {values : List Expr} {returns : List Ty}
    (h : values.length = 1 → returns.length < 2) : (Stmt.result values).stores c returns =
      returns.zip (values.map fun e => (e.infer c).1) := by
  match values, returns, h with
  | [_], _ :: _ :: _, h => exact absurd (h rfl) (by simp)
  | [], _, _ => rfl
  | _ :: _ :: _, _, _ => rfl
  | [_], [], _ => rfl
  | [_], [_], _ => rfl

theorem Stmt.stores_resultAll {value : Expr} {returns : List Ty} (h : 2 ≤ returns.length) :
    (Stmt.result [value]).stores c returns = returns.zip (value.inferAll c).1 := by
  match returns, h with
  | _ :: _ :: _, _ => rfl

/-- What a statement in which nothing is found stores has a type that is inferred for an expression
of it. -/
theorem Stmt.inferred_of_stores {returns : List Ty} {inLoop : Bool} {s : Stmt}
    (h : s.check c returns inLoop = []) {store : Ty × Ty} (hstore : store ∈ s.stores c returns) :
    ∃ x ∈ s.exprs, store.2 ∈ (x.inferAll c).1 := by
  have hinferred {ty : Ty} {x : Expr} (hx : c.expecting ty (x.infer c) = []) :
      (x.infer c).1 ∈ (x.inferAll c).1 := (Expr.inferAll_clean (expecting_eq_nil.mp hx).1).2
  cases s with
  | define name ty init? slot? =>
    cases init? with
    | none => cases hstore
    | some init =>
      obtain rfl := List.mem_singleton.mp hstore
      exact ⟨init, List.mem_singleton_self _, hinferred (by simpa only [Stmt.check] using h)⟩
  | assign targets value =>
    obtain ⟨_, _, hone, _⟩ := checkAssign_clean (by simpa only [Stmt.check] using h)
    refine ⟨value, List.mem_append_right _ (List.mem_singleton_self _), ?_⟩
    by_cases hlen : targets.length = 1
    · obtain ⟨target, rfl⟩ := List.length_eq_one_iff.mp hlen
      obtain rfl := List.mem_singleton.mp hstore
      exact hinferred (hone target rfl)
    · rw [Stmt.stores_assign hlen] at hstore
      exact (List.of_mem_zip hstore).2
  | result values =>
    obtain ⟨_, heach, _⟩ := checkResult_clean (by simpa only [Stmt.check] using h)
    by_cases hmany : values.length = 1 → returns.length < 2
    · rw [Stmt.stores_result hmany] at hstore
      obtain ⟨x, hx, hty⟩ := List.mem_map.mp (List.of_mem_zip hstore).2
      obtain ⟨ty, hclean⟩ := forall₂_right_mem (heach hmany) hx
      exact ⟨x, hx, hty ▸ hinferred hclean⟩
    · rw [Classical.not_imp, Nat.not_lt] at hmany
      obtain ⟨value, rfl⟩ := List.length_eq_one_iff.mp hmany.1
      rw [Stmt.stores_resultAll hmany.2] at hstore
      exact ⟨value, List.mem_singleton_self _, (List.of_mem_zip hstore).2⟩
  | _ => cases hstore

/-- The expressions that an assignment to a target evaluates are expressions of the statement. -/
theorem Stmt.mem_exprs_of_target {s : Stmt} {target : Target} {e : Expr} (ht : target ∈ s.targets)
    (he : e ∈ target.parts) : e ∈ s.exprs := by
  cases s with
  | assign targets value =>
    exact List.mem_append_left _ (List.mem_flatMap.mpr ⟨target, ht, he⟩)
  | _ => cases ht

/-- Nothing is found in the targets of a statement in which nothing is found. -/
theorem Stmt.targets_clean {returns : List Ty} {inLoop : Bool} {s : Stmt}
    (h : s.check c returns inLoop = []) : ∀ target ∈ s.targets, (target.infer c).2 = [] := by
  cases s with
  | assign targets value =>
    have h : checkAssign c targets value = [] := by simpa only [Stmt.check] using h
    exact (checkAssign_clean h).1
  | _ => exact fun _ ht => by cases ht

/-! ## Functions -/

/-- Nothing is found in the statements of a block in which nothing is found, nor in those inside. -/
theorem statementsOf_clean {returns : List Ty} {inLoop : Bool} {ss : List Stmt}
    (h : checkBlock c returns inLoop ss = []) :
    ∀ s ∈ statementsOf ss, ∃ inLoop, s.check c returns inLoop = [] :=
  forall_statementsOf (fun _ ⟨_, hs⟩ => Stmt.inner_clean hs) fun s hs =>
    ⟨inLoop, mem_checkBlock h s hs⟩

/-- Nothing is found in the expressions of a function in which nothing is found. -/
theorem Function.exprs_clean {f : Function} {returns : List Ty}
    (h : checkBlock c returns false f.body = []) : ∀ e ∈ f.exprs, (e.inferAll c).2 = [] := by
  refine forall_exprs (fun e he x hx => (Expr.inferAll_clean (Expr.parts_clean he x hx)).1) ?_
  intro e he
  obtain ⟨s, hs, he⟩ := List.mem_flatMap.mp he
  obtain ⟨_, hclean⟩ := statementsOf_clean h s hs
  exact Stmt.exprs_clean hclean e he

end FrameScript
