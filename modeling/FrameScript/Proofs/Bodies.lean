import FrameScript.Proofs.Judgement

set_option autoImplicit false
set_option linter.unusedSectionVars false

/-!
# Bodies keep a discipline

A body whose function has a sound judgement keeps the discipline: its expressions have the values
the judgement says, and everything it stores is what the places admit. This is the one induction
over expressions and statements that all disciplines share.

## Main results

* `eval_keeps`, `results_keeps` — expressions, with their values as the judgement says.
* `write_keeps`, `assign_keeps` — assignments.
* `exec_keeps`, `execBlock_keeps`, `run_keeps` — statements, blocks and whole bodies.
-/

namespace FrameScript

open Exec Keeps

section Body

variable {D : Discipline} {J : Judgement} {p : Program} {code : Code} {rest : List String}

/-! ## Calls -/

section Calls

variable (hcode : code.Keeps D p)

include hcode

/-- The rule of calls of named callables, whatever stages their arguments. -/
theorem callNamed_keeps (callee : String) (stage count : Nat) {stageArgs : Exec Unit}
    (t : HeapTyping)
    (hargs : Keeps D p (code.function.sig.qualifiedName :: rest) t stageArgs fun _ _ => True)
    (hhands : ∀ unit, p.resolve callee = .ok unit →
      Ensures D p (code.function.sig.qualifiedName :: rest)
        (do stageArgs; takeStaged stage count) (D.HandsAll unit.sig.paramTypes)) :
    Keeps D p (code.function.sig.qualifiedName :: rest) t
      (callNamed code callee stage count stageArgs) fun u vs =>
        ∃ unit, p.resolve callee = .ok unit ∧ List.Forall₂ (D.Places u) unit.sig.returns vs := by
  unfold callNamed
  rw [hcode.program]
  refine ofExcept_bind fun unit hunit => ?_
  exact (called hcode hunit stage count t hargs (hhands unit hunit)).weaken
    fun w vs _ hvs => ⟨unit, hunit, hvs⟩

omit hcode in
/-- Only connectors have the name of a connector. -/
theorem exists_of_connectorName {action connector : String} {v : Value}
    (h : connectorName action v = .ok connector) : ∃ id, v = .connector connector id := by
  unfold connectorName at h
  split at h <;> cases h
  exact ⟨_, rfl⟩

/-- The rule of calls of actions, whatever stages their arguments. -/
theorem callAction_keeps {target : Value} (action : String) (stage count : Nat)
    {stageArgs : Exec Unit} (t : HeapTyping) (htarget : t.Knows target)
    (hargs : ∀ t, Keeps D p (code.function.sig.qualifiedName :: rest) t stageArgs
      fun _ _ => True)
    (hhands : ∀ connector id unit, target = .connector connector id →
      p.resolve (connector ++ "." ++ action) = .ok unit →
      Ensures D p (code.function.sig.qualifiedName :: rest)
        (do Exec.setTemp stage target; stageArgs; takeStaged stage (count + 1))
        (D.HandsAll unit.sig.paramTypes)) :
    Keeps D p (code.function.sig.qualifiedName :: rest) t
      (callAction code target action stage count stageArgs) fun u vs =>
        ∃ connector id unit, target = .connector connector id ∧
          p.resolve (connector ++ "." ++ action) = .ok unit ∧
          List.Forall₂ (D.Places u) unit.sig.returns vs := by
  unfold callAction
  rw [hcode.program]
  refine ofExcept_bind fun name hname => ?_
  obtain ⟨id, rfl⟩ := exists_of_connectorName hname
  have hstaging : Keeps D p (code.function.sig.qualifiedName :: rest) t
      (do Exec.setTemp stage (.connector name id); stageArgs) fun _ _ => True :=
    bind (setTemp hcode.function htarget) fun u _ _ _ => hargs u
  rw [← bind_assoc]
  -- The callee does not depend on what is staged, so it is known before.
  rcases hunit : p.resolve (name ++ "." ++ action) with e | unit
  · exact bind hstaging fun _ _ _ _ => ofExcept_bind nofun
  · have hhands := hhands name id unit rfl hunit
    rw [← bind_assoc] at hhands
    refine (called hcode hunit stage (count + 1) t hstaging hhands).weaken fun _ vs _ hvs => ?_
    exact ⟨name, id, unit, rfl, hunit, hvs⟩

omit hcode in
/-- The first result of a call is one of its results. -/
theorem firstResult_keeps {names : List String} {vs : List Value} {t : HeapTyping} :
    Keeps D p names t (firstResult vs) fun _ v => ∃ vs', vs = v :: vs' := by
  cases vs with
  | nil => exact fault _
  | cons v vs => exact .pure ⟨vs, rfl⟩

omit hcode in
theorem makeMessage_keeps {names : List String} {payload : Value} {t : HeapTyping} :
    Keeps D p names t (makeMessage payload) fun u v => u.Knows v ∧ v.ty = .ref .message := by
  unfold makeMessage
  split
  · refine (make fun h hh => ⟨t, t.le_refl, hh.newMessage _, trivial⟩).weaken fun u v _ hv => ?_
    obtain ⟨hknows, h, rfl⟩ := hv
    exact ⟨hknows, rfl⟩
  · exact fault _

end Calls

/-! ## Expressions -/

variable (hcode : code.KeepsBy D J p) (hJ : J.SoundOnExprs D p code.function)

include hcode hJ

mutual

/-- **Expressions keep the discipline**: the value of an expression refers to objects as what they
are, the judgement knows of it, and nothing is stored that its place does not admit. -/
theorem eval_keeps (e : Expr) (he : J.Admits e) (t : HeapTyping) :
    Keeps D p (code.function.sig.qualifiedName :: rest) t (e.eval code)
      fun u v => u.Knows v ∧ J.Yields e v := by
  cases e with
  | int n => simpa only [Expr.eval] using Keeps.pure ⟨trivial, hJ.own he rfl⟩
  | float x => simpa only [Expr.eval] using Keeps.pure ⟨trivial, hJ.own he rfl⟩
  | bool b => simpa only [Expr.eval] using Keeps.pure ⟨trivial, hJ.own he rfl⟩
  | str s => simpa only [Expr.eval] using Keeps.pure ⟨trivial, hJ.own he rfl⟩
  | null => simpa only [Expr.eval] using Keeps.pure ⟨trivial, hJ.own he rfl⟩
  | json doc => simpa only [Expr.eval] using Keeps.pure ⟨trivial, hJ.own he rfl⟩
  | xml text => simpa only [Expr.eval] using Keeps.pure ⟨trivial, hJ.own he rfl⟩
  | var x =>
    simp only [Expr.eval, slotOf]
    split
    next slot hslot =>
      refine (getSlot hcode.function _).weaken fun u v _ hv => ?_
      obtain ⟨ty, hty, hplaces⟩ := hv
      exact ⟨hplaces.knows, hJ.var he hslot hty hplaces.holds⟩
    · exact fault _
  | array elem items =>
    simp only [Expr.eval]
    have hitems : ∀ x ∈ items, J.Admits x ∧ ∀ v, J.Yields x v → D.Binds elem v :=
      fun x hx => ⟨hJ.part he hx, fun v hv => hJ.item he hx hv⟩
    refine bind (evalItems_keeps elem items hitems t) fun u vs _ hvs => ?_
    refine (make fun h hh => hh.newArray ?_).weaken fun w v _ hv => ?_
    · simpa using hvs
    · obtain ⟨hknows, h, rfl⟩ := hv
      exact ⟨hknows, hJ.own he rfl⟩
  | map entries =>
    simp only [Expr.eval]
    have hentries : ∀ entry ∈ entries, J.Admits entry.2 :=
      fun entry hentry => hJ.part he (List.mem_map_of_mem hentry)
    refine bind (evalEntries_keeps entries hentries t) fun u vs _ hvs => ?_
    refine (make fun h hh => hh.newMap ?_).weaken fun w v _ hv => ?_
    · exact fun entry hentry => hvs entry (Dict.mem_of_mem_ofList hentry)
    · obtain ⟨hknows, h, rfl⟩ := hv
      exact ⟨hknows, hJ.own he rfl⟩
  | struct name fields =>
    simp only [Expr.eval, hcode.program]
    split
    · exact fault _
    next decl hdecl =>
      have hfields : ∀ entry ∈ fields, J.Admits entry.2 ∧ ∀ ty v,
          decl.fieldType? entry.1 = some ty → J.Yields entry.2 v → D.Binds ty v :=
        fun entry hentry => ⟨hJ.part he (List.mem_map_of_mem hentry),
          fun ty v hty hv => hJ.given he hentry hdecl hty hv⟩
      refine bind (evalFields_keeps decl _ fields hfields t (D.fieldsOf_default t decl)) ?_
      intro u vs _ hvs
      refine (make fun h hh => hh.newStruct ⟨decl, hdecl, hvs⟩).weaken fun w v _ hv => ?_
      obtain ⟨hknows, h, rfl⟩ := hv
      exact ⟨hknows, hJ.own he rfl⟩
  | connector name args =>
    simp only [Expr.eval]
    refine bind (evalArgs_keeps args (fun x hx => hJ.part he hx) t) fun u vs _ hvs => ?_
    refine (make fun h hh => hh.newConnector ⟨hvs.1, hJ.built he hvs.2⟩).weaken fun w v _ hv => ?_
    obtain ⟨hknows, h, rfl⟩ := hv
    exact ⟨hknows, hJ.own he rfl⟩
  | message payload =>
    simp only [Expr.eval]
    refine bind (eval_keeps payload (hJ.part he (by simp [Expr.parts])) t) fun u v _ _ => ?_
    exact makeMessage_keeps.weaken fun w v _ hv => ⟨hv.1, hJ.own he (congrArg some hv.2.symm)⟩
  | index base key =>
    simp only [Expr.eval]
    have hparts : ∀ x ∈ [base, key], J.Admits x := fun x hx => hJ.part he hx
    refine bind (eval_keeps base (hparts base (by simp)) t) fun u container _ hbase => ?_
    refine bind (eval_keeps key (hparts key (by simp)) u) fun w k huw _ => ?_
    refine bind heap fun w' h hww' hh => ofExcept fun v hv => ?_
    have hcontainer : w'.Knows container := (hbase.1.mono huw).mono hww'
    have helement : D.Element k container v := by
      obtain ⟨elem, id, rfl, hplaces⟩ | ⟨id, rfl, _⟩ | ⟨doc, rfl, rfl⟩ :=
        element_places hh hcontainer hv
      · exact .array hplaces.holds
      · exact .map
      · exact .document
    exact ⟨knows_of_element hh hcontainer hv, hJ.element he hbase.2 helement⟩
  | field base name =>
    simp only [Expr.eval, hcode.program]
    refine bind (eval_keeps base (hJ.part he (by simp [Expr.parts])) t) fun u target _ hbase => ?_
    refine bind heap fun w h huw hh => ofExcept fun v hv => ?_
    have htarget : w.Knows target := hbase.1.mono huw
    have hmember : D.Member p name target v := by
      obtain ⟨_, _, _, _, rfl, hdecl, hty, hplaces⟩ | ⟨_, _, _, rfl, hi, hw, hargs⟩ |
        ⟨doc, rfl, rfl⟩ := fieldOf_places hh htarget hv
      · exact .struct hdecl hty hplaces.holds
      · exact .connector hi hargs.builds hw
      · exact .document
    exact ⟨knows_of_fieldOf hh htarget hv, hJ.member he hbase.2 hmember⟩
  | unary op operand =>
    simp only [Expr.eval]
    refine bind (eval_keeps operand (hJ.part he (by simp [Expr.parts])) t) fun u v _ hv => ?_
    refine ofExcept fun w hw => ⟨?_, hJ.unary he hv.2 hw⟩
    exact HeapTyping.knows_of_isValueType (UnaryOp.ty_of_apply hw).2.1
  | binary op left right =>
    simp only [Expr.eval]
    refine bind (eval_keeps left (hJ.part he (by simp [Expr.parts])) t) fun u l _ hl => ?_
    split
    next hshort => exact Keeps.pure ⟨knows_of_shortCircuit? hshort, hJ.decided he hshort⟩
    · refine bind (eval_keeps right (hJ.part he (by simp [Expr.parts])) u) fun w r _ hr => ?_
      refine bind heap fun w' h _ _ => ofExcept fun v hv => ⟨?_, hJ.binary he hl.2 hr.2 hv⟩
      exact HeapTyping.knows_of_isValueType (BinaryOp.isValueType_of_apply hv)
  | cast operand target =>
    simp only [Expr.eval]
    refine bind (eval_keeps operand (hJ.part he (by simp [Expr.parts])) t) fun u v _ hv => ?_
    exact ofExcept fun w hw => ⟨hv.1.cast hw, hJ.cast he hw⟩
  | call callee args stage =>
    simp only [Expr.eval]
    have hargs : ∀ x ∈ args, J.Admits x := fun x hx => hJ.part he hx
    have hvalues := fun t => (evalArgs_keeps args hargs t).weaken fun _ _ _ hvs => hvs.2
    refine bind (callNamed_keeps hcode.toKeeps _ _ _ t (stageArgs_keeps stage args hargs t)
      fun _ hunit => hcode.called he hunit (ensures hvalues)) fun u vs _ hvs => ?_
    obtain ⟨unit, hunit, hvs⟩ := hvs
    refine firstResult_keeps.weaken fun w v huw hv => ?_
    obtain ⟨vs, rfl⟩ := hv
    have hall := hJ.call he hunit (hvs.imp fun _ _ h => h.holds)
    obtain ⟨ty, hplaces⟩ := forall₂_right_mem hvs List.mem_cons_self
    exact ⟨hplaces.knows.mono huw, hJ.first he hall⟩
  | action target name args stage =>
    simp only [Expr.eval]
    have hargs : ∀ x ∈ args, J.Admits x :=
      fun x hx => hJ.part he (by simp [Expr.parts, hx])
    have hvalues := fun t => (evalArgs_keeps args hargs t).weaken fun _ _ _ hvs => hvs.2
    refine bind (eval_keeps target (hJ.part he (by simp [Expr.parts])) t) fun u v _ hv => ?_
    refine bind (callAction_keeps hcode.toKeeps _ _ _ u hv.1
      (fun t => stageArgs_keeps _ args hargs t) fun _ _ _ htarget hunit =>
        htarget ▸ hcode.acted he (htarget ▸ hv.2) hunit (ensures hvalues)) ?_
    intro w vs _ hvs
    obtain ⟨connector, id, unit, rfl, hunit, hvs⟩ := hvs
    refine firstResult_keeps.weaken fun w v huw hv' => ?_
    obtain ⟨vs, rfl⟩ := hv'
    have hall := hJ.action he hv.2 hunit (hvs.imp fun _ _ h => h.holds)
    obtain ⟨ty, hplaces⟩ := forall₂_right_mem hvs List.mem_cons_self
    exact ⟨hplaces.knows.mono huw, hJ.first he hall⟩

theorem evalItems_keeps (elem : Ty) (items : List Expr)
    (hitems : ∀ x ∈ items, J.Admits x ∧ ∀ v, J.Yields x v → D.Binds elem v) (t : HeapTyping) :
    Keeps D p (code.function.sig.qualifiedName :: rest) t (evalItems code elem items)
      fun u vs => ∀ v ∈ vs, D.Places u elem v := by
  cases items with
  | nil => simpa only [evalItems] using Keeps.pure (by simp)
  | cons e es =>
    simp only [evalItems]
    obtain ⟨he, hbinds⟩ := hitems e List.mem_cons_self
    refine bind (eval_keeps e he t) fun u v _ hv => ofExcept_bind fun w hw => ?_
    have hplaces : D.Places u elem w := ⟨hv.1.of_bind hw, hbinds v hv.2 w hw⟩
    refine bind (evalItems_keeps elem es (fun x hx => hitems x (List.mem_cons_of_mem _ hx)) u) ?_
    refine fun u' vs huu' hvs => Keeps.pure fun v' hv' => ?_
    rcases List.mem_cons.mp hv' with rfl | hmem
    · exact hplaces.mono huu'
    · exact hvs v' hmem

theorem evalEntries_keeps (entries : List (String × Expr))
    (hentries : ∀ entry ∈ entries, J.Admits entry.2) (t : HeapTyping) :
    Keeps D p (code.function.sig.qualifiedName :: rest) t (evalEntries code entries)
      fun u vs => ∀ entry ∈ vs, u.Knows entry.2 := by
  cases entries with
  | nil => simpa only [evalEntries] using Keeps.pure (by simp)
  | cons entry entries =>
    obtain ⟨key, e⟩ := entry
    simp only [evalEntries]
    have he : J.Admits e := hentries (key, e) List.mem_cons_self
    refine bind (eval_keeps e he t) fun u v _ hv => ?_
    refine bind (evalEntries_keeps entries
      (fun x hx => hentries x (List.mem_cons_of_mem _ hx)) u) fun w vs huw hvs => ?_
    refine Keeps.pure fun entry hentry => ?_
    rcases List.mem_cons.mp hentry with rfl | hmem
    · exact hv.1.mono huw
    · exact hvs entry hmem

theorem evalFields_keeps (decl : StructDecl) (fields : List (String × Value))
    (given : List (String × Expr)) (hgiven : ∀ entry ∈ given, J.Admits entry.2 ∧ ∀ ty v,
      decl.fieldType? entry.1 = some ty → J.Yields entry.2 v → D.Binds ty v) (t : HeapTyping)
    (hfields : D.FieldsOf t decl fields) :
    Keeps D p (code.function.sig.qualifiedName :: rest) t (evalFields code decl fields given)
      fun u vs => D.FieldsOf u decl vs := by
  cases given with
  | nil => simpa only [evalFields] using Keeps.pure hfields
  | cons entry given =>
    obtain ⟨name, e⟩ := entry
    simp only [evalFields]
    obtain ⟨he, hbinds⟩ := hgiven (name, e) List.mem_cons_self
    refine bind (eval_keeps e he t) fun u v htu hv => ofExcept_bind fun fields' hf => ?_
    refine evalFields_keeps decl fields' given
      (fun x hx => hgiven x (List.mem_cons_of_mem _ hx)) u ?_
    unfold initField at hf
    obtain ⟨w, hw, hf⟩ := bind_eq_ok.mp hf
    obtain ⟨_, hplaces⟩ := Discipline.places_of_bindAs hv.1 (fun ty hty => hbinds ty v hty hv.2) hw
    split at hf
    · cases hf
      exact Heap.fieldsOf_withField hplaces (Discipline.FieldsOf.mono hfields htu)
    · cases hf

theorem evalArgs_keeps (args : List Expr) (hargs : ∀ x ∈ args, J.Admits x) (t : HeapTyping) :
    Keeps D p (code.function.sig.qualifiedName :: rest) t (evalArgs code args)
      fun u vs => (∀ v ∈ vs, u.Knows v) ∧ List.Forall₂ J.Yields args vs := by
  cases args with
  | nil => simpa only [evalArgs] using Keeps.pure ⟨by simp, .nil⟩
  | cons e es =>
    simp only [evalArgs]
    refine bind (eval_keeps e (hargs e List.mem_cons_self) t) fun u v _ hv => ?_
    refine bind (evalArgs_keeps es (fun x hx => hargs x (List.mem_cons_of_mem _ hx)) u) ?_
    refine fun w vs huw hvs => Keeps.pure ⟨fun v' hv' => ?_, .cons hv.2 hvs.2⟩
    rcases List.mem_cons.mp hv' with rfl | hmem
    · exact hv.1.mono huw
    · exact hvs.1 v' hmem

theorem stageArgs_keeps (stage : Nat) (args : List Expr) (hargs : ∀ x ∈ args, J.Admits x)
    (t : HeapTyping) :
    Keeps D p (code.function.sig.qualifiedName :: rest) t (stageArgs code stage args)
      fun _ _ => True := by
  cases args with
  | nil => simpa only [stageArgs] using Keeps.pure trivial
  | cons e es =>
    simp only [stageArgs]
    refine bind (eval_keeps e (hargs e List.mem_cons_self) t) fun u v _ hv => ?_
    refine bind (setTemp hcode.function hv.1) fun w _ _ _ => ?_
    exact stageArgs_keeps (stage + 1) es (fun x hx => hargs x (List.mem_cons_of_mem _ hx)) w

end

/-- Arguments evaluate to what the judgement says. -/
theorem evalArgs_yields (args : List Expr) (hargs : ∀ x ∈ args, J.Admits x) :
    Ensures D p (code.function.sig.qualifiedName :: rest) (evalArgs code args)
      (List.Forall₂ J.Yields args) :=
  ensures fun t => (evalArgs_keeps hcode hJ args hargs t).weaken fun _ _ _ hvs => hvs.2

/-- All values of an expression are known, and the judgement knows of them. -/
theorem results_keeps (e : Expr) (he : J.Admits e) (t : HeapTyping) :
    Keeps D p (code.function.sig.qualifiedName :: rest) t (e.results code)
      fun u vs => (∀ v ∈ vs, u.Knows v) ∧ J.YieldsAll e vs := by
  have hknows {u : HeapTyping} {tys : List Ty} {vs : List Value}
      (h : List.Forall₂ (D.Places u) tys vs) : ∀ v ∈ vs, u.Knows v := by
    intro v hv
    obtain ⟨ty, hplaces⟩ := forall₂_right_mem h hv
    exact hplaces.knows
  unfold Expr.results
  split
  next callee args stage =>
    have hargs : ∀ x ∈ args, J.Admits x := fun x hx => hJ.part he hx
    refine (callNamed_keeps hcode.toKeeps _ _ _ t (stageArgs_keeps hcode hJ stage args hargs t)
      fun _ hunit => hcode.called he hunit (evalArgs_yields hcode hJ args hargs)).weaken
        fun u vs _ hvs => ?_
    obtain ⟨unit, hunit, hvs⟩ := hvs
    exact ⟨hknows hvs, hJ.call he hunit (hvs.imp fun _ _ h => h.holds)⟩
  next target name args stage =>
    have htarget : J.Admits target := hJ.part he (by simp [Expr.parts])
    have hargs : ∀ x ∈ args, J.Admits x := fun x hx => hJ.part he (by simp [Expr.parts, hx])
    refine bind (eval_keeps hcode hJ target htarget t) fun u v _ hv => ?_
    refine (callAction_keeps hcode.toKeeps _ _ _ u hv.1
      (fun t => stageArgs_keeps hcode hJ _ args hargs t) fun _ _ _ htarget hunit =>
        htarget ▸ hcode.acted he (htarget ▸ hv.2) hunit
          (evalArgs_yields hcode hJ args hargs)).weaken fun w vs _ hvs => ?_
    obtain ⟨connector, id, unit, rfl, hunit, hvs⟩ := hvs
    exact ⟨hknows hvs, hJ.action he hv.2 hunit (hvs.imp fun _ _ h => h.holds)⟩
  next hcall haction =>
    refine bind (eval_keeps hcode hJ e he t) fun u v _ hv => Keeps.pure ⟨fun w hw => ?_, ?_⟩
    · rw [List.mem_singleton.mp hw]
      exact hv.1
    · refine hJ.only ?_ hv.2
      unfold Expr.isCall
      split
      · exact absurd rfl (hcall _ _ _)
      · exact absurd rfl (haction _ _ _ _)
      · rfl

theorem holds_keeps (cond : Expr) (hcond : J.Admits cond) (t : HeapTyping) :
    Keeps D p (code.function.sig.qualifiedName :: rest) t (cond.holds code) fun _ _ => True := by
  refine bind (eval_keeps hcode hJ cond hcond t) fun u v _ _ => ?_
  split
  · exact Keeps.pure trivial
  · exact fault _

end Body

/-! ## Assignments -/

section Places

variable {D : Discipline} {p : Program} {names : List String} {v : Value} {t : HeapTyping}

/-- A write to an element stores the value as the array holds it, and defaults in between. -/
theorem writeElement_keeps {elem : Ty} {id : Nat} {index : Int64} (hid : t.Knows (.array elem id))
    (hv : t.Knows v) (hbinds : D.Binds elem v) :
    Keeps D p names t (writeElement elem id index v) fun _ _ => True := by
  refine ofExcept_bind fun w hw => ?_
  have hplaces : D.Places t elem w := ⟨hv.of_bind hw, hbinds w hw⟩
  unfold storeElement
  split
  · refine modifyHeap fun h hh => hh.setArray hid fun x hx => ?_
    rcases Heap.mem_withElement hx with hold | rfl | rfl
    · exact .inl hold
    · exact .inr hplaces
    · exact .inr (D.places_default t elem)
  · exact bind heap fun u h _ _ => fault _

/-- A write to a field stores the value as the field holds it. -/
theorem writeField_keeps {struct : String} {id : Nat} {name : String}
    (hid : t.Knows (.struct struct id)) (hv : t.Knows v)
    (hbinds : ∀ decl ty, p.struct? struct = some decl → decl.fieldType? name = some ty →
      D.Binds ty v) :
    Keeps D p names t (writeField p struct id name v) fun _ _ => True := by
  refine ofExcept_bind fun w hw => bind heap fun u h htu _ => ?_
  have hplaces := Discipline.places_of_bindAs hv (fun ty hty => by
    obtain ⟨decl, hdecl, hty⟩ := Option.bind_eq_some_iff.mp hty
    exact hbinds decl ty hdecl hty) hw
  split
  · refine modifyHeap fun h hh => hh.setStruct (hid.mono htu) ?_
    obtain ⟨decl, hdecl, hfields⟩ := hh.struct id struct (hid.mono htu)
    refine ⟨decl, hdecl, Heap.fieldsOf_withField (fun ty hty => ?_) hfields⟩
    rw [hdecl] at hplaces
    exact (hplaces.2 ty hty).mono htu
  · exact fault _

end Places

section Body

variable {D : Discipline} {J : Judgement} {p : Program} {code : Code} (hcode : code.KeepsBy D J p)
  (hJ : J.Sound D p code.function) {rest : List String}

include hcode hJ

/-- Assignments of values that a target takes keep the discipline. -/
theorem write_keeps {v : Value} (target : Target) (t : HeapTyping) (hv : t.Knows v)
    (htakes : J.Takes target v) :
    Keeps D p (code.function.sig.qualifiedName :: rest) t (target.write code v)
      fun _ _ => True := by
  have hparts {e : Expr} (he : e ∈ target.parts) : J.Admits e := hJ.targets.target htakes he
  cases target with
  | var x =>
    simp only [Target.write, slotOf]
    split
    next slot hslot =>
      refine ofExcept_bind fun w hw => setSlot hcode.function ?_
      exact (Discipline.places_of_bindAs hv (fun ty => hJ.targets.slot htakes hslot) hw).2
    · exact fault _
  | index base key =>
    have hbase : J.Admits base := hparts (by simp [Target.parts])
    have hkey : J.Admits key := hparts (by simp [Target.parts])
    refine bind (eval_keeps hcode hJ.exprs base hbase t) fun u container htu hcontainer => ?_
    refine bind (eval_keeps hcode hJ.exprs key hkey u) fun w key huw _ => ?_
    have hv := (hv.mono htu).mono huw
    split
    · exact fault _
    · refine ofExcept_bind fun index _ => ?_
      exact writeElement_keeps (hcontainer.1.mono huw) hv (hJ.targets.item htakes hcontainer.2)
    · refine ofExcept_bind fun key _ => modifyHeap fun h hh => hh.setMap fun entry hentry => ?_
      exact (Dict.mem_of_mem_insert hentry).imp_right fun (heq : entry = _) => heq ▸ hv
    · exact fault _
  | field base name =>
    have hbase : J.Admits base := hparts (by simp [Target.parts])
    refine bind (eval_keeps hcode hJ.exprs base hbase t) fun u container htu hcontainer => ?_
    split
    · exact fault _
    · rw [hcode.program]
      exact writeField_keeps hcontainer.1 (hv.mono htu)
        fun decl ty => hJ.targets.field htakes hcontainer.2
    · exact fault _

theorem writeAll_keeps (targets : List Target) {vs : List Value} (t : HeapTyping)
    (hvs : ∀ v ∈ vs, t.Knows v) (htakes : List.Forall₂ J.Takes targets vs) :
    Keeps D p (code.function.sig.qualifiedName :: rest) t (writeAll code targets vs)
      fun _ _ => True := by
  induction htakes generalizing t with
  | nil => exact Keeps.pure trivial
  | @cons target v targets vs hfirst _ ih =>
    refine bind (write_keeps hcode hJ target t (hvs v List.mem_cons_self) hfirst) ?_
    exact fun u _ htu _ => ih u fun w hw => (hvs w (List.mem_cons_of_mem _ hw)).mono htu

theorem assign_keeps (targets : List Target) (value : Expr) (hs : J.Runs (.assign targets value))
    (t : HeapTyping) :
    Keeps D p (code.function.sig.qualifiedName :: rest) t (assign code targets value)
      fun _ _ => True := by
  have hvalue : J.Admits value := hJ.stmts.expr hs (by simp [Stmt.exprs])
  unfold assign
  split
  next target =>
    refine bind (eval_keeps hcode hJ.exprs value hvalue t) fun u v _ hv => ?_
    exact write_keeps hcode hJ target u hv.1 (hJ.stmts.assigned hs hv.2)
  next hmany =>
    refine bind (results_keeps hcode hJ.exprs value hvalue t) fun u vs _ hvs => ?_
    split
    · exact fault _
    next hlen =>
      have hlen : vs.length = targets.length := by simpa using hlen
      have hone : targets.length ≠ 1 := by
        intro hone
        obtain ⟨target, rfl⟩ := List.length_eq_one_iff.mp hone
        exact hmany target rfl
      exact writeAll_keeps hcode hJ _ u hvs.1 (hJ.stmts.assignedAll hs hone hvs.2 hlen)

/-! ## Statements -/

/-- The values of a result are known, and may be bound to the results of the function. -/
theorem resultValues_keeps (values : List Expr) (hs : J.Runs (.result values)) (t : HeapTyping) :
    Keeps D p (code.function.sig.qualifiedName :: rest) t (resultValues code values)
      fun u vs => (∀ v ∈ vs, u.Knows v) ∧ D.BindsAll code.function.sig.returns vs := by
  have hvalues : ∀ e ∈ values, J.Admits e := fun e he => hJ.stmts.expr hs he
  rcases resultValues_cases code values with
    ⟨value, ty, ty', tys, rfl, hreturns, heq⟩ | ⟨hone, heq⟩ <;> rw [heq]
  · refine (results_keeps hcode hJ.exprs value (hvalues value (by simp)) t).weaken ?_
    intro u vs _ hvs
    refine ⟨hvs.1, hJ.stmts.returnsAll hs ?_ hvs.2⟩
    simp [hreturns]
  · refine (evalArgs_keeps hcode hJ.exprs _ hvalues t).weaken fun u vs _ hvs => ?_
    exact ⟨hvs.1, hJ.stmts.returns hs hone hvs.2⟩

/-- Results that may be bound are stored as they are declared. -/
theorem writeResults_keeps (index : Nat) {vs : List Value} (t : HeapTyping)
    (hvs : ∀ v ∈ vs, t.Knows v)
    (hbinds : D.BindsAll (code.function.sig.returns.drop index) vs) :
    Keeps D p (code.function.sig.qualifiedName :: rest) t
      (writeResults code.function.sig.returns index vs) fun _ _ => True := by
  induction vs generalizing index t with
  | nil => exact Keeps.pure trivial
  | cons v vs ih =>
    refine ofExcept_bind fun w hw => ?_
    have hplaces := Discipline.places_of_bindAs (hvs v List.mem_cons_self) hbinds.first hw
    refine bind (setReturn hcode.function hplaces.2) fun u _ htu _ => ?_
    exact ih (index + 1) u (fun x hx => (hvs x (List.mem_cons_of_mem _ hx)).mono htu) hbinds.rest

omit hcode hJ in
/-- The rounds of a loop keep the discipline if its condition and its body do. -/
theorem Keeps.runLoop {names : List String} {cond : Exec Bool} {body : Exec Flow}
    (hcond : ∀ t, Keeps D p names t cond fun _ _ => True)
    (hbody : ∀ t, Keeps D p names t body fun _ _ => True) (rounds : Nat) (t : HeapTyping) :
    Keeps D p names t (runLoop cond body rounds) fun _ _ => True := by
  induction rounds generalizing t with
  | zero => exact throw _
  | succ rounds ih =>
    refine bind (hcond t) fun u b _ _ => ?_
    split
    · refine bind (hbody u) fun w flow _ _ => ?_
      cases flow with
      | leave => exact Keeps.pure trivial
      | done => exact Keeps.pure trivial
      | onward => exact ih w
      | next => exact ih w
    · exact Keeps.pure trivial

/-- The rule of the last steps of a definition. -/
theorem define_keeps {name : String} {ty : Ty} {init? : Option Expr} {slot? : Option Nat}
    (hs : J.Runs (.define name ty init? slot?)) {v : Value} (t : HeapTyping) (hv : t.Knows v)
    (hbinds : D.Binds ty v) :
    Keeps D p (code.function.sig.qualifiedName :: rest) t (do
      let slot ← slotOf name slot?
      let _ ← Exec.frame
      let v ← Exec.ofExcept (v.bind ty)
      Exec.setSlot slot v
      Pure.pure Flow.onward) fun _ _ => True := by
  obtain ⟨slot, rfl, hslot⟩ := hJ.stmts.place hs
  refine bind (q := fun _ s => s = slot) (Keeps.pure rfl) fun w s htw hs => ?_
  subst hs
  refine bind (frame hcode.function) fun x _ hwx _ => ofExcept_bind fun v' hv' => ?_
  refine bind (setSlot hcode.function fun ty' hty' => ?_) fun _ _ _ _ => Keeps.pure trivial
  obtain rfl : ty' = ty := Option.some.inj (hty'.symm.trans hslot)
  exact ⟨((hv.of_bind hv').mono htw).mono hwx, hbinds v' hv'⟩

mutual

/-- **Statements keep the discipline.** -/
theorem exec_keeps (s : Stmt) (hs : J.Runs s) (t : HeapTyping) :
    Keeps D p (code.function.sig.qualifiedName :: rest) t (s.exec code) fun _ _ => True := by
  cases s with
  | define name ty init? slot? =>
    simp only [Stmt.exec]
    cases init? with
    | none =>
      exact define_keeps hcode hJ hs t (t.knows_default ty) (D.binds_default ty)
    | some init =>
      have hinit : J.Admits init := hJ.stmts.expr hs (by simp [Stmt.exprs])
      refine bind (eval_keeps hcode hJ.exprs init hinit t) fun u v _ hv => ?_
      exact define_keeps hcode hJ hs u hv.1 (hJ.stmts.start hs hv.2)
  | assign targets value =>
    simp only [Stmt.exec]
    exact bind (assign_keeps hcode hJ targets value hs t) fun _ _ _ _ => Keeps.pure trivial
  | branch cond yes no =>
    simp only [Stmt.exec]
    have hcond : J.Admits cond := hJ.stmts.expr hs (by simp [Stmt.exprs])
    refine bind (holds_keeps hcode hJ.exprs cond hcond t) fun u b _ _ => ?_
    split
    · exact execBlock_keeps yes (fun s' h => hJ.stmts.inner hs (by simp [Stmt.inner, h])) u
    · exact execBlock_keeps no (fun s' h => hJ.stmts.inner hs (by simp [Stmt.inner, h])) u
  | loop cond body =>
    simp only [Stmt.exec]
    have hcond : J.Admits cond := hJ.stmts.expr hs (by simp [Stmt.exprs])
    exact Keeps.runLoop (fun t => holds_keeps hcode hJ.exprs cond hcond t)
      (fun t => execBlock_keeps body (fun s' h => hJ.stmts.inner hs h) t) _ t
  | leave => simpa only [Stmt.exec] using Keeps.pure trivial
  | next => simpa only [Stmt.exec] using Keeps.pure trivial
  | result values =>
    simp only [Stmt.exec]
    refine bind (resultValues_keeps hcode hJ values hs t) fun u vs _ hvs => ?_
    refine bind (frame hcode.function) fun w _ huw _ => ?_
    refine bind (writeResults_keeps hcode hJ 0 w (fun v hv => (hvs.1 v hv).mono huw) ?_) ?_
    · rw [List.drop_zero]
      exact hvs.2
    · exact fun _ _ _ _ => Keeps.pure trivial
  | run e =>
    simp only [Stmt.exec]
    have he : J.Admits e := hJ.stmts.expr hs (by simp [Stmt.exprs])
    exact bind (results_keeps hcode hJ.exprs e he t) fun _ _ _ _ => Keeps.pure trivial
  | block body =>
    simp only [Stmt.exec]
    exact execBlock_keeps body (fun s' h => hJ.stmts.inner hs h) t

theorem execBlock_keeps (ss : List Stmt) (hss : ∀ s ∈ ss, J.Runs s) (t : HeapTyping) :
    Keeps D p (code.function.sig.qualifiedName :: rest) t (execBlock code ss)
      fun _ _ => True := by
  cases ss with
  | nil => simpa only [execBlock] using Keeps.pure trivial
  | cons s ss =>
    simp only [execBlock]
    refine bind (exec_keeps s (hss s List.mem_cons_self) t) fun u flow _ _ => ?_
    split
    · exact execBlock_keeps ss (fun s' h => hss s' (List.mem_cons_of_mem _ h)) u
    · exact Keeps.pure trivial

end

/-- Bodies with a sound judgement keep the discipline. -/
theorem run_keeps (t : HeapTyping) :
    Keeps D p (code.function.sig.qualifiedName :: rest) t (Function.run code)
      fun _ _ => True := by
  refine bind (execBlock_keeps hcode hJ _ hJ.stmts.body t) fun u flow _ _ => ?_
  split
  · exact Keeps.pure trivial
  · exact Keeps.pure trivial
  · exact fault _
  · exact fault _

end Body

end FrameScript
