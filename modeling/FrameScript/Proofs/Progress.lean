import FrameScript.Proofs.Analysed
import FrameScript.Proofs.Defects
import FrameScript.Proofs.Origins
import FrameScript.Proofs.Soundness
import FrameScript.Proofs.Standard

set_option autoImplicit false

/-!
# What the analysis lets through

A defect is a state that the analysis is meant to rule out. In a program in which it finds nothing,
and which keeps the top type to the operands of conversions, all values are of the types that are
inferred for them. So whatever takes values of other types is ruled out: conditions, elements and
fields that are read, arguments, results, payloads. Left are operands and places to assign to, of
which the analysis asks less than the machine does.

## Main definitions

* `SparesDefects` — a computation of a native unit that finds no defect on a typed frame.
* `Task.Checked` — what the analysis makes sure of for the tasks of a run.
* `Task.Missed` — the defects that a task may come upon although nothing is found in the program.

## Main results

* `Task.Step.checked`, `Task.Reaches.checked` — the analysis looks at all that a run does.
* `Task.Arises.missed` — a defect that comes up in a task of a run is one of those that are missed.
* `missed_of_analyzerDefect` — a call that ends with a defect comes upon one that is missed.
-/

namespace FrameScript

open Checker Exec

/-! ## Native units -/

section Handlers

variable {α β : Type} {params : List Ty}

/-- A computation that finds no defect on a frame whose slots hold values of the types of the
parameters, and that leaves the active calls as they are if it ends with a value. -/
def SparesDefects (params : List Ty) (x : Exec α) : Prop :=
  ∀ (m : Machine) (f : Frame) (rest : List Frame), m.context.frames = f :: rest →
    List.Forall₂ (fun ty v => Value.Fits ty v) params f.slots →
    (∀ d m', x.on m ≠ (.error (.failed (.fault (.analyzerDefect d))), m')) ∧
      ∀ a m', x.on m = (.ok a, m') → m'.context.frames = m.context.frames

namespace SparesDefects

/-- A computation that does not fail, or only with an error of the unit itself, and leaves the
active calls as they are. -/
theorem of_steady {x : Exec α} (hx : ∀ m : Machine, (x.on m).2.context.frames = m.context.frames ∧
    faultOf? (x.on m).1 = none) : SparesDefects params x := by
  intro m f rest _ _
  refine ⟨fun d m' h => ?_, fun a m' h => ?_⟩
  · have hfault := (hx m).2
    rw [h] at hfault
    cases hfault
  · simpa only [h] using (hx m).1

theorem bind {x : Exec α} {k : α → Exec β} (hx : SparesDefects params x)
    (hk : ∀ a, SparesDefects params (k a)) : SparesDefects params (x >>= k) := by
  intro m f rest hm hslots
  obtain ⟨hdefect, hframes⟩ := hx m f rest hm hslots
  refine ⟨fun d m' h => ?_, fun b m' h => ?_⟩
  · rcases (bind_error m).mp h with hfirst | ⟨a, m₁, hfirst, hnext⟩
    · exact hdefect d m' hfirst
    · exact (hk a m₁ f rest ((hframes a m₁ hfirst).trans hm) hslots).1 d m' hnext
  · obtain ⟨a, m₁, hfirst, hnext⟩ := (bind_ok m).mp h
    have hm₁ := hframes a m₁ hfirst
    exact ((hk a m₁ f rest (hm₁.trans hm) hslots).2 b m' hnext).trans hm₁

/-- Reading an argument ends with what is in its slot, or without a defect. -/
theorem on_argument (index : Nat) {m : Machine} {f : Frame} {rest : List Frame}
    (hm : m.context.frames = f :: rest) :
    (∃ v, f.slots[index]? = some v ∧ v.isNull = false ∧
      (Exec.argument index).on m = (.ok v, m)) ∨
    ∃ e, (∀ d, e ≠ .analyzerDefect d) ∧
      (Exec.argument index).on m = (.error (.failed (.fault e)), m) := by
  rw [on_argument_of_frames hm]
  unfold Frame.argument Frame.nullableArgument Frame.get
  by_cases hindex : index < f.argCount
  · rw [if_pos hindex]
    rcases hslot : f.slots[index]? with _ | v
    · exact .inr ⟨_, by simp, rfl⟩
    · cases hnull : v.isNull with
      | true => exact .inr ⟨.nullArgument index, by simp, by simp [hnull]⟩
      | false => exact .inl ⟨v, rfl, hnull, by simp [hnull]⟩
  · rw [if_neg hindex]
    exact .inr ⟨_, by simp, rfl⟩

theorem argument (index : Nat) : SparesDefects params (Exec.argument index) := by
  intro m f rest hm _
  rcases on_argument index hm with ⟨v, _, _, hon⟩ | ⟨e, he, hon⟩
  · exact ⟨fun d m' h => by simp [hon] at h, fun a m' h => by simp_all⟩
  · refine ⟨fun d m' h => ?_, fun a m' h => by simp [hon] at h⟩
    rw [hon] at h
    cases h
    exact he d rfl

/-- An argument is read as what its parameter is declared as. -/
theorem argumentAs {read : Value → Option α} {ty : Ty} {index : Nat}
    (hread : ∀ v, v.ty = ty → (read v).isSome = true) (hvalue : ty.isValueType = true)
    (hparam : params[index]? = some ty) : SparesDefects params (Exec.argumentAs read ty index) := by
  intro m f rest hm hslots
  rcases on_argument index hm with ⟨v, hslot, _, hon⟩ | ⟨e, he, hon⟩
  · obtain ⟨ty', hty', hfits⟩ := forall₂_getElem? hslots hslot
    obtain rfl : ty' = ty := Option.some.inj (hty'.symm.trans hparam)
    obtain ⟨a, ha⟩ := Option.isSome_iff_exists.mp (hread v (hfits.ty_eq hvalue))
    have hrun : (Exec.argumentAs read ty' index).on m = (.ok a, m) := by
      simp only [Exec.argumentAs, on_bind, hon, ha, on_pure]
    exact ⟨fun d m' h => by simp [hrun] at h, fun a m' h => by simp_all⟩
  · have hrun : (Exec.argumentAs read ty index).on m = (.error (.failed (.fault e)), m) := by
      simp only [Exec.argumentAs, on_bind, hon]
    refine ⟨fun d m' h => ?_, fun a m' h => by simp [hrun] at h⟩
    rw [hrun] at h
    cases h
    exact he d rfl

/-- The steps of the standard library find no defects on typed frames. -/
theorem closed : Library.ClosedFor fun params _ x => SparesDefects params x where
  pure _ := of_steady fun _ => ⟨rfl, rfl⟩
  bind := bind
  hostError _ := of_steady fun _ => ⟨rfl, rfl⟩
  argument := argument
  argumentAs := argumentAs
  heap := of_steady fun _ => ⟨rfl, rfl⟩
  newArray _ _ := of_steady fun _ => ⟨rfl, rfl⟩
  eraseEntry _ _ := of_steady fun _ => ⟨rfl, rfl⟩
  print _ := of_steady fun _ => ⟨rfl, rfl⟩
  property? _ := of_steady fun _ => ⟨rfl, rfl⟩

end SparesDefects

end Handlers

/-! ## Tasks of accepted programs -/

/-- What the analysis makes sure of for a task besides its parts: a value that is evaluated has a
type, conditions are truth values, and results are as they are declared. -/
def Task.Checked (p : Program) : Task → Prop
  | .loop s cond _ _ =>
    (s.function.checker p).expecting .boolean (cond.infer (s.function.checker p)) = []
  | .finish s index vs =>
    List.Forall₂ (fun ty v => Value.Fits ty v) (s.function.sig.returns.drop index) vs
  | .eval s e => (e.infer (s.function.checker p)).2 = []
  | _ => True

theorem Task.Checked.analysed {p : Program} {task : Task} (h : task.Checked p) :
    task.Analysed p := by
  cases task with
  | loop | eval => exact h
  | _ => trivial

/-- The judgement of types speaks of what is written in a function. -/
theorem typeJudgement_ofText (p : Program) (f : Function) : (typeJudgement p f).OfText f where
  expr he := he
  stmt hs := hs
  target htakes := htakes.1

section Accepted

variable {p : Program} (hp : p.Linked Library.standard) (hcheck : p.check = [])
  (hany : p.ConfinesAny) {rounds : Nat}

include hp hcheck hany

/-- Programs that confine the top type are judged by the discipline of types. -/
theorem typeDiscipline_judges_of_confinesAny :
    typeDiscipline.Judges (typeJudgement p) Library.standard p :=
  typeDiscipline_judges hp hcheck (hany.guardsAny hp hcheck)

/-- The function under way is well typed. -/
theorem Site.Under.wellTyped {s : Site} {names : List String} (hs : s.Under p names) :
    s.function.WellTyped p := by
  obtain ⟨name, hfound⟩ := hs.found
  exact hp.wellTyped hcheck (hany.guardsAny hp hcheck) hfound

/-- The value that an expression evaluates to is one of the type that is inferred for it. -/
theorem Site.Under.gives {s : Site} {m m' : Machine} {t : HeapTyping} {e : Expr} {v : Value}
    (hs : s.Under p m.context.names) (hm : m.Obeys typeDiscipline p t) (he : e ∈ s.function.exprs)
    (hv : (e.eval (s.code p rounds)).on m = (.ok v, m')) :
    ∃ u, m'.Obeys typeDiscipline p u ∧ s.Under p m'.context.names ∧ u.Knows v ∧
      e.Gives (s.function.checker p) v := by
  have hD := typeDiscipline_judges_of_confinesAny hp hcheck hany
  obtain ⟨u, _, hm', hs', hknows, hgives⟩ := hs.afterEval hD hm he hv
  exact ⟨u, hm', hs', hknows, hgives⟩

/-- The values of a result are of the types of the results. -/
theorem Site.Under.fits_results {s : Site} {m m' : Machine} {t : HeapTyping} {values : List Expr}
    {vs : List Value} (hs : s.Under p m.context.names) (hm : m.Obeys typeDiscipline p t)
    (hst : Stmt.result values ∈ statementsOf s.function.body)
    (hvs : (resultValues (s.code p rounds) values).on m = (.ok vs, m')) :
    List.Forall₂ (fun ty v => Value.Fits ty v) s.function.sig.returns vs := by
  have hD := typeDiscipline_judges_of_confinesAny hp hcheck hany
  have hf := hs.wellTyped hp hcheck hany
  have hvalues : ∀ e ∈ values, e ∈ s.function.exprs :=
    fun e he => (hs.sound hD).stmts.expr hst he
  rcases resultValues_cases (s.code p rounds) values with
    ⟨value, ty, ty', tys, rfl, hreturns, heq⟩ | ⟨hone, heq⟩ <;> rw [heq] at hvs
  · obtain ⟨_, _, _, _, _, hall⟩ := hs.afterResults hD hm (hvalues value (by simp)) hvs
    have hreturns : s.function.sig.returns = ty :: ty' :: tys := hreturns
    exact fits_returnsAll hf hst (by simp [hreturns]) hall
  · obtain ⟨_, _, _, _, _, hall⟩ := hs.afterArgs hD hm hvalues hvs
    exact fits_returns hf hst hone (hall.imp fun _ _ h => h.fits)

/-- What the analysis makes sure of for a task, it makes sure of for the tasks that are begun on
behalf of it. -/
theorem Task.Step.checked {task₁ task₂ : Task} {m₁ m₂ : Machine}
    (hbegun : task₁.BegunWell typeDiscipline (typeJudgement p) p m₁) (h : task₁.Checked p)
    (hstep : Task.Step p rounds task₁ m₁ task₂ m₂) : task₂.Checked p := by
  have hanalysed : task₂.Analysed p :=
    hstep.analysed hcheck (fun _ f _ => typeJudgement_ofText p f) hbegun h.analysed
  obtain ⟨t, hm, hknown⟩ := hbegun
  cases hstep with
  | result hvs => exact hknown.1.fits_results hp hcheck hany hm hknown.2 hvs
  | @finished s index v w vs =>
    obtain ⟨ty, tys, _, hrest, htys⟩ := List.forall₂_cons_right_iff.mp h
    have hdrop : s.function.sig.returns.drop (index + 1) = tys := by
      rw [← List.drop_drop, htys, List.drop_one, List.tail_cons]
    change List.Forall₂ _ (s.function.sig.returns.drop (index + 1)) vs
    rw [hdrop]
    exact hrest
  | _ => exact hanalysed

/-- The analysis has made sure of all tasks of a run. -/
theorem Task.Reaches.checked {task task' : Task} {m m' : Machine}
    (hbegun : task.BegunWell typeDiscipline (typeJudgement p) p m) (h : task.Checked p)
    (hr : Task.Reaches p rounds task m task' m') :
    task'.BegunWell typeDiscipline (typeJudgement p) p m' ∧ task'.Checked p := by
  have hD := typeDiscipline_judges_of_confinesAny hp hcheck hany
  refine hr.invariant (I := fun task m =>
    task.BegunWell typeDiscipline (typeJudgement p) p m ∧ task.Checked p) ?_ ⟨hbegun, h⟩
  intro task₁ m₁ task₂ m₂ hall hstep
  exact ⟨Task.Step.keeps hD hall.1 hstep, Task.Step.checked hp hcheck hany hall.1 hall.2 hstep⟩

end Accepted

/-! ## What is missed -/

/-- The defects that a task may come upon although nothing is found in the program. -/
inductive Task.Missed (p : Program) : Task → Defect → Prop
  /-- A unary operator is taken for defined on any type. -/
  | operand {s : Site} {op : UnaryOp} {operand : Expr} {d : Defect}
    (hop : op.isDefinedOn (operand.infer (s.function.checker p)).1 = false)
    (hd : d = .nullOperand op ∨ ∃ ty, d = .operand op ty) :
    Missed p (.eval s (.unary op operand)) d
  /-- A text may be joined with a reference, which may be null. -/
  | text {s : Site} {left right : Expr}
    (h : ((left.infer (s.function.checker p)).1 = .string ∧
        ∃ r, (right.infer (s.function.checker p)).1 = .ref r) ∨
      ((right.infer (s.function.checker p)).1 = .string ∧
        ∃ r, (left.infer (s.function.checker p)).1 = .ref r)) :
    Missed p (.eval s (.binary .add left right)) (.nullOperands .add)
  /-- Nulls may be compared that do not carry the tags of their types. -/
  | nulls {s : Site} {op : BinaryOp} {left right : Expr} {r r' : RefTy}
    (hop : op.isEquality = true)
    (hstrays : left.straysTags (s.function.checker p) = true ∨
      right.straysTags (s.function.checker p) = true) :
    Missed p (.eval s (.binary op left right)) (.incomparableNulls r r')
  /-- A part of a document is taken for a place that can be assigned to. -/
  | element {s : Site} {v : Value} {base key : Expr}
    (hbase : (base.infer (s.function.checker p)).1 = .ref .json) :
    Missed p (.write s v (.index base key)) (.notIndexable (.ref .json))
  /-- A member of a document, or what a connector was built from, is taken for a place that can be
  assigned to. -/
  | field {s : Site} {v : Value} {base : Expr} {name : String} {ty : Ty}
    (hbase : (base.infer (s.function.checker p)).1 = ty)
    (hty : ty = .ref .json ∨ ty.isConnector = true) :
    Missed p (.write s v (.field base name)) (.noField ty name)

section Accepted

variable {p : Program} (hp : p.Linked Library.standard) (hcheck : p.check = [])
  (hany : p.ConfinesAny) {rounds : Nat} {s : Site} {m m' : Machine} {t : HeapTyping} {d : Defect}

include hp hcheck hany

/-- The top type is inferred for no part of an expression that is no conversion. -/
theorem Site.Under.part_ne_any {names : List String} {e x : Expr} (hs : s.Under p names)
    (he : e ∈ s.function.exprs) (hcast : e.isCast = false) (hx : x ∈ e.parts) :
    (x.infer (s.function.checker p)).1 ≠ .any := by
  have hclean := (hs.wellTyped hp hcheck hany).exprs e he
  obtain ⟨name, hfound⟩ := hs.found
  have hpins := (hany.2 s.function (Program.mem_functions hfound)).2 e he hcast x hx
  exact hpins.infer_ne_any (Expr.parts_clean hclean x hx)

omit hp hcheck hany in
/-- A frame that is used wrongly is no defect of the analysis. -/
theorem OnFrame.spares {α : Type} {y : Exec α} (hy : OnFrame y) :
    y.on m ≠ (.error (.failed (.fault (.analyzerDefect d))), m') := by
  intro h
  obtain ⟨f, heq, hframe⟩ := hy.fault m m' _ h
  cases heq
  cases hframe

/-- Of the defects that operators find, only those of operands are left. -/
theorem unary_missed {op : UnaryOp} {operand : Expr} {v : Value}
    (hm : m.Obeys typeDiscipline p t) (hs : s.Under p m.context.names)
    (he : Expr.unary op operand ∈ s.function.exprs)
    (hv : (operand.eval (s.code p rounds)).on m = (.ok v, m'))
    (h : op.apply v = .error (.analyzerDefect d)) :
    (Task.eval s (.unary op operand)).Missed p d := by
  have hoperand := s.function.mem_exprs_of_part he (x := operand) (by simp [Expr.parts])
  obtain ⟨_, _, _, _, hgives⟩ := hs.gives hp hcheck hany hm hoperand hv
  obtain ⟨hop, hd⟩ := UnaryOp.defect_of_apply hgives.fits h
  exact .operand hop (hd.imp id fun hd => ⟨_, hd⟩)

theorem binary_missed {op : BinaryOp} {left right : Expr} {l r : Value} {m₁ : Machine}
    (hm : m.Obeys typeDiscipline p t) (hs : s.Under p m.context.names)
    (he : Expr.binary op left right ∈ s.function.exprs)
    (hleft : (left.eval (s.code p rounds)).on m = (.ok l, m₁))
    (hright : (right.eval (s.code p rounds)).on m₁ = (.ok r, m'))
    (h : op.apply m'.heap l r = .error (.analyzerDefect d)) :
    (Task.eval s (.binary op left right)).Missed p d := by
  have hparts : ∀ x ∈ [left, right], x ∈ s.function.exprs ∧
      (x.infer (s.function.checker p)).1 ≠ .any := fun x hx =>
    ⟨s.function.mem_exprs_of_part he hx, hs.part_ne_any hp hcheck hany he rfl hx⟩
  obtain ⟨hl, hleftAny⟩ := hparts left (by simp)
  obtain ⟨hr, hrightAny⟩ := hparts right (by simp)
  obtain ⟨_, hm₁, hs₁, _, hl⟩ := hs.gives hp hcheck hany hm hl hleft
  obtain ⟨_, _, _, _, hr⟩ := hs₁.gives hp hcheck hany hm₁ hr hright
  have hclean := (hs.wellTyped hp hcheck hany).exprs _ he
  simp only [Expr.inferAll, Expr.infer, List.append_eq_nil_iff] at hclean
  rcases BinaryOp.defect_of_apply hl.fits hr.fits ⟨hleftAny, hrightAny⟩ hclean.2 h with
    ⟨rfl, rfl, htext⟩ | ⟨hop, a, b, tag, tag', ha, hb, hab, rfl, rfl, htags, rfl⟩
  · exact .text htext
  · refine .nulls hop ?_
    by_contra hstrays
    rw [not_or, Bool.not_eq_true, Bool.not_eq_true] at hstrays
    have hcompatible := BinaryOp.compatibleWith_of_taggedAs hab (ha ▸ hl.tagged hstrays.1)
      (hb ▸ hr.tagged hstrays.2)
    rw [htags] at hcompatible
    cases hcompatible

omit hp hcheck hany in
/-- Structs that occur in a state have the fields that are declared for them. -/
theorem exists_declared {struct : String} {id : Nat} (hm : m.Obeys typeDiscipline p t)
    (hknows : t.Knows (.struct struct id)) (name : String) :
    ∃ decl, p.struct? struct = some decl ∧ ∀ ty, decl.fieldType? name = some ty →
      (Heap.field? name (m.heap.struct id)).isSome = true := by
  obtain ⟨decl, hdecl, hfields⟩ := hm.heap.struct id struct hknows
  exact ⟨decl, hdecl, fun ty hty => Heap.isSome_field? hfields hty⟩

/-- Of the defects that the evaluation of an expression may come upon, only those of operators are
missed. -/
theorem eval_missed {e : Expr} (hm : m.Obeys typeDiscipline p t)
    (hs : s.Under p m.context.names) (he : e ∈ s.function.exprs)
    (hclean : (e.infer (s.function.checker p)).2 = [])
    (h : (Task.eval s e).Arises p rounds m (.fault (.analyzerDefect d)) m') :
    (Task.eval s e).Missed p d := by
  have hD := typeDiscipline_judges_of_confinesAny hp hcheck hany
  have hf := hs.wellTyped hp hcheck hany
  have hcode := Site.code_keeps hD rounds hs
  have hJ := hs.sound hD
  have hparts {x : Expr} (hx : x ∈ e.parts) : x ∈ s.function.exprs :=
    s.function.mem_exprs_of_part he hx
  cases h with
  | frame _ _ hy hrun => exact absurd hrun hy.spares
  | @item _ elem before after x vs v _ m₁ _ _ hbefore hv hbind =>
    have hitems : ∀ y ∈ before ++ x :: after, y ∈ s.function.exprs ∧
        ∀ w, y.Gives (s.function.checker p) w → w.Fits elem :=
      fun y hy => ⟨hparts hy, fun w hw => fits_item hf he hy hw.fits⟩
    obtain ⟨_, _, hm₁, hs₁, _⟩ := hs.after hm (fun _ =>
      evalItems_keeps hcode hJ.exprs elem before (fun y hy =>
        (hitems y (List.mem_append_left _ hy)).imp id fun hfits w hw => (hfits w hw).binds) t)
      hbefore
    obtain ⟨hx, hfits⟩ := hitems x (by simp)
    obtain ⟨_, _, _, _, hgives⟩ := hs₁.gives hp hcheck hany hm₁ hx hv
    rw [(hfits v hgives).bind_eq_ok] at hbind
    cases hbind
  | unknownStruct hnone =>
    have hnone : (s.function.checker p).program.struct? _ = none := hnone
    simp [Expr.infer, hnone] at hclean
  | @initField _ name field before after x decl fields v _ m₁ _ _ hdecl hbefore hv hinit =>
    have hentries : ∀ entry ∈ before ++ (field, x) :: after, entry.2 ∈ s.function.exprs ∧
        ∀ ty w, decl.fieldType? entry.1 = some ty → entry.2.Gives (s.function.checker p) w →
          w.Fits ty :=
      fun entry hentry => ⟨hparts (List.mem_map_of_mem hentry),
        fun ty w hty hw => fits_given hf he hentry hdecl hty hw.fits⟩
    obtain ⟨_, _, hm₁, hs₁, hfields⟩ := hs.after hm (fun _ =>
      evalFields_keeps hcode hJ.exprs decl _ before (fun entry hentry =>
        (hentries entry (List.mem_append_left _ hentry)).imp id
          fun hfits ty w hty hw => (hfits ty w hty hw).binds) t
        (typeDiscipline.fieldsOf_default t decl)) hbefore
    obtain ⟨hx, hfits⟩ := hentries (field, x) (by simp)
    obtain ⟨_, _, _, _, hgives⟩ := hs₁.gives hp hcheck hany hm₁ hx hv
    have hdecl' : (s.function.checker p).program.struct? name = some decl := hdecl
    simp only [Expr.infer, hdecl'] at hclean
    obtain ⟨ty, hty, _⟩ := mem_inferFields hclean (field, x) (by simp)
    have hsome := Heap.isSome_field? hfields hty
    have hbind := (hfits ty v hty hgives).bind_eq_ok
    simp [initField, hty, bindAs, hbind, hsome, bind, Except.bind] at hinit
  | payload hv hnone =>
    simp only [Expr.infer] at hclean
    obtain ⟨_, _, _, _, hgives⟩ := hs.gives hp hcheck hany hm (hparts (by simp [Expr.parts])) hv
    have hfits := hgives.fits
    rw [eq_of_compatible rfl (expecting_eq_nil.mp hclean).2] at hfits
    obtain ⟨text, rfl⟩ := hfits.exists_str
    cases hnone
  | @element _ base key container k _ m₁ _ _ hbase hkey helement =>
    obtain ⟨_, hm₁, hs₁, _, hcontainer⟩ :=
      hs.gives hp hcheck hany hm (hparts (by simp [Expr.parts])) hbase
    obtain ⟨_, _, _, _, hk⟩ := hs₁.gives hp hcheck hany hm₁ (hparts (by simp [Expr.parts])) hkey
    have hne := hs.part_ne_any hp hcheck hany he rfl (x := base) (by simp [Expr.parts])
    simp only [Expr.infer] at hclean
    exact absurd helement (element_spares hcontainer.fits hk.fits hne hclean)
  | @member _ base name target _ _ _ hbase hmember =>
    obtain ⟨u, hm', _, hknows, htarget⟩ :=
      hs.gives hp hcheck hany hm (hparts (by simp [Expr.parts])) hbase
    have hne := hs.part_ne_any hp hcheck hany he rfl (x := base) (by simp [Expr.parts])
    simp only [Expr.infer, List.append_eq_nil_iff] at hclean
    refine absurd hmember (fieldOf_spares (c := s.function.checker p) htarget.fits hne hclean.2 ?_)
    rintro struct id rfl
    exact exists_declared hm' hknows _
  | unary hv happly => exact unary_missed hp hcheck hany hm hs he hv happly
  | binary hleft _ hright happly => exact binary_missed hp hcheck hany hm hs he hleft hright happly
  | cast hv hcast => exact absurd hcast Value.cast_spares
  | noValue hcall hvs =>
    obtain ⟨name, hfound⟩ := hs.found
    obtain ⟨_, _, _, _, _, hall⟩ := hs.afterResults hD hm he hvs
    have hknown := hany.isDynamic_eq_false hcheck (Program.mem_functions hfound) he
    have hempty := List.forall₂_nil_right_iff.mp (fitsAll_of_yieldsAll hall hknown)
    have hmem := (Expr.inferAll_clean hclean).2
    rw [hempty] at hmem
    cases hmem

/-- Of the defects that a write to an element may come upon, only those of documents are missed. -/
theorem writeElement_missed {v : Value} {base key : Expr} (hm : m.Obeys typeDiscipline p t)
    (hs : s.Under p m.context.names)
    (htakes : (typeJudgement p s.function).Takes (.index base key) v)
    (h : (Task.write s v (.index base key)).Arises p rounds m (.fault (.analyzerDefect d)) m') :
    (Task.write s v (.index base key)).Missed p d := by
  have hf := hs.wellTyped hp hcheck hany
  have hclean := (hs.target_clean hcheck (fun _ f _ => typeJudgement_ofText p f) htakes).1
  have hJ := hs.sound (typeDiscipline_judges_of_confinesAny hp hcheck hany)
  have hbaseMem := hJ.targets.target htakes (e := base) (by simp [Target.parts])
  have hkeyMem := hJ.targets.target htakes (e := key) (by simp [Target.parts])
  obtain ⟨⟨st, hst, htarget⟩, hv⟩ := htakes
  have htyped := hf.guards.targets st hst _ htarget
  simp only [Target.isTyped, Bool.and_eq_true, bne_iff_ne] at htyped
  have hfits {container k : Value} {m₁ : Machine}
      (hbase : (base.eval (s.code p rounds)).on m = (.ok container, m₁))
      (hkey : (key.eval (s.code p rounds)).on m₁ = (.ok k, m')) :
      container.Fits (base.infer (s.function.checker p)).1 ∧
        k.Fits (key.infer (s.function.checker p)).1 := by
    obtain ⟨_, hm₁, hs₁, _, hcontainer⟩ := hs.gives hp hcheck hany hm hbaseMem hbase
    obtain ⟨_, _, _, _, hk⟩ := hs₁.gives hp hcheck hany hm₁ hkeyMem hkey
    exact ⟨hcontainer.fits, hk.fits⟩
  generalize hx : Failure.fault (.analyzerDefect d) = x at h
  cases h with
  | frame _ _ hy hrun =>
    cases hx
    exact absurd hrun hy.spares
  | writeToNull _ _ => exact absurd (Failure.fault.inj hx).symm (nullFault_ne base)
  | arrayIndex hbase hkey hk =>
    cases hx
    obtain ⟨hcontainer, hkey⟩ := hfits hbase hkey
    rcases index_cases hcontainer hkey htyped.1 hclean with
      ⟨_, h⟩ | ⟨_, _, n, _, rfl⟩ | ⟨_, _, h, _⟩ | ⟨_, _, h⟩
    · cases h
    · cases hk
    · cases h
    · cases h
  | elementBind hbase hkey hbind =>
    have hbase := (hfits hbase hkey).1
    simp only [Target.infer, indexType, elem_eq_of_target hf hst htarget hbase] at hv
    rw [hv.bind_eq_ok] at hbind
    cases hbind
  | negativeIndex _ _ _ => cases hx
  | mapKey hbase hkey hk =>
    cases hx
    obtain ⟨hcontainer, hkey⟩ := hfits hbase hkey
    rcases index_cases hcontainer hkey htyped.1 hclean with
      ⟨_, h⟩ | ⟨_, _, _, h, _⟩ | ⟨_, text, _, rfl⟩ | ⟨_, _, h⟩
    · cases h
    · cases h
    · cases hk
    · cases h
  | notIndexable hbase hkey hnull harray hmap =>
    cases hx
    obtain ⟨hcontainer, hkey⟩ := hfits hbase hkey
    rcases index_cases hcontainer hkey htyped.1 hclean with
      ⟨tag, rfl⟩ | ⟨elem, id, _, rfl, _⟩ | ⟨id, _, rfl, _⟩ | ⟨hty, doc, rfl⟩
    · cases hnull
    · exact absurd rfl (harray elem id)
    · exact absurd rfl (hmap id)
    · exact .element hty

/-- Of the defects that a write to a field may come upon, only those of documents and connectors are
missed. -/
theorem writeField_missed {v : Value} {base : Expr} {name : String}
    (hm : m.Obeys typeDiscipline p t) (hs : s.Under p m.context.names)
    (htakes : (typeJudgement p s.function).Takes (.field base name) v)
    (h : (Task.write s v (.field base name)).Arises p rounds m (.fault (.analyzerDefect d)) m') :
    (Task.write s v (.field base name)).Missed p d := by
  have hf := hs.wellTyped hp hcheck hany
  have hclean := (hs.target_clean hcheck (fun _ f _ => typeJudgement_ofText p f) htakes).1
  simp only [Target.infer, List.append_eq_nil_iff] at hclean
  have hJ := hs.sound (typeDiscipline_judges_of_confinesAny hp hcheck hany)
  have hbaseMem := hJ.targets.target htakes (e := base) (by simp [Target.parts])
  obtain ⟨⟨st, hst, htarget⟩, hv⟩ := htakes
  have htyped := hf.guards.targets st hst _ htarget
  simp only [Target.isTyped, Bool.and_eq_true, bne_iff_ne] at htyped
  generalize hx : Failure.fault (.analyzerDefect d) = x at h
  cases h with
  | frame _ _ hy hrun =>
    cases hx
    exact absurd hrun hy.spares
  | writeFieldOfNull _ => exact absurd (Failure.fault.inj hx).symm (nullFault_ne base)
  | @fieldBind _ _ struct id _ _ _ _ _ hbase hbind =>
    obtain ⟨_, _, _, _, hgives⟩ := hs.gives hp hcheck hany hm hbaseMem hbase
    refine absurd hbind (Value.Fits.bindAs_ne_error (fun ty hty => ?_) _)
    obtain ⟨decl, hdecl, hty⟩ := Option.bind_eq_some_iff.mp hty
    have hdecl : (s.function.checker p).program.struct? struct = some decl := hdecl
    simpa only [Target.infer, fieldType, struct_eq_of_target hf hst htarget hgives.fits, hdecl,
      hty] using hv
  | @noStructField _ _ struct id _ _ _ _ hbase hnone =>
    obtain ⟨_, hm', _, hknows, hgives⟩ := hs.gives hp hcheck hany hm hbaseMem hbase
    obtain ⟨decl, hdecl, hsome⟩ := exists_declared hm' hknows name
    rcases field_cases hgives.fits htyped.1 hclean.2 with ⟨_, h⟩ | ⟨struct', _, _, heq, hfield⟩ |
      ⟨_, _, _, h, _⟩ | ⟨_, _, h⟩
    · cases h
    · cases heq
      obtain ⟨ty, hty⟩ := hfield decl hdecl
      have hsome := hsome ty hty
      rw [hnone] at hsome
      cases hsome
    · cases h
    · cases h
  | noField hbase hnull hstruct =>
    cases hx
    obtain ⟨_, _, _, _, hgives⟩ := hs.gives hp hcheck hany hm hbaseMem hbase
    rcases field_cases hgives.fits htyped.1 hclean.2 with ⟨tag, rfl⟩ | ⟨struct, id, _, rfl, _⟩ |
      ⟨connector, id, hty, rfl, _⟩ | ⟨hty, doc, rfl⟩
    · cases hnull
    · exact absurd rfl (hstruct struct id)
    · exact .field hty (.inr rfl)
    · exact .field hty (.inl rfl)

/-- Of the defects that an assignment may come upon, only those of places that cannot be assigned to
are missed. -/
theorem write_missed {v : Value} {target : Target} (hm : m.Obeys typeDiscipline p t)
    (hs : s.Under p m.context.names) (htakes : (typeJudgement p s.function).Takes target v)
    (h : (Task.write s v target).Arises p rounds m (.fault (.analyzerDefect d)) m') :
    (Task.write s v target).Missed p d := by
  cases target with
  | var x =>
    cases h with
    | frame _ _ hy hrun => exact absurd hrun hy.spares
    | slot hslot hbind =>
      refine absurd hbind (Value.Fits.bindAs_ne_error (fun ty hty => ?_) _)
      simpa only [Target.infer, hslot, slotType,
        show (s.function.checker p).slots[_]? = some ty from hty, Option.getD_some] using htakes.2
  | index base key => exact writeElement_missed hp hcheck hany hm hs htakes h
  | field base name => exact writeField_missed hp hcheck hany hm hs htakes h

/-- A statement comes upon no defect by itself. -/
theorem stmt_spares {st : Stmt} (hm : m.Obeys typeDiscipline p t)
    (hs : s.Under p m.context.names) (hst : st ∈ statementsOf s.function.body) :
    ¬ (Task.stmt s st).Arises p rounds m (.fault (.analyzerDefect d)) m' := by
  have hD := typeDiscipline_judges_of_confinesAny hp hcheck hany
  have hf := hs.wellTyped hp hcheck hany
  have hexprs {e : Expr} (he : e ∈ st.exprs) : e ∈ s.function.exprs :=
    (hs.sound hD).stmts.expr hst he
  obtain ⟨inLoop, hclean⟩ := hf.stmts st hst
  intro h
  cases h with
  | frame _ _ hy hrun => exact hy.spares hrun
  | start hv hbind =>
    obtain ⟨_, _, _, _, hgives⟩ := hs.gives hp hcheck hany hm (hexprs (by simp [Stmt.exprs])) hv
    rw [(fits_start hf hst hgives.fits).bind_eq_ok] at hbind
    cases hbind
  | @default _ _ ty _ _ _ hbind =>
    rw [ty.fits_default.bind_eq_ok] at hbind
    cases hbind
  | @assignmentCount _ targets value vs _ _ htargets hvs hcount =>
    have hvalue := hexprs (e := value) (by simp [Stmt.exprs])
    obtain ⟨_, _, _, _, _, hall⟩ := hs.afterResults hD hm hvalue hvs
    exact hcount (fits_assignedAll hf hst htargets hall).length_eq.symm
  | condition hv hcond =>
    obtain ⟨_, _, _, _, hgives⟩ := hs.gives hp hcheck hany hm (hexprs (by simp [Stmt.exprs])) hv
    have hfits := hgives.fits
    simp only [Stmt.check, List.append_eq_nil_iff] at hclean
    rw [eq_of_compatible rfl (expecting_eq_nil.mp hclean.1).2] at hfits
    obtain ⟨b, rfl⟩ := hfits.exists_bool
    cases hcond

/-- The condition of a loop is a truth value. -/
theorem loop_spares {cond : Expr} {body : List Stmt} {n : Nat} (hm : m.Obeys typeDiscipline p t)
    (hs : s.Under p m.context.names) (hcond : cond ∈ s.function.exprs)
    (hclean : (Task.loop s cond body n).Checked p) :
    ¬ (Task.loop s cond body n).Arises p rounds m (.fault (.analyzerDefect d)) m' := by
  intro h
  cases h with
  | frame _ _ hy hrun => exact hy.spares hrun
  | loopCondition hv hbool =>
    obtain ⟨_, _, _, _, hgives⟩ := hs.gives hp hcheck hany hm hcond hv
    have hfits := hgives.fits
    rw [eq_of_compatible rfl (expecting_eq_nil.mp hclean).2] at hfits
    obtain ⟨b, rfl⟩ := hfits.exists_bool
    cases hbool

omit hp hcheck hany in
/-- Results go where they are declared to. -/
theorem finish_spares {index : Nat} {vs : List Value}
    (hclean : (Task.finish s index vs).Checked p) :
    ¬ (Task.finish s index vs).Arises p rounds m (.fault (.analyzerDefect d)) m' := by
  intro h
  cases h with
  | frame _ _ hy hrun => exact hy.spares hrun
  | @result _ _ v vs _ _ hbind =>
    refine Value.Fits.bindAs_ne_error (fun ty hty => ?_) _ hbind
    obtain ⟨ty', tys, hfits, _, htys⟩ := List.forall₂_cons_right_iff.mp hclean
    have hhead : (s.function.sig.returns.drop index)[0]? = some ty' := by rw [htys]; rfl
    rw [List.getElem?_drop, Nat.add_zero, hty] at hhead
    cases hhead
    exact hfits

/-- A call that is evaluated for its results comes upon no defect by itself. -/
theorem results_spares {e : Expr} (hm : m.Obeys typeDiscipline p t)
    (hs : s.Under p m.context.names) (he : e ∈ s.function.exprs) :
    ¬ (Task.results s e).Arises p rounds m (.fault (.analyzerDefect d)) m' := by
  intro h
  cases h with
  | frame _ _ hy hrun => exact hy.spares hrun
  | unresolved hnone => exact (OfCalls.resolve _ _).ne_analyzerDefect d hnone
  | @notConnector _ target name args stage v _ _ _ htarget hname =>
    have hmem := s.function.mem_exprs_of_part he (x := target) (by simp [Expr.parts])
    obtain ⟨_, _, _, _, hgives⟩ := hs.gives hp hcheck hany hm hmem htarget
    have hne := hs.part_ne_any hp hcheck hany he rfl (x := target) (by simp [Expr.parts])
    have hclean := (hs.wellTyped hp hcheck hany).exprs _ he
    obtain ⟨_, _, hconnector⟩ := actionTypes_clean (by simpa only [Expr.inferAll] using hclean)
    obtain ⟨connector, _, hty, _⟩ := hconnector hne
    exact connectorName_spares (hty ▸ hgives.fits) hname
  | unresolvedAction _ _ _ _ hnone => exact (OfCalls.resolve _ _).ne_analyzerDefect d hnone

omit hcheck hany in
/-- A native unit that runs on its frame reads its arguments as what they are. -/
theorem native_spares {unit : NativeUnit} {name : String} {rest : List String}
    (hm : m.Obeys typeDiscipline p t) (hfound : p.find? name = some (.native unit))
    (hnames : m.context.names = unit.sig.qualifiedName :: rest) :
    unit.handler.Has fun _ run =>
      ∀ m', run.on m ≠ (.error (.failed (.fault (.analyzerDefect d))), m') := by
  obtain ⟨f, fs, hframes, hf⟩ :=
    Keeps.exists_frame (c := .native unit) (hp.find?_qualifiedName hfound) hm hnames
  have hslots : List.Forall₂ (fun ty v => Value.Fits ty v) unit.sig.paramTypes f.slots :=
    hf.slots.imp fun _ _ h => h.holds.fits
  obtain ⟨package, hpackage, hunit⟩ := hp.mem_packages hfound
  exact (SparesDefects.closed.handler hpackage hunit).imp fun _ _ hspares =>
    (hspares m f fs hframes hslots).1 d

omit hany in
/-- A callable that runs on its frame comes upon no defect by itself. -/
theorem dispatch_spares {levels : Nat} {unit : Callable} (hm : m.Obeys typeDiscipline p t)
    (hknown : (Task.dispatch levels unit).KnownIn typeDiscipline (typeJudgement p) p t
      m.context.names) :
    ¬ (Task.dispatch levels unit).Arises p rounds m (.fault (.analyzerDefect d)) m' := by
  obtain ⟨⟨name, hfound⟩, rest, hnames⟩ := hknown
  intro h
  cases h with
  | frame _ _ hy hrun => exact hy.spares hrun
  | @strayJump _ f flow _ _ hbody hflow =>
    have hclean := Program.checkBlock_clean hcheck (Program.mem_functions hfound)
    rcases hflow with rfl | rfl <;>
      rcases flow_of_checkBlock f.body hclean hbody with hjump | hjump <;> cases hjump
  | @handler _ unit run _ _ _ hrun hfails =>
    have hspares := native_spares (d := d) hp hm hfound hnames
    rw [hrun] at hspares
    exact hspares m' hfails
  | @mapper _ unit run _ _ _ hrun hfails =>
    have hspares := native_spares (d := d) hp hm hfound hnames
    rw [hrun] at hspares
    exact hspares m' hfails

/-- Whatever defect a task of a run comes upon by itself is one that is missed. -/
theorem Task.Arises.missed {task : Task}
    (hbegun : task.BegunWell typeDiscipline (typeJudgement p) p m) (hchecked : task.Checked p)
    (h : task.Arises p rounds m (.fault (.analyzerDefect d)) m') : task.Missed p d := by
  obtain ⟨t, hm, hknown⟩ := hbegun
  cases task with
  | eval s e => exact eval_missed hp hcheck hany hm hknown.1 hknown.2 hchecked h
  | write s v target => exact write_missed hp hcheck hany hm hknown.1 hknown.2.2 h
  | stmt s st => exact absurd h (stmt_spares hp hcheck hany hm hknown.1 hknown.2)
  | loop s cond body n =>
    exact absurd h (loop_spares hp hcheck hany hm hknown.1 hknown.2.1 hchecked)
  | finish s index vs => exact absurd h (finish_spares hchecked)
  | results s e => exact absurd h (results_spares hp hcheck hany hm hknown.1 hknown.2)
  | dispatch levels unit => exact absurd h (dispatch_spares hp hcheck hm hknown)
  | call levels unit args =>
    cases h with
    | frame _ _ hy hrun => exact absurd hrun hy.spares
    | notAdmitted hrefused => exact absurd hrefused ((OfCalls.prepare _ _).ne_analyzerDefect d)
  | store unit index vs tys =>
    cases h with
    | frame _ _ hy hrun => exact absurd hrun hy.spares
    | nativeResult hresult =>
      exact absurd hresult ((OfCalls.nativeResult _ _ _).ne_analyzerDefect d)
  | block s ss =>
    cases h with
    | frame _ _ hy hrun => exact absurd hrun hy.spares

end Accepted

/-! ## Runs -/

/-- **All defects but those of five kinds are ruled out.** Let a program load with the standard
library, let the analysis find nothing in it, and let the top type be neither written in it nor
inferred for anything but operands of conversions. Let a call with values read from documents at any
types end with a defect of the analysis. Then some task of the run comes upon the defect as one that
the analysis misses: a unary operator on an operand of a type on which it is not defined, a text
that is joined with a null, a comparison of nulls whose tags are not known from their types, or an
assignment to a part of a document or to a parameter of a connector.

**Proof sketch.** The failure comes up in some task of the run by itself (`Task.Fails.arises`). That
task is begun with values of the types that are inferred for its parts, and nothing is found in it.
For each kind of failure, this leaves at most the defects of the list. -/
theorem missed_of_analyzerDefect {source : Source} {e : Engine}
    (hload : Program.load source Library.standard = .ok e.program)
    (hcheck : e.program.check = []) (hany : e.program.ConfinesAny)
    {inputs : List (Json × Ty)} {args : List Value} {heap : Heap}
    (hread : (e.program.readInputs inputs).run {} = .ok (args, heap))
    {name : String} {unit : Callable} (hunit : e.program.find? name = some unit)
    (properties : Dict String) (rounds levels : Nat) {d : Defect} {m : Machine}
    (hfails : (call e.program rounds levels unit args).on (e.machine heap properties) =
      (.error (.failed (.fault (.analyzerDefect d))), m)) :
    ∃ task m₀, Task.Reaches e.program rounds (.call levels unit args) (e.machine heap properties)
      task m₀ ∧ task.Missed e.program d := by
  have hp := Program.load_linked hload
  have hbegun : (Task.call levels unit args).BegunWell typeDiscipline (typeJudgement e.program)
      e.program (e.machine heap properties) :=
    Task.begunWell_of_inputs hread hunit (fun _ _ _ _ _ => trivial) properties levels
  have hfails : (Task.call levels unit args).Fails e.program rounds (e.machine heap properties)
      (.fault (.analyzerDefect d)) m := (bind_error _).mpr (.inl hfails)
  obtain ⟨task, m₀, m₁, hr, harises⟩ := hfails.arises
  obtain ⟨hbegun, hchecked⟩ := hr.checked hp hcheck hany hbegun trivial
  exact ⟨task, m₀, hr, harises.missed hp hcheck hany hbegun hchecked⟩

/-! ## Defects that are missed -/

/-- The defect that the fault is, if it is one. -/
def Fault.defect? : Fault → Option Defect
  | .analyzerDefect d => some d
  | _ => none

/-- The defect that a call ends with if its arguments are read from the documents at the types. -/
def Program.defectOf? (p : Program) (name : String) (inputs : List (Json × Ty)) :
    Option Defect := do
  let unit ← p.find? name
  let read ← ((p.readInputs inputs).run {}).toOption
  let fault ← faultOf? ((call p 10 5 unit read.1).on (Engine.machine ⟨p, {}⟩ read.2 [])).1
  fault.defect?

/-- A call that ends with a defect. -/
theorem Program.exists_of_defectOf? {p : Program} {name : String} {inputs : List (Json × Ty)}
    {d : Defect} (h : p.defectOf? name inputs = some d) :
    ∃ (unit : Callable) (heap : Heap) (args : List Value) (m : Machine),
      p.find? name = some unit ∧ (p.readInputs inputs).run {} = .ok (args, heap) ∧
      (call p 10 5 unit args).on (Engine.machine ⟨p, {}⟩ heap []) =
        (.error (.failed (.fault (.analyzerDefect d))), m) := by
  simp only [Program.defectOf?, Option.bind_eq_bind, Option.bind_eq_some_iff] at h
  obtain ⟨unit, hunit, read, hread, fault, hfault, hdefect⟩ := h
  have hread : (p.readInputs inputs).run {} = .ok (read.1, read.2) := by
    rcases hr : (p.readInputs inputs).run {} with error | pair <;> rw [hr] at hread <;> cases hread
    rfl
  have hfault' : fault = .analyzerDefect d := by
    cases fault <;> cases hdefect
    rfl
  subst hfault'
  exact ⟨unit, _, _, _, hunit, hread, on_of_faultOf? _ hfault⟩

/-- A program in which the analysis finds nothing. -/
def gapsSource : Source where
  connectors := [⟨"box", [⟨"label", .string⟩], []⟩]
  functions := [
    { name := "negated"
      params := [⟨"s", .string⟩]
      returns := [.string]
      body := [.result [.unary .neg (.var ⟨"s", none⟩)]] },
    { name := "joined"
      params := [⟨"doc", .ref .json⟩]
      returns := [.string]
      body := [.result [.binary .add (.str "a") (.index (.var ⟨"doc", none⟩) (.str "b"))]] },
    { name := "compared"
      params := [⟨"x", .ref .null⟩, ⟨"y", .ref .null⟩]
      returns := [.boolean]
      body := [.result [.binary .eq (.var ⟨"x", none⟩) (.var ⟨"y", none⟩)]] },
    { name := "entered"
      params := [⟨"doc", .ref .json⟩]
      returns := []
      body := [.assign [.index (.var ⟨"doc", none⟩) (.str "a")] (.var ⟨"doc", none⟩)] },
    { name := "renamed"
      params := [⟨"doc", .ref .json⟩]
      returns := []
      body := [.assign [.field (.var ⟨"doc", none⟩) "a"] (.var ⟨"doc", none⟩)] },
    { name := "relabeled"
      params := []
      returns := []
      body := [
        .define "box" (.ref (.connector "box")) (some (.connector "box" [.str "a"])) none,
        .assign [.field (.var ⟨"box", none⟩) "label"] (.str "b")] }]

/-- Calls of the program with their arguments, and the defects that they end with. -/
def gapsRuns : List (String × List (Json × Ty) × Defect) := [
  ("negated", [(.str "one", .string)], .operand .neg .string),
  ("joined", [(.obj [], .ref .json)], .nullOperands .add),
  ("compared", [(.null, .ref .json), (.null, .ref .map)], .incomparableNulls .json .map),
  ("entered", [(.obj [], .ref .json)], .notIndexable (.ref .json)),
  ("renamed", [(.obj [], .ref .json)], .noField (.ref .json) "a"),
  ("relabeled", [], .noField (.ref (.connector "box")) "label")]

theorem gapsSource_loadsTo : Program.loadsTo gapsSource Library.standard (fun p =>
    p.check.isEmpty && decide p.ConfinesAny &&
      gapsRuns.all fun run => p.defectOf? run.1 run.2.1 == some run.2.2) = true := by
  rw [Program.loadsTo_standard]
  decide +kernel

/-- **The analysis does not rule out all defects**: although it finds nothing in this program, and
the top type does not occur in it, each of the calls ends with a defect, and each of the kinds that
are missed is among these. -/
theorem analyzerDefect_gaps :
    ∃ e : Engine, Program.load gapsSource Library.standard = .ok e.program ∧
      e.program.check = [] ∧ e.program.ConfinesAny ∧
      ∀ run ∈ gapsRuns, ∃ (unit : Callable) (heap : Heap) (args : List Value) (m : Machine),
        e.program.find? run.1 = some unit ∧
        (e.program.readInputs run.2.1).run {} = .ok (args, heap) ∧
        (call e.program 10 5 unit args).on (e.machine heap []) =
          (.error (.failed (.fault (.analyzerDefect run.2.2))), m) := by
  obtain ⟨p, hload, htest⟩ := Program.exists_of_loadsTo gapsSource_loadsTo
  simp only [Bool.and_eq_true, List.isEmpty_iff, decide_eq_true_eq, List.all_eq_true,
    beq_iff_eq] at htest
  obtain ⟨⟨hcheck, hany⟩, hruns⟩ := htest
  exact ⟨⟨p, {}⟩, hload, hcheck, hany, fun run hrun => Program.exists_of_defectOf? (hruns run hrun)⟩

/-- The theorem on what is missed applies to all of these calls. -/
theorem missed_of_analyzerDefect_gaps :
    ∃ e : Engine, Program.load gapsSource Library.standard = .ok e.program ∧
      e.program.check = [] ∧ e.program.ConfinesAny ∧
      ∀ run ∈ gapsRuns, ∃ (unit : Callable) (heap : Heap) (args : List Value) (m : Machine),
        e.program.find? run.1 = some unit ∧
        (e.program.readInputs run.2.1).run {} = .ok (args, heap) ∧
        (call e.program 10 5 unit args).on (e.machine heap []) =
          (.error (.failed (.fault (.analyzerDefect run.2.2))), m) ∧
        ∃ task m₀, Task.Reaches e.program 10 (.call 5 unit args) (e.machine heap []) task m₀ ∧
          task.Missed e.program run.2.2 := by
  obtain ⟨p, hload, htest⟩ := Program.exists_of_loadsTo gapsSource_loadsTo
  simp only [Bool.and_eq_true, List.isEmpty_iff, decide_eq_true_eq, List.all_eq_true,
    beq_iff_eq] at htest
  obtain ⟨⟨hcheck, hany⟩, hruns⟩ := htest
  let e : Engine := ⟨p, {}⟩
  refine ⟨e, hload, hcheck, hany, fun run hrun => ?_⟩
  obtain ⟨unit, heap, args, m, hunit, hread, hfails⟩ := Program.exists_of_defectOf? (hruns run hrun)
  exact ⟨unit, heap, args, m, hunit, hread, hfails,
    missed_of_analyzerDefect (e := e) hload hcheck hany hread hunit [] 10 5 hfails⟩

end FrameScript
