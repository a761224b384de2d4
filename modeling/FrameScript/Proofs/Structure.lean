import FrameScript.Proofs.Analysed
import FrameScript.Proofs.Beyond
import FrameScript.Proofs.Staging
import FrameScript.Proofs.Standard

set_option autoImplicit false
set_option linter.unusedSectionVars false

/-!
# What the analysis makes sure of without types

Some faults are of the structure of a program: a callee is not there or takes another number of
arguments, a jump leaves no loop, there are other numbers of values than of places, a part was put
together wrongly. In a program without actions the analysis rules them out, whatever is stored under
the top type: names, numbers of arguments and numbers of values do not depend on the types of
values. Which callee an action calls does, so actions are left out here.

## Main definitions

* `Program.ActionFree` — programs that call no actions.
* `structureDiscipline`, `structureJudgement` — the discipline that asks only for connectors that
  are built from as many values as they declare, and the judgement that expressions have as many
  values as are inferred for them.
* `NativeUnit.HandsOverDeclared` — a native unit that hands over values of the types it declares.
* `Task.Structured` — the numbers of values that a task is begun with.

## Main results

* `Library.handsOverDeclared`, `Library.raises_ofArguments` — what the standard library hands over,
  and how it fails.
* `structureDiscipline_judges` — the discipline judges the programs that the analysis accepts.
* `Task.Arises.not_isStructural` — no fault that comes up in a task is one of structure.
* `not_isStructural_of_fails` — no call ends with a fault of structure.
-/

namespace FrameScript

open Checker Exec

/-! ## Programs without actions -/

/-- The expression calls an action. -/
def Expr.isAction : Expr → Bool
  | .action _ _ _ _ => true
  | _ => false

/-- No function of the program calls an action. -/
def Program.ActionFree (p : Program) : Prop :=
  ∀ f ∈ p.functions, ∀ e ∈ f.exprs, e.isAction = false

instance (p : Program) : Decidable p.ActionFree :=
  inferInstanceAs (Decidable (∀ f ∈ p.functions, ∀ e ∈ f.exprs, e.isAction = false))

/-! ## Native units -/

section Handlers

variable {α β : Type}

/-- A computation that ends with values of a kind only, if it ends with a value. -/
def HandsOver (kind : α → Prop) (x : Exec α) : Prop :=
  ∀ m a m', x.on m = (.ok a, m') → kind a

namespace HandsOver

variable {kind : α → Prop}

theorem pure {a : α} (h : kind a) : HandsOver kind (pure a) := by
  intro m a' m' h'
  cases h'
  exact h

theorem hostError (message : String) : HandsOver kind (hostError message) := by
  intro m a m' h
  cases h

theorem bind {x : Exec β} {k : β → Exec α} (hk : ∀ b, HandsOver kind (k b)) :
    HandsOver kind (x >>= k) := by
  intro m a m' h
  obtain ⟨b, m₁, -, h⟩ := (bind_ok m).mp h
  exact hk b m₁ a m' h

/-- What follows a value of a kind needs to be looked at for values of that kind only. -/
theorem bind_of {kind' : β → Prop} {x : Exec β} {k : β → Exec α} (hx : HandsOver kind' x)
    (hk : ∀ b, kind' b → HandsOver kind (k b)) : HandsOver kind (x >>= k) := by
  intro m a m' h
  obtain ⟨b, m₁, hb, h⟩ := (bind_ok m).mp h
  exact hk b (hx m b m₁ hb) m₁ a m' h

theorem newArray (elem : Ty) (items : Array Value) :
    HandsOver (fun v => v.ty = .arrayOf elem) (make (Heap.newArray elem items)) := by
  intro m v m' h
  cases h
  rfl

end HandsOver

/-- The unit hands over values of just the types that it declares. -/
def NativeUnit.HandsOverDeclared (unit : NativeUnit) : Prop :=
  match unit.handler with
  | .function run => HandsOver (fun vs => vs.map (·.ty) = unit.sig.returns) run
  | .typeMapper run => HandsOver (fun v => unit.sig.returns = [v.ty]) run

namespace Library

variable {unit : NativeUnit}

theorem strings_handOver (hunit : unit ∈ strings.units) : unit.HandsOverDeclared := by
  simp only [strings, List.mem_cons, List.not_mem_nil, or_false] at hunit
  rcases hunit with rfl | rfl | rfl | rfl | rfl | rfl | rfl
  · exact .bind fun _ => .pure rfl
  · exact .bind fun _ => .pure rfl
  · exact .bind fun _ => .pure rfl
  · exact .bind fun _ => .pure rfl
  · exact .bind fun _ => .pure rfl
  · exact .bind fun _ => .pure rfl
  · exact .bind fun _ => .bind fun _ => .pure rfl

theorem arrays_handOver (hunit : unit ∈ arrays.units) : unit.HandsOverDeclared := by
  simp only [arrays, List.mem_cons, List.not_mem_nil, or_false] at hunit
  subst hunit
  refine .bind fun v => ?_
  split
  · exact .bind fun _ => .pure rfl
  · exact .hostError _

theorem maps_handOver (hunit : unit ∈ maps.units) : unit.HandsOverDeclared := by
  simp only [maps, List.mem_cons, List.not_mem_nil, or_false] at hunit
  rcases hunit with rfl | rfl | rfl
  · refine .bind fun _ => .bind fun _ => .bind_of (.newArray _ _) fun v hv => .pure ?_
    rw [List.map_singleton, hv]
    rfl
  · exact .bind fun _ => .bind fun _ => .bind fun _ => .pure rfl
  · exact .bind fun _ => .bind fun _ => .bind fun _ => .pure rfl

theorem system_handOver (hunit : unit ∈ system.units) : unit.HandsOverDeclared := by
  simp only [system, List.mem_cons, List.not_mem_nil, or_false] at hunit
  rcases hunit with rfl | rfl | rfl
  · exact .bind fun _ => .bind fun _ => .pure rfl
  · exact .bind fun _ => .bind fun _ => .pure rfl
  · exact .bind fun _ => .bind fun _ => .pure rfl

theorem convertors_handOver (hunit : unit ∈ convertors.units) : unit.HandsOverDeclared := by
  simp only [convertors, List.mem_cons, List.not_mem_nil, or_false] at hunit
  rcases hunit with rfl | rfl | rfl | rfl
  · refine .bind fun v => ?_
    split
    · exact .pure rfl
    · exact .hostError _
  · refine .bind fun v => ?_
    split
    · exact .pure rfl
    · exact .hostError _
  · refine .bind fun s => ?_
    split
    · exact .pure rfl
    · exact .hostError _
  · exact .bind fun _ => .pure rfl

/-- **The standard library hands over what it declares**: as many values as there are results, each
of the type of its result. -/
theorem handsOverDeclared {key : String} (h : (key, unit) ∈ standard.units) :
    unit.HandsOverDeclared := by
  obtain ⟨package, hpackage, hunit⟩ := mem_standard h
  simp only [packages, List.mem_cons, List.not_mem_nil, or_false] at hpackage
  rcases hpackage with rfl | rfl | rfl | rfl | rfl
  · exact strings_handOver hunit
  · exact arrays_handOver hunit
  · exact maps_handOver hunit
  · exact system_handOver hunit
  · exact convertors_handOver hunit

/-- Reading an argument fails with a fault of arguments. -/
theorem argument_raises (index : Nat) :
    RaisesIn (·.isOfArguments = true) (Exec.argument index) := by
  refine .bind (.frame rfl) fun f => .ofExcept ?_
  unfold Frame.argument Frame.nullableArgument Frame.get
  by_cases hindex : index < f.argCount
  · rw [if_pos hindex]
    rcases f.slots[index]? with _ | v
    · exact .error rfl
    · dsimp only
      split
      · exact .error rfl
      · exact .ok v
  · rw [if_neg hindex]
    exact .error rfl

/-- The steps of the standard library fail with faults of arguments only. -/
theorem closed_raises : ClosedFor fun _ _ x => RaisesIn (·.isOfArguments = true) x where
  pure := .pure
  bind := .bind
  hostError _ _ _ _ h := by cases h
  argument := argument_raises
  argumentAs _ _ _ := by
    refine .bind (argument_raises _) fun v => ?_
    split
    · exact .pure _
    · exact .fault rfl
  heap _ _ _ h := by cases h
  newArray _ _ _ _ _ h := by cases h
  eraseEntry _ _ _ _ _ h := by cases h
  print _ _ _ _ h := by cases h
  property? _ _ _ _ h := by cases h

/-- Units of the standard library fail with faults of arguments only. -/
theorem raises_ofArguments {key : String} (h : (key, unit) ∈ standard.units) :
    unit.handler.Has fun _ run => RaisesIn (·.isOfArguments = true) run := by
  obtain ⟨package, hpackage, hunit⟩ := mem_standard h
  exact closed_raises.handler hpackage hunit

end Library

end Handlers

/-! ## The discipline -/

/-- Places may hold anything, but connectors are built from as many values as they declare. -/
def structureDiscipline : Discipline where
  Holds _ _ := True
  Builds p name args := ∃ params, p.connectorParams? name = some params ∧
    args.length = params.length
  Hands _ _ := True
  default _ := trivial
  admits _ _ _ _ := trivial
  handsPresent _ _ _ := trivial

/-- Expressions have as many values as types are inferred for them, and anything for a value. -/
def structureJudgement (p : Program) (f : Function) : Judgement where
  Admits e := e ∈ f.exprs
  Yields _ _ := True
  YieldsAll e vs := vs.length = (e.inferAll (f.checker p)).1.length
  Takes target _ := ∃ s ∈ statementsOf f.body, target ∈ s.targets
  Runs s := s ∈ statementsOf f.body

theorem structureJudgement_ofText (p : Program) (f : Function) :
    (structureJudgement p f).OfText f where
  expr he := he
  stmt hs := hs
  target htakes := htakes

theorem structureDiscipline_binds (ty : Ty) (v : Value) : structureDiscipline.Binds ty v :=
  fun _ _ => trivial

section Sound

variable {p : Program} {f : Function} (hslotted : BlockSlotted f.layout.slots f.body)
  (hclean : checkBlock (f.checker p) f.sig.returns false f.body = [])
  (hfree : ∀ e ∈ f.exprs, e.isAction = false)

include hclean hfree

/-- In a function without actions in which nothing is found, expressions have the numbers of values
that are inferred for them. -/
theorem structureJudgement_soundOnExprs :
    (structureJudgement p f).SoundOnExprs structureDiscipline p f where
  part he hx := f.mem_exprs_of_part he hx
  own _ _ := trivial
  var _ _ _ _ := trivial
  item _ _ _ := structureDiscipline_binds _ _
  given _ _ _ _ _ := structureDiscipline_binds _ _
  built he hvs := by
    obtain ⟨params, hparams, hargs⟩ := Expr.connector_clean (Function.exprs_clean hclean _ he)
    refine ⟨params, hparams, ?_⟩
    rw [← hvs.length_eq, ← hargs.length_eq, List.length_map]
  element _ _ _ := trivial
  member _ _ _ := trivial
  unary _ _ _ := trivial
  decided _ _ := trivial
  binary _ _ _ _ := trivial
  cast _ _ := trivial
  call := by
    intro callee args stage unit vs _ hunit hvs
    have hunit : (f.checker p).program.find? callee = some unit := Program.find?_of_resolve hunit
    simp only [structureJudgement, Expr.inferAll, callTypes, hunit]
    exact hvs.length_eq.symm
  action he _ _ _ := absurd (hfree _ he) (by simp [Expr.isAction])
  first _ _ := trivial
  only he _ := by simp [structureJudgement, Expr.inferAll_of_not_isCall he]

include hslotted

theorem structureJudgement_sound : (structureJudgement p f).Sound structureDiscipline p f where
  exprs := structureJudgement_soundOnExprs hclean hfree
  targets := {
    target := fun ⟨_, hs, ht⟩ he =>
      f.mem_exprs_of_top (f.mem_topExprs hs (Stmt.mem_exprs_of_target ht he))
    slot := fun _ _ _ => structureDiscipline_binds _ _
    item := fun _ _ => structureDiscipline_binds _ _
    field := fun _ _ _ _ => structureDiscipline_binds _ _ }
  stmts := {
    body := fun s hs => mem_statementsOf hs s.mem_withInner_self
    expr := fun hs he => f.mem_exprs_of_top (f.mem_topExprs hs he)
    inner := fun hs hinner => inner_mem_statementsOf hs hinner
    place := fun hs => by
      have hslotted := forall_statementsOf (P := fun s => s.Slotted f.layout.slots)
        (fun _ h _ hinner => h.inner hinner) (fun _ h => hslotted.of_mem h) _ hs
      simpa only [Stmt.Slotted] using hslotted
    start := fun _ _ => structureDiscipline_binds _ _
    assigned := fun hs _ => ⟨_, hs, List.mem_singleton_self _⟩
    assignedAll := fun hs _ _ hlen =>
      List.forall₂_iff_get.mpr ⟨hlen.symm, fun i h _ => ⟨_, hs, List.get_mem _ ⟨i, h⟩⟩⟩
    returns := fun _ _ _ _ ty v _ _ => structureDiscipline_binds ty v
    returnsAll := fun _ _ _ _ ty v _ _ => structureDiscipline_binds ty v }

end Sound

/-- The discipline judges every linked program without actions that the analysis accepts. -/
theorem structureDiscipline_judges {p : Program} (hp : p.Linked Library.standard)
    (hcheck : p.check = []) (hfree : p.ActionFree) :
    structureDiscipline.Judges (structureJudgement p) Library.standard p where
  linked := hp
  natives := by
    intro key u hu
    obtain ⟨package, hpackage, hmem⟩ := Library.mem_standard hu
    exact Library.keeps hpackage hmem
  sound := by
    intro name f hfound
    obtain ⟨decl, hlaid⟩ := hp.laidOut hfound
    have hf := Program.mem_functions hfound
    exact structureJudgement_sound hlaid.slotted (Program.checkBlock_clean hcheck hf) (hfree f hf)
  handsOver _ _ _ _ := .of_all fun _ _ => trivial

/-! ## Numbers of values -/

namespace Program.Linked

variable {p : Program} (hp : p.Linked Library.standard) {name : String} {unit : NativeUnit}
  (hfound : p.find? name = some (.native unit))

include hp hfound

/-- The native units of the program hand over what they declare. -/
theorem handsOverDeclared : unit.HandsOverDeclared := by
  cases hp.comesFrom hfound with
  | registered hmem => exact Library.handsOverDeclared hmem

/-- They fail with faults of arguments only. -/
theorem handler_raises : unit.handler.Has fun _ run => RaisesIn (·.isOfArguments = true) run := by
  cases hp.comesFrom hfound with
  | registered hmem => exact Library.raises_ofArguments hmem

/-- The results of a native unit have the declared types. -/
theorem handed_over {run : Exec (List Value)} {vs : List Value} {m m' : Machine}
    (hrun : unit.handler = .function run) (hvs : run.on m = (.ok vs, m')) :
    vs.map (·.ty) = unit.sig.returns := by
  have hdeclared := hp.handsOverDeclared hfound
  unfold NativeUnit.HandsOverDeclared at hdeclared
  rw [hrun] at hdeclared
  exact hdeclared _ _ _ hvs

/-- The result of a type mapper has the declared type. -/
theorem mapped_to {run : Exec Value} {v : Value} {m m' : Machine}
    (hrun : unit.handler = .typeMapper run) (hv : run.on m = (.ok v, m')) :
    unit.sig.returns = [v.ty] := by
  have hdeclared := hp.handsOverDeclared hfound
  unfold NativeUnit.HandsOverDeclared at hdeclared
  rw [hrun] at hdeclared
  exact hdeclared _ _ _ hv

omit hfound in
theorem nativesWithinReturns : p.NativesWithinReturns := fun _ _ hfound =>
  (hp.handler_raises hfound).imp fun _ _ h => h.imp fun _ hkind =>
    Fault.isBeyond_of_isStructural (Fault.isStructural_of_isOfArguments hkind)

end Program.Linked

/-- A result of the type that it is stored under is stored. -/
theorem nativeResult_ne_error {unit : NativeUnit} {v : Value} {ty : Ty} {f : Fault}
    (hty : v.ty = ty) : nativeResult unit ty v ≠ .error f := by
  unfold nativeResult
  intro h
  split at h
  next hnull =>
    rw [Bool.and_eq_true, ← hty] at hnull
    rw [Value.isNull_of_isValueType hnull.1] at hnull
    cases hnull.2
  · cases h

/-- As many staged values are taken out as are asked for. -/
theorem length_takeTemps {stage count : Nat} {vs : List Value} {m m' : Machine}
    (h : (takeTemps stage count).on m = (.ok vs, m')) : vs.length = count := by
  induction count generalizing stage vs m with
  | zero =>
    cases h
    rfl
  | succ count ih =>
    obtain ⟨v, m₁, -, h⟩ := (bind_ok m).mp h
    obtain ⟨vs', m₂, hrest, h⟩ := (bind_ok m₁).mp h
    cases h
    rw [List.length_cons, ih hrest]

theorem length_takeStaged {stage count : Nat} {vs : List Value} {m m' : Machine}
    (h : (takeStaged stage count).on m = (.ok vs, m')) : vs.length = count := by
  obtain ⟨_, m₁, -, h⟩ := (bind_ok m).mp h
  exact length_takeTemps h

/-- The values that a task is begun with: an argument for every parameter of a call, results of
native units of the types they are stored under, and a result of a body for every place that is
left. -/
def Task.Structured : Task → Prop
  | .call _ unit args => args.length = unit.sig.params.length
  | .store _ _ vs tys => vs.map (·.ty) = tys
  | .finish s index vs => index + vs.length = s.function.sig.returns.length
  | _ => True

/-- There is room for the results that are declared. -/
theorem setReturn_ne_error {p : Program} {t : HeapTyping} {D : Discipline} (unit : Callable)
    {rest : List String} {m m' : Machine} {index : Nat} {v : Value} {stop : Stop}
    (hunit : Dict.find? unit.sig.qualifiedName p.units = some unit) (hm : m.Obeys D p t)
    (hnames : m.context.names = unit.sig.qualifiedName :: rest)
    (hindex : index < unit.sig.returns.length) :
    (setReturn index v).on m ≠ (.error stop, m') := by
  obtain ⟨f, fs, hframes, hf⟩ := Keeps.exists_frame hunit hm hnames
  rw [hf.returns.length_eq] at hindex
  intro h
  rw [on_setReturn hframes hindex] at h
  cases h

section Accepted

variable {p : Program} (hp : p.Linked Library.standard) (hcheck : p.check = [])
  (hfree : p.ActionFree) {rounds : Nat} {s : Site} {m m' : Machine} {t : HeapTyping}

include hp hcheck hfree

/-- An expression that is evaluated for all its values has as many as are inferred for it. -/
theorem Site.Under.length_results {e : Expr} {vs : List Value} (hs : s.Under p m.context.names)
    (hm : m.Obeys structureDiscipline p t) (he : e ∈ s.function.exprs)
    (hvs : (e.results (s.code p rounds)).on m = (.ok vs, m')) :
    vs.length = (e.inferAll (s.function.checker p)).1.length := by
  have hD := structureDiscipline_judges hp hcheck hfree
  obtain ⟨_, _, _, _, _, hlen⟩ := hs.afterResults hD hm he hvs
  exact hlen

/-- A body is left with as many results as it declares. -/
theorem Site.Under.length_resultValues {values : List Expr} {vs : List Value}
    (hs : s.Under p m.context.names) (hm : m.Obeys structureDiscipline p t)
    (hst : Stmt.result values ∈ statementsOf s.function.body)
    (hvs : (resultValues (s.code p rounds) values).on m = (.ok vs, m')) :
    vs.length = s.function.sig.returns.length := by
  have hD := structureDiscipline_judges hp hcheck hfree
  have hJ := hs.sound hD
  have hvalues : ∀ e ∈ values, e ∈ s.function.exprs := fun e he => hJ.stmts.expr hst he
  obtain ⟨_, hclean⟩ := hs.stmt_clean hcheck hst
  obtain ⟨-, heach, hall⟩ := checkResult_clean (by simpa only [Stmt.check] using hclean)
  rcases resultValues_cases (s.code p rounds) values with
    ⟨value, ty, ty', tys, rfl, hreturns, heq⟩ | ⟨hone, heq⟩ <;> rw [heq] at hvs
  · have hreturns : s.function.sig.returns = ty :: ty' :: tys := hreturns
    rw [(hall value rfl (by simp [hreturns])).length_eq]
    exact hs.length_results hp hcheck hfree hm (hvalues value (by simp)) hvs
  · obtain ⟨_, _, _, _, _, hyields⟩ := hs.afterArgs hD hm hvalues hvs
    rw [← hyields.length_eq, ← (heach hone).length_eq]

/-- **Each step of a run begins its task with the right number of values.** -/
theorem Task.Step.structured {task₁ task₂ : Task} {m₁ m₂ : Machine}
    (hbegun : task₁.BegunWell structureDiscipline (structureJudgement p) p m₁)
    (h : task₁.Structured) (hstep : Task.Step p rounds task₁ m₁ task₂ m₂) : task₂.Structured := by
  obtain ⟨t, hm, hknown⟩ := hbegun
  cases hstep with
  | @called s callee args stage unit vs _ _ _ hunit _ hvs =>
    have hclean := hknown.1.expr_clean hcheck hknown.2
    obtain ⟨unit', hfound, hargs⟩ := callTypes_clean (by simpa only [Expr.inferAll] using hclean)
    obtain rfl : unit' = unit :=
      Option.some.inj (hfound.symm.trans (Program.find?_of_resolve hunit))
    change vs.length = unit'.sig.params.length
    rw [length_takeStaged hvs, ← hargs.length_eq, Signature.paramTypes, List.length_map]
  | acted =>
    obtain ⟨name, hfound⟩ := hknown.1.found
    exact absurd (hfree _ (Program.mem_functions hfound) _ hknown.2) (by simp [Expr.isAction])
  | handled hrun hvs =>
    obtain ⟨⟨name, hfound⟩, _⟩ := hknown
    exact hp.handed_over hfound hrun hvs
  | @mapped _ unit _ v ty tys _ _ hrun hv htys =>
    obtain ⟨⟨name, hfound⟩, _⟩ := hknown
    have hty := hp.mapped_to hfound hrun hv
    rw [htys] at hty
    cases hty
    rfl
  | stored => exact (List.cons.inj h).2
  | result hvs =>
    have hlen := hknown.1.length_resultValues hp hcheck hfree hm hknown.2 hvs
    exact (Nat.zero_add _).trans hlen
  | finished =>
    simp only [Task.Structured, List.length_cons] at h ⊢
    omega
  | _ => trivial

/-- All tasks of a run are begun well, the analysis has made sure of them, and they have the right
numbers of values. -/
theorem Task.Reaches.structured {task task' : Task}
    (hbegun : task.BegunWell structureDiscipline (structureJudgement p) p m)
    (hanalysed : task.Analysed p) (h : task.Structured)
    (hr : Task.Reaches p rounds task m task' m') :
    task'.BegunWell structureDiscipline (structureJudgement p) p m' ∧ task'.Analysed p ∧
      task'.Structured := by
  have hD := structureDiscipline_judges hp hcheck hfree
  refine hr.invariant (I := fun task m =>
    task.BegunWell structureDiscipline (structureJudgement p) p m ∧ task.Analysed p ∧
      task.Structured) ?_ ⟨hbegun, hanalysed, h⟩
  intro task₁ m₁ task₂ m₂ ⟨hbegun, hanalysed, h⟩ hstep
  exact ⟨Task.Step.keeps hD hbegun hstep,
    hstep.analysed hcheck (fun _ f _ => structureJudgement_ofText p f) hbegun hanalysed,
    Task.Step.structured hp hcheck hfree hbegun h hstep⟩

end Accepted

/-! ## Faults -/

/-- A frame that has all its parts and is used as it was made for raises no fault of structure. -/
theorem Fault.isStructural_of_isOfFrame {f : Fault} (h : f.isOfFrame = true)
    (hstorage : f.isStorage = false) (hbeyond : f.isBeyond = false) : f.isStructural = false := by
  cases f with
  | wiring cause =>
    cases cause with
    | noSlot | tempUnwritten => cases hstorage
    | returnOutOfRange => cases hbeyond
    | _ => cases h
  | _ => first | rfl | cases h

/-- A call with an argument for every parameter is refused for no fault of structure. -/
theorem prepare_not_structural {unit : Callable} (hunit : unit.WellShaped) {args : List Value}
    {f : Fault} (hlen : args.length = unit.sig.params.length) (h : prepare unit args = .error f) :
    f.isStructural = false := by
  obtain ⟨_, _, _, _, _, _, _, rfl⟩ := prepare_error hunit hlen h
  rfl

/-- A connector has been built with a value for every parameter, so that no field of it that is
declared is missing. -/
theorem fieldOf_not_structural {p : Program} {t : HeapTyping} {h : Heap} {base : Expr}
    {target : Value} {name : String} {f : Fault} (hh : h.Obeys structureDiscipline p t)
    (hknows : t.Knows target) (hf : fieldOf p h base target name = .error f) :
    f.isStructural = false := by
  unfold fieldOf at hf
  split at hf
  · cases hf
    exact Fault.isStructural_of_isOfValues (OfValues.nullFault base)
  · split at hf <;> cases hf
    rfl
  next connector id =>
    obtain ⟨params, hparams, hlen⟩ := (hh.connector id connector hknows).builds
    unfold connectorField at hf
    rw [hparams, Option.getD_some] at hf
    split at hf
    · cases hf
      rfl
    next i hi =>
      have hindex : i < (h.connector id).length := by
        rw [hlen]
        exact (List.findIdx?_eq_some_iff_findIdx_eq.mp hi).1
      rw [List.getElem?_eq_getElem hindex] at hf
      cases hf
  · cases hf
  · cases hf
    rfl

section Accepted

variable {p : Program} (hp : p.Linked Library.standard) (hcheck : p.check = [])
  (hfree : p.ActionFree) {rounds : Nat} {s : Site} {m m' : Machine} {t : HeapTyping} {f : Fault}

include hp hcheck hfree

/-- A native unit hands over no more results than there is room for. -/
theorem length_le_of_handled {unit : NativeUnit} {run : Exec (List Value)} {vs : List Value}
    {name : String} {rest : List String} {g : Frame} {gs : List Frame}
    (hm : m.Obeys structureDiscipline p t) (hfound : p.find? name = some (.native unit))
    (hnames : m.context.names = unit.sig.qualifiedName :: rest)
    (hrun : unit.handler = .function run) (hvs : run.on m = (.ok vs, m'))
    (hframes : m'.context.frames = g :: gs) :
    vs.length ≤ g.returns.length := by
  have hD := structureDiscipline_judges hp hcheck hfree
  have hkeeps := hD.governs.native_keeps hfound (hD.governs.find? hfound) rest t
  simp only [hrun] at hkeeps
  obtain ⟨u, _, hm', hnames', _⟩ := hkeeps m hm hnames
  rw [hvs] at hm' hnames'
  obtain ⟨g', gs', hframes', hg⟩ := Keeps.exists_frame (c := .native unit)
    (hp.find?_qualifiedName hfound) hm' (hnames'.resolve_left (by simp))
  cases hframes.symm.trans hframes'
  have hlen : unit.sig.returns.length = g.returns.length := hg.returns.length_eq
  rw [← hlen, ← hp.handed_over hfound hrun hvs, List.length_map]

/-- **No fault that comes up in a task is one of structure**, if the frame is used as it was made
for.

**Proof sketch.** Operations on values and objects raise no such fault, nor do the handlers of
native units. For each of the others, the analysis has made sure that the callee, the struct type or
the connector is there, or that there are as many values as places. -/
theorem Task.Arises.not_isStructural {task : Task}
    (hbegun : task.BegunWell structureDiscipline (structureJudgement p) p m)
    (hanalysed : task.Analysed p) (hstructured : task.Structured) (hstorage : f.isStorage = false)
    (hbeyond : f.isBeyond = false) (h : task.Arises p rounds m (.fault f) m') :
    f.isStructural = false := by
  obtain ⟨t, hm, hknown⟩ := hbegun
  have hvalues {α : Type} {r : Except Fault α} (hr : OfValues r) (h : r = .error f) :
      f.isStructural = false := Fault.isStructural_of_isOfValues (hr f h)
  have hD := structureDiscipline_judges hp hcheck hfree
  cases h with
  | frame _ _ hy hon =>
    obtain ⟨_, heq, hframe⟩ := hy.fault _ _ _ hon
    cases heq
    exact Fault.isStructural_of_isOfFrame hframe hstorage hbeyond
  | notAdmitted hrefused =>
    obtain ⟨⟨name, hfound⟩, _⟩ := hknown
    exact prepare_not_structural (hp.wellShaped hfound) hstructured hrefused
  | @strayJump _ function flow _ _ hbody hflow =>
    obtain ⟨⟨name, hfound⟩, _⟩ := hknown
    have hclean := Program.checkBlock_clean hcheck (Program.mem_functions hfound)
    rcases hflow with rfl | rfl <;>
      rcases flow_of_checkBlock function.body hclean hbody with hjump | hjump <;> cases hjump
  | handler hrun hfails | mapper hrun hfails =>
    obtain ⟨⟨name, hfound⟩, _⟩ := hknown
    have hraises := hp.handler_raises hfound
    rw [hrun] at hraises
    exact Fault.isStructural_of_isOfArguments (hraises _ _ _ hfails)
  | tooManyResults hrun hvs hframes hcount =>
    obtain ⟨⟨name, hfound⟩, rest, hnames⟩ := hknown
    have hle := length_le_of_handled hp hcheck hfree hm hfound hnames hrun hvs hframes
    exact absurd hcount (Nat.not_lt.mpr hle)
  | @nativeResult unit _ v _ ty _ _ _ hresult =>
    have hty : v.ty = ty := (List.cons.inj hstructured).1
    exact absurd hresult (nativeResult_ne_error hty)
  | @assignmentCount s targets value vs _ _ htargets hvs hcount =>
    obtain ⟨hs, hst⟩ := hknown
    obtain ⟨_, hclean⟩ := hs.stmt_clean hcheck hst
    obtain ⟨_, _, _, hall⟩ := checkAssign_clean (by simpa only [Stmt.check] using hclean)
    have hvalue := s.function.mem_exprs_of_top (s.function.mem_topExprs hst
      (e := value) (by simp [Stmt.exprs]))
    have hlen := hs.length_results hp hcheck hfree hm hvalue hvs
    exact absurd (hlen.trans (hall htargets).length_eq.symm) hcount
  | @unknownStruct s name fields _ hundeclared =>
    have hundeclared : (s.function.checker p).program.struct? name = none := hundeclared
    simp [Task.Analysed, Expr.infer, hundeclared] at hanalysed
  | @member s base name target _ _ _ hbase hmember =>
    have hpart := s.function.mem_exprs_of_part hknown.2 (x := base) (by simp [Expr.parts])
    obtain ⟨_, _, hm', _, hknows, _⟩ := hknown.1.afterEval hD hm hpart hbase
    exact fieldOf_not_structural hm'.heap hknows hmember
  | noValue _ hvs =>
    have hlen := hknown.1.length_results hp hcheck hfree hm hknown.2 hvs
    have hmem := (Expr.inferAll_clean hanalysed).2
    rw [List.length_eq_zero_iff.mp hlen.symm] at hmem
    cases hmem
  | unresolved hunknown =>
    have hclean := hknown.1.expr_clean hcheck hknown.2
    obtain ⟨unit, hfound, _⟩ := callTypes_clean (by simpa only [Expr.inferAll] using hclean)
    have hfound : p.find? _ = some unit := hfound
    simp [Program.resolve, hfound] at hunknown
  | unresolvedAction =>
    obtain ⟨name, hfound⟩ := hknown.1.found
    exact absurd (hfree _ (Program.mem_functions hfound) _ hknown.2) (by simp [Expr.isAction])
  | start _ hbind | default hbind | elementBind _ _ hbind | item _ _ hbind =>
    exact hvalues (OfOperations.valueBind _ _).ofValues hbind
  | result hbind | slot _ hbind | fieldBind _ hbind =>
    exact hvalues (OfOperations.bindAs _ _).ofValues hbind
  | writeToNull | writeFieldOfNull =>
    exact Fault.isStructural_of_isOfValues (OfValues.nullFault _)
  | arrayIndex _ _ hindex => exact hvalues (OfOperations.arrayIndex _).ofValues hindex
  | mapKey _ _ hkey => exact hvalues (OfOperations.mapKey _).ofValues hkey
  | initField _ _ _ hinit => exact hvalues (OfOperations.initField _ _ _ _).ofValues hinit
  | element _ _ helement => exact hvalues (OfValues.element _ _ _ _) helement
  | unary _ happly => exact hvalues (OfOperations.unaryApply _ _).ofValues happly
  | binary _ _ _ happly => exact hvalues (OfOperations.binaryApply _ _ _ _).ofValues happly
  | cast _ hcast => exact hvalues (OfOperations.cast _ _).ofValues hcast
  | notConnector _ hname => exact hvalues (OfValues.connectorName _ _) hname
  | _ => rfl

omit hcheck hfree in
/-- There is room for all results that are about to be stored. -/
theorem Task.Structured.not_storesBeyond {task : Task}
    (hbegun : task.BegunWell structureDiscipline (structureJudgement p) p m)
    (hstructured : task.Structured) : ¬ task.StoresBeyond m := by
  obtain ⟨t, hm, hknown⟩ := hbegun
  intro h
  cases h with
  | @finish s index v w vs _ _ _ h =>
    obtain ⟨name, hfound⟩ := hknown.1.found
    obtain ⟨rest, hnames⟩ := hknown.1.top
    have hindex : index < s.function.sig.returns.length := by
      simp only [Task.Structured, List.length_cons] at hstructured
      omega
    exact setReturn_ne_error (.function s.function) (hp.find?_qualifiedName hfound) hm
      hnames hindex h
  | @store unit index v w vs ty tys _ _ _ h =>
    obtain ⟨⟨name, hfound⟩, ⟨rest, hnames⟩, htys, _⟩ := hknown
    have hindex := (List.getElem?_eq_some_iff.mp (cons_prefix_drop htys).1).1
    exact setReturn_ne_error (.native unit) (hp.find?_qualifiedName hfound) hm hnames
      hindex h

/-- A call of a callable of the program, with known values and an argument for every parameter, ends
with no fault of structure. -/
theorem call_not_structural {name : String} {unit : Callable} (hunit : p.find? name = some unit)
    {args : List Value} {levels : Nat}
    (hbegun : (Task.call levels unit args).BegunWell structureDiscipline (structureJudgement p) p m)
    (hargs : args.length = unit.sig.params.length)
    (h : (call p rounds levels unit args).on m = (.error (.failed (.fault f)), m')) :
    f.isStructural = false := by
  have hfails : (Task.call levels unit args).Fails p rounds m (.fault f) m' :=
    (bind_error _).mpr (.inl h)
  have hreached {task : Task} {m₀ : Machine}
      (hr : Task.Reaches p rounds (.call levels unit args) m task m₀) :=
    hr.structured hp hcheck hfree hbegun trivial hargs
  have hstorage : f.isStorage = false := by
    have hplaced : (Task.call levels unit args).PlacedAt p m := ⟨name, hunit⟩
    have hconfined := hp.nativesConfined fun _ _ => Library.standard_confined
    rcases hplaced.mayEnd hp hconfined (congrArg Prod.fst hfails) with
      hstorage | ⟨_, native, hfound, hraises⟩
    · exact hstorage
    · cases hp.comesFrom hfound with
      | registered hmem => exact Library.standard_raises hmem hraises
  have hbeyond : f.isBeyond = false := by
    have hlinked : (Task.call levels unit args).Linked p := ⟨name, hunit⟩
    by_contra hbeyond
    obtain ⟨task, m₀, hr, hstores⟩ := hfails.storesBeyond (by simpa using hbeyond)
      hp.nativesWithinReturns hlinked
    obtain ⟨hbegun, _, hstructured⟩ := hreached hr
    exact hstructured.not_storesBeyond hp hbegun hstores
  obtain ⟨task, m₀, m₁, hr, harises⟩ := hfails.arises
  obtain ⟨hbegun, hanalysed, hstructured⟩ := hreached hr
  exact harises.not_isStructural hp hcheck hfree hbegun hanalysed hstructured hstorage hbeyond

end Accepted

/-! ## Runs -/

/-- **No call ends with a fault of structure.** Let a program without actions load with the standard
library, and let the analysis find nothing in it; the top type may be used freely. Let a callable be
called with values read from documents at any types, and let it admit them. Then the call does not
end because a callable is unknown or gets another number of arguments, because a part was put
together wrongly, or because of a jump out of a loop, another number of values than of targets, a
call without results for a value, or an unknown struct type. Neither does the call from outside.

**Proof sketch.** A fault about a slot does not end a call of a loaded program
(`Task.PlacedAt.mayEnd`), and one about a result without room would be found where the result is
stored (`Task.Fails.storesBeyond`), where there is room. Any other fault comes up in some task of
the run (`Task.Fails.arises`). Each task is begun with as many values as there are places for them,
and the analysis has made sure of it, so the fault is none of structure. -/
theorem not_isStructural_of_fails {source : Source} {e : Engine}
    (hload : Program.load source Library.standard = .ok e.program)
    (hcheck : e.program.check = []) (hfree : e.program.ActionFree)
    {inputs : List (Json × Ty)} {args : List Value} {heap : Heap}
    (hread : (e.program.readInputs inputs).run {} = .ok (args, heap))
    {name : String} {unit : Callable} (hunit : e.program.find? name = some unit)
    (hadmitted : checkArguments unit.sig args = .ok ()) (properties : Dict String) :
    (∀ rounds levels f m, (call e.program rounds levels unit args).on (e.machine heap properties) =
      (.error (.failed (.fault f)), m) → f.isStructural = false) ∧
    ∀ f m, e.invoke name args heap properties = (.error (.failed (.fault f)), m) →
      f.isStructural = false := by
  have hlen := length_of_checkArguments hadmitted
  have hcalls : ∀ rounds levels f m, (call e.program rounds levels unit args).on
      (e.machine heap properties) = (.error (.failed (.fault f)), m) → f.isStructural = false :=
    fun _ levels _ _ => call_not_structural (Program.load_linked hload) hcheck hfree hunit
      (Task.begunWell_of_inputs hread hunit (fun _ _ _ _ _ => trivial) properties levels) hlen
  refine ⟨hcalls, fun f m h => ?_⟩
  rw [Engine.invoke_eq hunit] at h
  exact hcalls _ _ f m h

/-- A program that exchanges values of the top type and takes the first element of one of them,
which need not be an array. -/
def swappedSource : Source where
  structs := [⟨"point", [⟨"x", .int⟩, ⟨"y", .int⟩]⟩]
  connectors := [⟨"box", [⟨"label", .string⟩, ⟨"content", .any⟩], []⟩]
  functions := [
    { name := "swap"
      params := [⟨"a", .any⟩, ⟨"b", .any⟩]
      returns := [.any, .any]
      body := [.result [.var ⟨"b", none⟩, .var ⟨"a", none⟩]] },
    { name := "first"
      params := [⟨"ns", .arrayOf .int⟩]
      returns := [.int]
      body := [.result [.index (.var ⟨"ns", none⟩) (.int 0)]] },
    { name := "main"
      params := [⟨"s", .string⟩]
      returns := [.int]
      body := [
        .define "box" (.ref (.connector "box"))
          (some (.connector "box" [.var ⟨"s", none⟩, .struct "point" [("y", .int 1)]])) none,
        .define "u" .any none none,
        .define "w" .any none none,
        .loop (.bool true) [
          .assign [.var ⟨"u", none⟩, .var ⟨"w", none⟩]
            (.call "swap" [.field (.var ⟨"box", none⟩) "label", .int 3] 0),
          .leave],
        .result [.call "first" [.var ⟨"w", none⟩] 0]] }]

/-- The theorem applies to this program, whose call ends with a fault of the type of an argument. -/
theorem not_isStructural_of_fails_swapped :
    ∃ (e : Engine) (unit : Callable) (f : Fault) (m : Machine),
      Program.load swappedSource Library.standard = .ok e.program ∧ e.program.check = [] ∧
      e.program.ActionFree ∧ e.program.find? "main" = some unit ∧
      (e.program.readInputs [(.str "ten", .string)]).run {} = .ok ([.str "ten"], {}) ∧
      checkArguments unit.sig [.str "ten"] = .ok () ∧
      (call e.program 10 5 unit [.str "ten"]).on (e.machine {} []) =
        (.error (.failed (.fault f)), m) ∧
      f = .argumentType "first" 0 (.arrayOf .int) .string ∧ f.isStructural = false := by
  have hloads : Program.loadsTo swappedSource Library.standard (fun p =>
      p.check.isEmpty && decide p.ActionFree && (p.find? "main").any fun unit =>
        decide (checkArguments unit.sig [.str "ten"] = .ok ()) &&
          faultOf? ((call p 10 5 unit [.str "ten"]).on (Engine.machine ⟨p, {}⟩ {} [])).1 ==
            some (.argumentType "first" 0 (.arrayOf .int) .string)) = true := by
    rw [Program.loadsTo_standard]
    decide +kernel
  obtain ⟨p, hload, htest⟩ := Program.exists_of_loadsTo hloads
  simp only [Bool.and_eq_true, List.isEmpty_iff, decide_eq_true_eq, Option.any_eq_true,
    beq_iff_eq] at htest
  obtain ⟨⟨hcheck, hfree⟩, unit, hunit, hadmitted, hfault⟩ := htest
  let e : Engine := ⟨p, {}⟩
  have hread : (e.program.readInputs [(.str "ten", .string)]).run {} = .ok ([.str "ten"], {}) := rfl
  have hfails := on_of_faultOf? _ hfault
  exact ⟨e, unit, _, _, hload, hcheck, hfree, hunit, hread, hadmitted, hfails, rfl,
    (not_isStructural_of_fails (e := e) hload hcheck hfree hread hunit hadmitted []).1 10 5 _ _
      hfails⟩

end FrameScript
