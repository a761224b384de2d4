import FrameScript.Proofs.Failures
import FrameScript.Proofs.Subterms
import Mathlib.Data.Prod.Lex

set_option autoImplicit false

/-!
# Where failures come from

A task that fails is the one the failure comes up in, or it fails because of a task that is begun on
its behalf. As no task goes on for ever, the reason for the failure of a run is found in finitely
many steps from the run itself.

## Main definitions

* `Task.weight` — a bound on what is done on behalf of a task.
* `Task.Traced` — a failure that comes up in a task or in one that is begun on its behalf.

## Main results

* `Task.step_wellFounded` — chains of tasks that are begun on behalf of each other are finite.
* `Task.step_induction` — induction along such chains.
* `Task.Fails.traced`, `Task.call_fails_cases` — failures of tasks, and what calls make of them.
* `Task.Fails.arises` — each failure of a run comes up in some task of the run.
-/

namespace FrameScript

open Exec

/-! ## Chains of tasks are finite -/

namespace Task

/-- A bound on what is done on behalf of a task: calls use up levels, bodies get smaller, and loops
and stores use up rounds and values. -/
noncomputable def weight : Task → ℕ ×ₗ ℕ ×ₗ ℕ
  | .call levels _ _ => toLex (2 * levels, toLex (0, 0))
  | .dispatch levels (.function f) => toLex (2 * levels + 1, toLex (2 * sizeOf f.body + 1, 0))
  | .dispatch levels (.native _) => toLex (2 * levels + 1, toLex (0, 0))
  | .store _ _ vs _ => toLex (0, toLex (0, vs.length))
  | .block s ss => toLex (2 * s.levels + 1, toLex (2 * sizeOf ss, 0))
  | .stmt s st => toLex (2 * s.levels + 1, toLex (2 * sizeOf st + 1, 0))
  | .loop s cond body n =>
    toLex (2 * s.levels + 1, toLex (2 * (sizeOf cond + sizeOf body) + 2, n))
  | .finish s _ vs => toLex (2 * s.levels + 1, toLex (0, vs.length))
  | .write s _ target => toLex (2 * s.levels + 1, toLex (2 * sizeOf target, 0))
  | .eval s e => toLex (2 * s.levels + 1, toLex (2 * sizeOf e + e.isCall.toNat, 0))
  | .results s e => toLex (2 * s.levels + 1, toLex (2 * sizeOf e + (!e.isCall).toNat, 0))

variable {p : Program} {rounds : Nat}

/-- An item of a list is smaller than the list. -/
theorem sizeOf_item {α : Type} [SizeOf α] (before after : List α) (a : α) :
    sizeOf a < sizeOf (before ++ a :: after) :=
  List.sizeOf_lt_of_mem (by simp)

/-- A smaller part of the body under way has less to do. -/
theorem weight_lt_of_size {levels size size' n n' : ℕ} (h : size < size') :
    toLex (levels, toLex (size, n)) < toLex (levels, toLex (size', n')) := by
  simp [Prod.Lex.toLex_lt_toLex, h]

/-- What is begun on behalf of a task has less to do than the task. -/
theorem Step.weight_lt {task₁ task₂ : Task} {m₁ m₂ : Machine}
    (h : Step p rounds task₁ m₁ task₂ m₂) : task₂.weight < task₁.weight := by
  have hcall (b : Bool) : b.toNat ≤ 1 := Bool.toNat_le b
  have hpart {e part : Expr} (h : part ∈ e.parts) :
      2 * sizeOf part + part.isCall.toNat < 2 * sizeOf e := by
    have hsize := Expr.sizeOf_part_lt h
    have hcall := hcall part.isCall
    omega
  cases h with
  | @call levels unit =>
    cases unit <;> simp only [weight, Prod.Lex.toLex_lt_toLex] <;> omega
  | called | acted | mapped | handled | stored | finished | round =>
    simp [weight, Prod.Lex.toLex_lt_toLex]
  | value he | values he => exact weight_lt_of_size (by simp [he])
  | @chosen s cond yes no b => exact weight_lt_of_size (by cases b <;> grind)
  | @inBlock s before after st => exact weight_lt_of_size (by grind [sizeOf_item before after st])
  | @writtenEach s before after target =>
    exact weight_lt_of_size (by grind [sizeOf_item before after target, Stmt.assign.sizeOf_spec])
  | @resultEach s before after e =>
    exact weight_lt_of_size (by grind [sizeOf_item before after e, Stmt.result.sizeOf_spec])
  | callArg | actionArg | item | connectorArg | entry | fieldValue | payload | base | key | field
  | operand | left | right | castOperand | actionTarget =>
    exact weight_lt_of_size (Nat.lt_add_right _ (hpart (by simp [Expr.parts])))
  | roundCond | roundBody => exact weight_lt_of_size (by grind)
  | body | result => exact weight_lt_of_size (by simp)
  | _ => exact weight_lt_of_size (by grind)

/-- **Chains of tasks are finite**: no run ever begins one task on behalf of another without end. -/
theorem step_wellFounded : WellFounded fun task₂ task₁ : Task =>
    ∃ m₁ m₂, Step p rounds task₁ m₁ task₂ m₂ :=
  Subrelation.wf (fun ⟨_, _, h⟩ => h.weight_lt) (InvImage.wf weight wellFounded_lt)

/-- Induction on a task: what holds of a task if it holds of all that are begun on its behalf holds
of every task. -/
@[elab_as_elim]
theorem step_induction (p : Program) (rounds : Nat) {motive : Task → Prop}
    (behalf : ∀ task₁, (∀ {task₂ m₁ m₂}, Step p rounds task₁ m₁ task₂ m₂ → motive task₂) →
      motive task₁) (task : Task) : motive task :=
  (step_wellFounded (p := p)).induction task fun _ ih => behalf _ fun hstep => ih _ ⟨_, _, hstep⟩

end Task

/-! ## Endings of lists -/

section Lists

variable {code : Code} {m m' : Machine} {s : Stop}

theorem evalArgs_error {es : List Expr} (h : (evalArgs code es).on m = (.error s, m')) :
    ∃ before e after vs m₁, es = before ++ e :: after ∧
      (evalArgs code before).on m = (.ok vs, m₁) ∧ (e.eval code).on m₁ = (.error s, m') := by
  induction es generalizing m with
  | nil => cases h
  | cons e es ih =>
    rcases (bind_error m).mp h with hfirst | ⟨v, m₁, hfirst, h⟩
    · exact ⟨[], e, es, [], m, rfl, rfl, hfirst⟩
    · rcases (bind_error m₁).mp h with hrest | ⟨vs, m₂, -, h⟩
      · obtain ⟨before, e', after, vs, m₂, rfl, hbefore, he'⟩ := ih hrest
        refine ⟨e :: before, e', after, v :: vs, m₂, rfl, ?_, he'⟩
        exact (bind_ok m).mpr ⟨v, m₁, hfirst, (bind_ok m₁).mpr ⟨vs, m₂, hbefore, rfl⟩⟩
      · cases h

theorem evalEntries_error {entries : List (String × Expr)}
    (h : (evalEntries code entries).on m = (.error s, m')) :
    ∃ before key e after vs m₁, entries = before ++ (key, e) :: after ∧
      (evalEntries code before).on m = (.ok vs, m₁) ∧ (e.eval code).on m₁ = (.error s, m') := by
  induction entries generalizing m with
  | nil => cases h
  | cons entry entries ih =>
    obtain ⟨key, e⟩ := entry
    rcases (bind_error m).mp h with hfirst | ⟨v, m₁, hfirst, h⟩
    · exact ⟨[], key, e, entries, [], m, rfl, rfl, hfirst⟩
    · rcases (bind_error m₁).mp h with hrest | ⟨vs, m₂, -, h⟩
      · obtain ⟨before, key', e', after, vs, m₂, rfl, hbefore, he'⟩ := ih hrest
        refine ⟨(key, e) :: before, key', e', after, (key, v) :: vs, m₂, rfl, ?_, he'⟩
        exact (bind_ok m).mpr ⟨v, m₁, hfirst, (bind_ok m₁).mpr ⟨vs, m₂, hbefore, rfl⟩⟩
      · cases h

theorem evalItems_error {elem : Ty} {es : List Expr}
    (h : (evalItems code elem es).on m = (.error s, m')) :
    ∃ before e after vs m₁, es = before ++ e :: after ∧
      (evalItems code elem before).on m = (.ok vs, m₁) ∧
      ((e.eval code).on m₁ = (.error s, m') ∨ ∃ v f, (e.eval code).on m₁ = (.ok v, m') ∧
        v.bind elem = .error f ∧ s = .failed (.fault f)) := by
  induction es generalizing m with
  | nil => cases h
  | cons e es ih =>
    rcases (bind_error m).mp h with hfirst | ⟨v, m₁, hfirst, h⟩
    · exact ⟨[], e, es, [], m, rfl, rfl, .inl hfirst⟩
    rcases (bind_error m₁).mp h with hbind | ⟨w, m₂, hw, h⟩
    · obtain ⟨f, hf, rfl, rfl⟩ := (ofExcept_error m₁).mp hbind
      exact ⟨[], e, es, [], m, rfl, rfl, .inr ⟨v, f, hfirst, hf, rfl⟩⟩
    rcases (bind_error m₂).mp h with hrest | ⟨vs, m₃, -, h⟩
    · obtain ⟨before, e', after, vs, m₃, rfl, hbefore, he'⟩ := ih hrest
      refine ⟨e :: before, e', after, w :: vs, m₃, rfl, ?_, he'⟩
      exact (bind_ok m).mpr ⟨v, m₁, hfirst, (bind_ok m₁).mpr ⟨w, m₂, hw,
        (bind_ok m₂).mpr ⟨vs, m₃, hbefore, rfl⟩⟩⟩
    · cases h

theorem evalFields_error {decl : StructDecl} {fields : List (String × Value)}
    {given : List (String × Expr)}
    (h : (evalFields code decl fields given).on m = (.error s, m')) :
    ∃ before name e after vs m₁, given = before ++ (name, e) :: after ∧
      (evalFields code decl fields before).on m = (.ok vs, m₁) ∧
      ((e.eval code).on m₁ = (.error s, m') ∨ ∃ v f, (e.eval code).on m₁ = (.ok v, m') ∧
        initField decl name v vs = .error f ∧ s = .failed (.fault f)) := by
  induction given generalizing m fields with
  | nil => cases h
  | cons entry given ih =>
    obtain ⟨name, e⟩ := entry
    rcases (bind_error m).mp h with hfirst | ⟨v, m₁, hfirst, h⟩
    · exact ⟨[], name, e, given, fields, m, rfl, rfl, .inl hfirst⟩
    rcases (bind_error m₁).mp h with hinit | ⟨fields', m₂, hinit, h⟩
    · obtain ⟨f, hf, rfl, rfl⟩ := (ofExcept_error m₁).mp hinit
      exact ⟨[], name, e, given, fields, m, rfl, rfl, .inr ⟨v, f, hfirst, hf, rfl⟩⟩
    · obtain ⟨before, name', e', after, vs, m₃, rfl, hbefore, he'⟩ := ih h
      refine ⟨(name, e) :: before, name', e', after, vs, m₃, rfl, ?_, he'⟩
      exact (bind_ok m).mpr ⟨v, m₁, hfirst, (bind_ok m₁).mpr ⟨fields', m₂, hinit, hbefore⟩⟩

theorem stageArgs_error {stage : Nat} {es : List Expr}
    (h : (stageArgs code stage es).on m = (.error s, m')) :
    ∃ before e after m₁, es = before ++ e :: after ∧
      (stageArgs code stage before).on m = (.ok (), m₁) ∧
      ((e.eval code).on m₁ = (.error s, m') ∨ ∃ v m₂ slot, (e.eval code).on m₁ = (.ok v, m₂) ∧
        (setTemp slot v).on m₂ = (.error s, m')) := by
  induction es generalizing m stage with
  | nil => cases h
  | cons e es ih =>
    rcases (bind_error m).mp h with hfirst | ⟨v, m₁, hfirst, h⟩
    · exact ⟨[], e, es, m, rfl, rfl, .inl hfirst⟩
    rcases (bind_error m₁).mp h with hstaged | ⟨_, m₂, hstaged, h⟩
    · exact ⟨[], e, es, m, rfl, rfl, .inr ⟨v, m₁, stage, hfirst, hstaged⟩⟩
    · obtain ⟨before, e', after, m₃, rfl, hbefore, he'⟩ := ih h
      refine ⟨e :: before, e', after, m₃, rfl, ?_, he'⟩
      exact (bind_ok m).mpr ⟨v, m₁, hfirst, (bind_ok m₁).mpr ⟨(), m₂, hstaged, hbefore⟩⟩

theorem writeAll_error {targets : List Target} {vs : List Value}
    (hlen : vs.length = targets.length)
    (h : (writeAll code targets vs).on m = (.error s, m')) :
    ∃ before target after ws v ws' m₁, targets = before ++ target :: after ∧
      vs = ws ++ v :: ws' ∧ before.length = ws.length ∧ after.length = ws'.length ∧
      (writeAll code before ws).on m = (.ok (), m₁) ∧
      (target.write code v).on m₁ = (.error s, m') := by
  induction targets generalizing vs m with
  | nil => cases h
  | cons target targets ih =>
    obtain _ | ⟨v, vs⟩ := vs
    · cases hlen
    have hlen : vs.length = targets.length := by simpa using hlen
    rcases (bind_error m).mp h with hfirst | ⟨_, m₁, hfirst, h⟩
    · exact ⟨[], target, targets, [], v, vs, m, rfl, rfl, rfl, hlen.symm, rfl, hfirst⟩
    · obtain ⟨before, target', after, ws, w, ws', m₂, rfl, rfl, hlen, hlen', hbefore, hw⟩ :=
        ih hlen h
      refine ⟨target :: before, target', after, v :: ws, w, ws', m₂, rfl, rfl, by simp [hlen],
        hlen', ?_, hw⟩
      exact (bind_ok m).mpr ⟨(), m₁, hfirst, hbefore⟩

theorem execBlock_error {ss : List Stmt} (h : (execBlock code ss).on m = (.error s, m')) :
    ∃ before st after m₁, ss = before ++ st :: after ∧
      (execBlock code before).on m = (.ok .onward, m₁) ∧
      (st.exec code).on m₁ = (.error s, m') := by
  induction ss generalizing m with
  | nil => cases h
  | cons st ss ih =>
    rcases (bind_error m).mp h with hfirst | ⟨flow, m₁, hfirst, h⟩
    · exact ⟨[], st, ss, m, rfl, rfl, hfirst⟩
    · cases flow with
      | onward =>
        obtain ⟨before, st', after, m₂, rfl, hbefore, hst'⟩ := ih h
        exact ⟨st :: before, st', after, m₂, rfl, (bind_ok m).mpr ⟨.onward, m₁, hfirst, hbefore⟩,
          hst'⟩
      | _ => cases h

/-- A condition ends without a value because its expression does, or because it is no truth
value. -/
theorem holds_error {cond : Expr} (h : (cond.holds code).on m = (.error s, m')) :
    (cond.eval code).on m = (.error s, m') ∨ ∃ v, (cond.eval code).on m = (.ok v, m') ∧
      v.bool? = none ∧ s = .failed (.fault (.analyzerDefect (.condition v.ty))) := by
  rcases (bind_error m).mp h with h | ⟨v, m₁, hv, h⟩
  · exact .inl h
  · cases v with
    | bool b => cases h
    | _ => cases h; exact .inr ⟨_, hv, rfl, rfl⟩

end Lists

/-! ## Failures come up somewhere -/

namespace Task

variable {p : Program} {rounds : Nat} {m m' : Machine} {x : Failure} {s : Site}

/-- A computation whose value is dropped ends without one just as it is. -/
theorem drop_error {α : Type} {y : Exec α} {t : Stop} :
    (do let _ ← y : Exec Unit).on m = (.error t, m') ↔ y.on m = (.error t, m') := by
  rw [bind_error]
  exact or_iff_left fun ⟨_, _, _, h⟩ => by cases h

/-- The failure comes up in the task itself, or in a task that is begun on its behalf. -/
def Traced (p : Program) (rounds : Nat) (task : Task) (m : Machine) (x : Failure) (m' : Machine) :
    Prop :=
  task.Arises p rounds m x m' ∨
    ∃ task₂ m₂, Step p rounds task m task₂ m₂ ∧ task₂.Fails p rounds m₂ x m'

/-- A failure of a frame comes up in the task that uses the frame. -/
theorem Fails.traced_of_frame {task : Task} (hfails : task.Fails p rounds m x m') {α : Type}
    {y : Exec α} {m₁ : Machine} (huses : task.UsesFrame p rounds m m₁) (hy : OnFrame y)
    (h : y.on m₁ = (.error (.failed x), m')) : task.Traced p rounds m x m' := by
  obtain ⟨f, hf, -⟩ := hy.fault _ _ _ h
  cases hf
  exact .inl (.frame hfails huses hy h)

/-- A failure of an expression that is evaluated on behalf of a task. -/
theorem traced_of_eval {task : Task} {e : Expr} {m₁ : Machine}
    (hstep : Step p rounds task m (.eval s e) m₁)
    (h : (e.eval (s.code p rounds)).on m₁ = (.error (.failed x), m')) :
    task.Traced p rounds m x m' :=
  .inr ⟨_, _, hstep, drop_error.mpr h⟩

/-- A failure of an expression for all its values that is evaluated on behalf of a task. -/
theorem traced_of_results {task : Task} {e : Expr} {m₁ : Machine}
    (hstep : Step p rounds task m (.results s e) m₁)
    (h : (e.results (s.code p rounds)).on m₁ = (.error (.failed x), m')) :
    task.Traced p rounds m x m' :=
  .inr ⟨_, _, hstep, drop_error.mpr h⟩

/-- As `Traced`, for tasks that store no results: what comes up in the task itself is no complaint
of a result. -/
inductive TracedWithin (p : Program) (rounds : Nat) (task : Task) (m : Machine) (x : Failure)
    (m' : Machine) : Prop
  /-- A fault of other things than the control stack and its frames. -/
  | itself {f : Fault} (hx : x = .fault f) (hstack : f.isOfStack = false)
    (h : task.Arises p rounds m x m') : TracedWithin p rounds task m x m'
  /-- A fault of the frame. -/
  | onFrame {α : Type} {y : Exec α} {m₁ : Machine} (huses : task.UsesFrame p rounds m m₁)
    (hy : OnFrame y) (hwithin : WithinReturns y) (h : y.on m₁ = (.error (.failed x), m')) :
    TracedWithin p rounds task m x m'
  /-- A failure of a task that is begun on behalf of the task. -/
  | onBehalf {task₂ : Task} {m₂ : Machine} (hstep : Step p rounds task m task₂ m₂)
    (h : task₂.Fails p rounds m₂ x m') : TracedWithin p rounds task m x m'

theorem TracedWithin.traced {task : Task} (h : task.TracedWithin p rounds m x m')
    (hfails : task.Fails p rounds m x m') : task.Traced p rounds m x m' := by
  cases h with
  | itself _ _ harises => exact .inl harises
  | onFrame huses hy _ h => exact hfails.traced_of_frame huses hy h
  | onBehalf hstep h => exact .inr ⟨_, _, hstep, h⟩

/-- A call in the place of a value fails as a call, or has no value. -/
theorem traced_of_isCall {e : Expr} (he : e.isCall = true)
    (h : ((do let vs ← e.results (s.code p rounds); firstResult vs) : Exec Value).on m =
      (.error (.failed x), m')) : (Task.eval s e).Traced p rounds m x m' := by
  rcases (bind_error m).mp h with h | ⟨vs, m₁, hvs, h⟩
  · exact traced_of_results (.values he) h
  · cases vs with
    | nil => cases h; exact .inl (.noValue he hvs)
    | cons v vs => cases h

/-- **Failures of expressions**: an expression fails itself or because of one of its parts. -/
theorem eval_traced {e : Expr} (h : (Task.eval s e).Fails p rounds m x m') :
    (Task.eval s e).Traced p rounds m x m' := by
  have hfails := h
  replace h := drop_error.mp h
  cases e with
  | int | float | bool | str | null | json | xml => cases h
  | var v =>
    exact hfails.traced_of_frame .read (OnFrame.bind (.slotOf _ _) fun _ => .getSlot _) h
  | array elem items =>
    rcases (bind_error m).mp h with h | ⟨_, _, _, h⟩
    · obtain ⟨before, e, after, vs, m₁, rfl, hbefore, he | ⟨v, f, hv, hbind, hx⟩⟩ :=
        evalItems_error h
      · exact traced_of_eval (.item hbefore) he
      · cases hx
        exact .inl (.item hbefore hv hbind)
    · cases h
  | map entries =>
    rcases (bind_error m).mp h with h | ⟨_, _, _, h⟩
    · obtain ⟨before, key, e, after, vs, m₁, rfl, hbefore, he⟩ := evalEntries_error h
      exact traced_of_eval (.entry hbefore) he
    · cases h
  | struct name fields =>
    simp only [Expr.eval] at h
    split at h
    next hdecl =>
      cases h
      exact .inl (.unknownStruct hdecl)
    next decl hdecl =>
      rcases (bind_error m).mp h with h | ⟨_, _, _, h⟩
      · obtain ⟨before, field, e, after, vs, m₁, rfl, hbefore, he | ⟨v, f, hv, hinit, hx⟩⟩ :=
          evalFields_error h
        · exact traced_of_eval (.fieldValue hdecl hbefore) he
        · cases hx
          exact .inl (.initField hdecl hbefore hv hinit)
      · cases h
  | connector name args =>
    rcases (bind_error m).mp h with h | ⟨_, _, _, h⟩
    · obtain ⟨before, e, after, vs, m₁, rfl, hbefore, he⟩ := evalArgs_error h
      exact traced_of_eval (.connectorArg hbefore) he
    · cases h
  | message payload =>
    rcases (bind_error m).mp h with h | ⟨v, m₁, hv, h⟩
    · exact traced_of_eval .payload h
    · cases v with
      | str s => cases h
      | _ => cases h; exact .inl (.payload hv rfl)
  | index base key =>
    rcases (bind_error m).mp h with h | ⟨container, m₁, hbase, h⟩
    · exact traced_of_eval .base h
    rcases (bind_error m₁).mp h with h | ⟨k, m₂, hkey, h⟩
    · exact traced_of_eval (.key hbase) h
    obtain ⟨f, hf, rfl, rfl⟩ := (ofExcept_failed m₂).mp h
    exact .inl (.element hbase hkey hf)
  | field base name =>
    rcases (bind_error m).mp h with h | ⟨target, m₁, hbase, h⟩
    · exact traced_of_eval .field h
    obtain ⟨f, hf, rfl, rfl⟩ := (ofExcept_failed m₁).mp h
    exact .inl (.member hbase hf)
  | unary op operand =>
    rcases (bind_error m).mp h with h | ⟨v, m₁, hv, h⟩
    · exact traced_of_eval .operand h
    obtain ⟨f, hf, rfl, rfl⟩ := (ofExcept_failed m₁).mp h
    exact .inl (.unary hv hf)
  | binary op left right =>
    rcases (bind_error m).mp h with h | ⟨l, m₁, hleft, h⟩
    · exact traced_of_eval .left h
    split at h
    · cases h
    next hopen =>
      rcases (bind_error m₁).mp h with h | ⟨r, m₂, hright, h⟩
      · exact traced_of_eval (.right hleft hopen) h
      obtain ⟨f, hf, rfl, rfl⟩ := (ofExcept_failed m₂).mp h
      exact .inl (.binary hleft hopen hright hf)
  | cast operand target =>
    rcases (bind_error m).mp h with h | ⟨v, m₁, hv, h⟩
    · exact traced_of_eval .castOperand h
    obtain ⟨f, hf, rfl, rfl⟩ := (ofExcept_failed m₁).mp h
    exact .inl (.cast hv hf)
  | call callee args stage => exact traced_of_isCall rfl h
  | action target name args stage =>
    exact traced_of_isCall rfl (by simpa only [Expr.eval, Expr.results, bind_assoc] using h)

/-- A call fails in its arguments or in the callee, unless there is no callee. -/
theorem results_tracedWithin {e : Expr} (h : (Task.results s e).Fails p rounds m x m') :
    (Task.results s e).TracedWithin p rounds m x m' := by
  replace h := drop_error.mp h
  unfold Expr.results at h
  split at h
  next callee args stage =>
    rcases (bind_error m).mp h with h | ⟨unit, m₁, hunit, h⟩
    · obtain ⟨f, hf, rfl, rfl⟩ := (ofExcept_failed m).mp h
      exact .itself rfl ((OfCalls.resolve _ _).stackFree _ hf) (.unresolved hf)
    obtain ⟨hresolve, rfl⟩ := (ofExcept_ok m).mp hunit
    rcases (bind_error m).mp h with h | ⟨_, m₁, hargs, h⟩
    · obtain ⟨before, e, after, m₁, rfl, hbefore, he | ⟨v, m₂, slot, hv, h⟩⟩ := stageArgs_error h
      · exact .onBehalf (.callArg hresolve hbefore) (drop_error.mpr he)
      · exact .onFrame (.callArg hresolve hbefore hv) (.setTemp slot v) (.setTemp slot v) h
    rcases (bind_error m₁).mp h with h | ⟨vs, m₂, hvs, h⟩
    · exact .onFrame (.callArgs hresolve hargs) (.takeStaged _ _) (.takeStaged _ _) h
    · exact .onBehalf (.called hresolve hargs hvs) (drop_error.mpr h)
  next target name args stage =>
    rcases (bind_error m).mp h with h | ⟨v, m₁, htarget, h⟩
    · exact .onBehalf .actionTarget (drop_error.mpr h)
    rcases (bind_error m₁).mp h with h | ⟨connector, m₂, hconnector, h⟩
    · obtain ⟨f, hf, rfl, rfl⟩ := (ofExcept_failed m₁).mp h
      have hstack := (OfValues.connectorName _ _).stackFree _ hf
      exact .itself rfl hstack (.notConnector htarget hf)
    obtain ⟨hname, rfl⟩ := (ofExcept_ok m₁).mp hconnector
    rcases (bind_error m₁).mp h with h | ⟨_, m₂, hstaged, h⟩
    · exact .onFrame (.target htarget) (.setTemp _ _) (.setTemp _ _) h
    rcases (bind_error m₂).mp h with h | ⟨_, m₃, hargs, h⟩
    · obtain ⟨before, e, after, m₃, rfl, hbefore, he | ⟨w, m₄, slot, hw, h⟩⟩ := stageArgs_error h
      · exact .onBehalf (.actionArg htarget hname hstaged hbefore) (drop_error.mpr he)
      · exact .onFrame (.actionArg htarget hstaged hbefore hw) (.setTemp _ _) (.setTemp _ _) h
    rcases (bind_error m₃).mp h with h | ⟨unit, m₄, hunit, h⟩
    · obtain ⟨f, hf, rfl, rfl⟩ := (ofExcept_failed m₃).mp h
      have hstack := (OfCalls.resolve _ _).stackFree _ hf
      exact .itself rfl hstack (.unresolvedAction htarget hname hstaged hargs hf)
    obtain ⟨hresolve, rfl⟩ := (ofExcept_ok m₃).mp hunit
    rcases (bind_error m₃).mp h with h | ⟨vs, m₄, hvs, h⟩
    · exact .onFrame (.actionArgs htarget hstaged hargs) (.takeStaged _ _) (.takeStaged _ _) h
    · exact .onBehalf (.acted htarget hname hstaged hargs hresolve hvs) (drop_error.mpr h)
  next hcall haction =>
    rcases (bind_error m).mp h with h | ⟨v, m₁, -, h⟩
    · refine .onBehalf (.value ?_) (drop_error.mpr h)
      unfold Expr.isCall
      split
      · exact absurd rfl (hcall _ _ _)
      · exact absurd rfl (haction _ _ _ _)
      · rfl
    · cases h

/-! ### Assignments -/

/-- A write to an element fails itself or because of its container or its key. -/
theorem writeElement_traced {v : Value} {base key : Expr}
    (h : (Task.write s v (.index base key)).Fails p rounds m x m') :
    (Task.write s v (.index base key)).Traced p rounds m x m' := by
  rcases (bind_error m).mp h with h | ⟨container, m₁, hbase, h⟩
  · exact traced_of_eval .writeBase h
  rcases (bind_error m₁).mp h with h | ⟨k, m₂, hkey, h⟩
  · exact traced_of_eval (.writeKey hbase) h
  split at h
  · cases h
    exact .inl (.writeToNull hbase hkey)
  next _ elem id =>
    rcases (bind_error m₂).mp h with h | ⟨index, m₃, hindex, hwrite⟩
    · obtain ⟨f, hf, rfl, rfl⟩ := (ofExcept_failed m₂).mp h
      exact .inl (.arrayIndex hbase hkey hf)
    obtain ⟨hindex, rfl⟩ := (ofExcept_ok m₂).mp hindex
    obtain rfl : k = .int index := by cases k <;> cases hindex; rfl
    rcases (bind_error m₂).mp hwrite with h | ⟨w, m₃, hw, hstore⟩
    · obtain ⟨f, hf, rfl, rfl⟩ := (ofExcept_failed m₂).mp h
      exact .inl (.elementBind hbase hkey hf)
    obtain ⟨-, rfl⟩ := (ofExcept_ok m₂).mp hw
    unfold storeElement at hstore
    split at hstore
    · cases hstore
    next i hi =>
      rw [on_bind, on_heap] at hstore
      cases hstore
      exact .inl (.negativeIndex hbase hkey (by rw [hi]; exact Int.negSucc_lt_zero i))
  · rcases (bind_error m₂).mp h with h | ⟨_, _, _, h⟩
    · obtain ⟨f, hf, rfl, rfl⟩ := (ofExcept_failed m₂).mp h
      exact .inl (.mapKey hbase hkey hf)
    · cases h
  next hnull harray hmap =>
    cases h
    refine .inl (.notIndexable hbase hkey ?_ harray hmap)
    cases container with
    | null tag => exact absurd rfl (hnull tag)
    | _ => rfl

/-- A write to a field fails itself or because of what the field is one of. -/
theorem writeField_traced {v : Value} {base : Expr} {name : String}
    (h : (Task.write s v (.field base name)).Fails p rounds m x m') :
    (Task.write s v (.field base name)).Traced p rounds m x m' := by
  rcases (bind_error m).mp h with h | ⟨target, m₁, hbase, h⟩
  · exact traced_of_eval .writeStruct h
  split at h
  · cases h
    exact .inl (.writeFieldOfNull hbase)
  next struct id =>
    rcases (bind_error m₁).mp h with h | ⟨w, m₂, hw, h⟩
    · obtain ⟨f, hf, rfl, rfl⟩ := (ofExcept_failed m₁).mp h
      exact .inl (.fieldBind hbase hf)
    obtain ⟨-, rfl⟩ := (ofExcept_ok m₁).mp hw
    rw [on_bind, on_heap] at h
    dsimp only at h
    split at h
    · cases h
    next hfield =>
      cases h
      exact .inl (.noStructField hbase (by simpa using hfield))
  next hnull hstruct =>
    cases h
    refine .inl (.noField hbase ?_ hstruct)
    cases target with
    | null tag => exact absurd rfl (hnull tag)
    | _ => rfl

theorem write_traced {v : Value} {target : Target}
    (h : (Task.write s v target).Fails p rounds m x m') :
    (Task.write s v target).Traced p rounds m x m' := by
  have hfails := h
  change (target.write (s.code p rounds) v).on m = _ at h
  cases target with
  | var y =>
    rcases (bind_error m).mp h with h | ⟨slot, m₁, hslot, h⟩
    · exact hfails.traced_of_frame .write (.slotOf _ _) h
    obtain ⟨hy, rfl⟩ : y.slot? = some slot ∧ m = m₁ := by
      rcases hy : y.slot? with _ | slot' <;> rw [hy] at hslot <;> cases hslot
      exact ⟨rfl, rfl⟩
    rcases (bind_error m).mp h with h | ⟨w, m₁, hw, h⟩
    · obtain ⟨f, hf, rfl, rfl⟩ := (ofExcept_failed m).mp h
      exact .inl (.slot hy hf)
    obtain ⟨-, rfl⟩ := (ofExcept_ok m).mp hw
    exact hfails.traced_of_frame .write (.setSlot _ _) h
  | index base key => exact writeElement_traced hfails
  | field base name => exact writeField_traced hfails

theorem finish_traced {index : Nat} {vs : List Value}
    (h : (Task.finish s index vs).Fails p rounds m x m') :
    (Task.finish s index vs).Traced p rounds m x m' := by
  have hfails := h
  change (writeResults s.function.sig.returns index vs).on m = _ at h
  cases vs with
  | nil => cases h
  | cons v vs =>
    rcases (bind_error m).mp h with h | ⟨w, m₁, hw, h⟩
    · obtain ⟨f, hf, rfl, rfl⟩ := (ofExcept_failed m).mp h
      exact .inl (.result hf)
    obtain ⟨hbind, rfl⟩ := (ofExcept_ok m).mp hw
    rcases (bind_error m).mp h with h | ⟨_, m₁, hset, h⟩
    · exact hfails.traced_of_frame .finish (.setReturn _ _) h
    · exact .inr ⟨_, _, .finished hbind hset, h⟩

/-! ### Statements -/

theorem block_traced {ss : List Stmt} (h : (Task.block s ss).Fails p rounds m x m') :
    (Task.block s ss).Traced p rounds m x m' := by
  obtain ⟨before, st, after, m₁, rfl, hbefore, hst⟩ := execBlock_error (drop_error.mp h)
  exact .inr ⟨_, _, .inBlock hbefore, drop_error.mpr hst⟩

theorem loop_traced {cond : Expr} {body : List Stmt} {n : Nat}
    (h : (Task.loop s cond body n).Fails p rounds m x m') :
    (Task.loop s cond body n).Traced p rounds m x m' := by
  replace h := drop_error.mp h
  cases n with
  | zero => cases h
  | succ n =>
    rcases (bind_error m).mp h with h | ⟨b, m₁, hcond, h⟩
    · rcases holds_error h with he | ⟨v, hv, hbool, hx⟩
      · exact traced_of_eval .roundCond he
      · cases hx
        exact .inl (.loopCondition hv hbool)
    cases b with
    | false => cases h
    | true =>
      rcases (bind_error m₁).mp h with h | ⟨flow, m₂, hbody, h⟩
      · exact .inr ⟨_, _, .roundBody hcond, drop_error.mpr h⟩
      cases flow with
      | leave => cases h
      | done => cases h
      | onward => exact .inr ⟨_, _, .round hcond hbody (.inl rfl), drop_error.mpr h⟩
      | next => exact .inr ⟨_, _, .round hcond hbody (.inr rfl), drop_error.mpr h⟩

/-- What a definition does with its start value fails because of the frame or the value. -/
theorem define_error {name : String} {ty : Ty} {slot? : Option Nat} {v : Value} {t : Stop}
    (h : (do
      let slot ← slotOf name slot?
      let _ ← Exec.frame
      let w ← Exec.ofExcept (v.bind ty)
      setSlot slot w
      pure Flow.onward : Exec Flow).on m = (.error t, m')) :
    (∃ y : Exec Unit, OnFrame y ∧ WithinReturns y ∧ y.on m = (.error t, m')) ∨
      ∃ f, v.bind ty = .error f ∧ t = .failed (.fault f) ∧ m = m' := by
  have hdrop {α : Type} {y : Exec α} (hy : OnFrame y) : OnFrame (do let _ ← y) :=
    hy.bind fun _ => .of_ok fun m => ⟨(), rfl⟩
  have hdropWithin {α : Type} {y : Exec α} (hy : WithinReturns y) : WithinReturns (do let _ ← y) :=
    hy.bind fun _ => .pure ()
  rcases (bind_error m).mp h with h | ⟨slot, m₁, hslot, h⟩
  · exact .inl ⟨_, hdrop (.slotOf _ _), hdropWithin (.slotOf _ _), drop_error.mpr h⟩
  obtain rfl : m = m₁ := by
    cases slot? <;> cases hslot
    rfl
  rcases (bind_error m).mp h with h | ⟨g, m₁, hg, h⟩
  · exact .inl ⟨_, hdrop .frame, hdropWithin .frame, drop_error.mpr h⟩
  obtain rfl : m = m₁ := by
    rw [on_frame] at hg
    split at hg <;> cases hg
    rfl
  rcases (bind_error m).mp h with h | ⟨w, m₁, hw, h⟩
  · exact .inr ((ofExcept_error m).mp h)
  obtain ⟨-, rfl⟩ := (ofExcept_ok m).mp hw
  rcases (bind_error m).mp h with h | ⟨_, _, _, h⟩
  · exact .inl ⟨_, .setSlot slot w, .setSlot slot w, h⟩
  · cases h

theorem assign_traced {targets : List Target} {value : Expr}
    (h : (assign (s.code p rounds) targets value).on m = (.error (.failed x), m')) :
    (Task.stmt s (.assign targets value)).Traced p rounds m x m' := by
  unfold assign at h
  split at h
  next target =>
    rcases (bind_error m).mp h with h | ⟨v, m₁, hv, h⟩
    · exact traced_of_eval .assigned h
    · exact .inr ⟨_, _, .written hv, h⟩
  next hmany =>
    have hone : targets.length ≠ 1 := fun hone => by
      obtain ⟨target, rfl⟩ := List.length_eq_one_iff.mp hone
      exact hmany target rfl
    rcases (bind_error m).mp h with h | ⟨vs, m₁, hvs, h⟩
    · exact traced_of_results (.assignedAll hone) h
    split at h
    next hcount =>
      cases h
      exact .inl (.assignmentCount hone hvs (by simpa using hcount))
    next hcount =>
      obtain ⟨before, target, after, ws, v, ws', m₂, rfl, rfl, hlen, hlen', hbefore, hw⟩ :=
        writeAll_error (by simpa using hcount) h
      exact .inr ⟨_, _, .writtenEach hone hvs hlen hlen' hbefore, hw⟩

theorem result_tracedWithin {values : List Expr}
    (h : ((Stmt.result values).exec (s.code p rounds)).on m = (.error (.failed x), m')) :
    (Task.stmt s (.result values)).TracedWithin p rounds m x m' := by
  simp only [Stmt.exec] at h
  rcases (bind_error m).mp h with h | ⟨vs, m₁, hvs, h⟩
  · rcases resultValues_cases (s.code p rounds) values with
      ⟨value, _, _, _, rfl, hreturns, heq⟩ | ⟨hone, heq⟩ <;> rw [heq] at h
    · exact .onBehalf (.resultAll hreturns) (drop_error.mpr h)
    · obtain ⟨before, e, after, vs, m₁, rfl, hbefore, he⟩ := evalArgs_error h
      exact .onBehalf (.resultEach hone hbefore) (drop_error.mpr he)
  rcases (bind_error m₁).mp h with h | ⟨g, m₂, hg, h⟩
  · exact .onFrame (.result hvs) .frame .frame h
  obtain rfl : m₁ = m₂ := by
    rw [on_frame] at hg
    split at hg <;> cases hg
    rfl
  rcases (bind_error m₁).mp h with h | ⟨_, _, _, h⟩
  · exact .onBehalf (.result hvs) h
  · cases h

/-- **Failures of statements**: a statement fails itself or because of one of its parts. -/
theorem stmt_traced {st : Stmt} (h : (Task.stmt s st).Fails p rounds m x m') :
    (Task.stmt s st).Traced p rounds m x m' := by
  have hfails := h
  replace h := drop_error.mp h
  cases st with
  | define name ty init? slot? =>
    cases init? with
    | none =>
      rcases define_error h with ⟨y, hy, -, h⟩ | ⟨f, hf, hx, rfl⟩
      · exact hfails.traced_of_frame .define hy h
      · cases hx
        exact .inl (.default hf)
    | some init =>
      rcases (bind_error m).mp h with h | ⟨v, m₁, hv, h⟩
      · exact traced_of_eval .start h
      rcases define_error h with ⟨y, hy, -, h⟩ | ⟨f, hf, hx, rfl⟩
      · exact hfails.traced_of_frame (.start hv) hy h
      · cases hx
        exact .inl (.start hv hf)
  | assign targets value =>
    rcases (bind_error m).mp h with h | ⟨_, _, _, h⟩
    · exact assign_traced h
    · cases h
  | branch cond yes no =>
    rcases (bind_error m).mp h with h | ⟨b, m₁, hcond, h⟩
    · rcases holds_error h with he | ⟨v, hv, hbool, hx⟩
      · exact traced_of_eval .cond he
      · cases hx
        exact .inl (.condition hv hbool)
    · refine .inr ⟨_, _, .chosen hcond, drop_error.mpr ?_⟩
      cases b <;> exact h
  | loop cond body => exact .inr ⟨_, _, .loop, drop_error.mpr h⟩
  | leave => cases h
  | next => cases h
  | result values => exact (result_tracedWithin h).traced hfails
  | run e =>
    rcases (bind_error m).mp h with h | ⟨_, _, _, h⟩
    · exact traced_of_results .run h
    · cases h
  | block body => exact .inr ⟨_, _, .inner, drop_error.mpr h⟩

/-! ### Calls -/

theorem store_traced {unit : NativeUnit} {index : Nat} {vs : List Value} {tys : List Ty}
    (h : (Task.store unit index vs tys).Fails p rounds m x m') :
    (Task.store unit index vs tys).Traced p rounds m x m' := by
  have hfails := h
  change (storeResults unit index vs tys).on m = _ at h
  obtain _ | ⟨v, vs⟩ := vs
  · cases h
  obtain _ | ⟨ty, tys⟩ := tys
  · cases h
  rcases (bind_error m).mp h with h | ⟨w, m₁, hw, h⟩
  · obtain ⟨f, hf, rfl, rfl⟩ := (ofExcept_failed m).mp h
    exact .inl (.nativeResult hf)
  obtain ⟨hresult, rfl⟩ := (ofExcept_ok m).mp hw
  rcases (bind_error m).mp h with h | ⟨_, m₁, hset, h⟩
  · exact hfails.traced_of_frame .store (.setReturn _ _) h
  · exact .inr ⟨_, _, .stored hresult hset, h⟩

/-- A callable on the frame of its call fails in its body or its handler, or in what becomes of the
results. -/
theorem dispatch_traced {levels : Nat} {unit : Callable}
    (h : (Task.dispatch levels unit).Fails p rounds m x m') :
    (Task.dispatch levels unit).Traced p rounds m x m' := by
  have hfails := h
  cases unit with
  | function f =>
    rcases (bind_error m).mp h with h | ⟨flow, m₁, hbody, h⟩
    · exact .inr ⟨_, _, .body, drop_error.mpr h⟩
    · cases flow with
      | onward => cases h
      | done => cases h
      | leave => cases h; exact .inl (.strayJump hbody (.inl rfl))
      | next => cases h; exact .inl (.strayJump hbody (.inr rfl))
  | native unit =>
    change unit.run.on m = _ at h
    unfold NativeUnit.run at h
    split at h
    next run hrun =>
      rcases (bind_error m).mp h with h | ⟨vs, m₁, hvs, h⟩
      · exact .inl (.handler hrun h)
      rcases (bind_error m₁).mp h with h | ⟨g, m₂, hg, h⟩
      · exact hfails.traced_of_frame (.handled hrun hvs) .frame h
      rw [on_frame] at hg
      split at hg
      · cases hg
      next hframes =>
        cases hg
        split at h
        next hcount =>
          cases h
          exact .inl (.tooManyResults hrun hvs hframes hcount)
        next hcount =>
          exact .inr ⟨_, _, .handled hrun hvs hframes (Nat.le_of_not_lt hcount), h⟩
    next run hrun =>
      rcases (bind_error m).mp h with h | ⟨v, m₁, hv, h⟩
      · exact .inl (.mapper hrun h)
      split at h
      next ty tys htys =>
        refine .inr ⟨_, _, .mapped hrun hv htys, ?_⟩
        rcases (bind_error m₁).mp h with h | ⟨w, m₂, hw, h⟩
        · exact (bind_error m₁).mpr (.inl h)
        · exact (bind_error m₁).mpr (.inr ⟨w, m₂, hw, (bind_error m₂).mpr (.inl h)⟩)
      · cases h

/-- **Failures of calls**: a call fails on admission, or because its callable does on the frame of
the call. In both cases the failure is recorded, in the second before the frame is taken away. The
third case is that of native units that take frames away. -/
theorem call_fails_cases {levels : Nat} {unit : Callable} {args : List Value}
    (h : (Task.call levels unit args).Fails p rounds m x m') :
    ((Task.call levels unit args).Arises p rounds m x m ∧ m' = m.recorded x) ∨
      (∃ n m₁ m₂ g fs, Step p rounds (.call levels unit args) m (.dispatch n unit) m₁ ∧
        (Task.dispatch n unit).Fails p rounds m₁ x m₂ ∧ m₂.context.frames = g :: fs ∧
          m' = (m₂.recorded x).withFrames fs) ∨
      ∃ n m₁, levels = n + 1 ∧ FrameGone p rounds n unit args m m₁ ∧ x = .fault .emptyStack := by
  replace h := drop_error.mp h
  cases levels with
  | zero =>
    rw [on_call_zero] at h
    split at h
    next f hprepare =>
      cases h
      exact .inl ⟨.notAdmitted hprepare, rfl⟩
    next g hprepare =>
      cases h
      exact .inl ⟨.tooDeep hprepare (.inl rfl), rfl⟩
  | succ levels =>
    rw [on_call_succ] at h
    split at h
    next f hprepare =>
      cases h
      exact .inl ⟨.notAdmitted hprepare, rfl⟩
    next g hprepare =>
      split at h
      next hfull =>
        cases h
        exact .inl ⟨.tooDeep hprepare (.inr hfull), rfl⟩
      next hfull =>
        rw [on_unwinding] at h
        split at h
        next m₂ hrun =>
          split at h
          next hframes =>
            cases h
            exact .inr (.inr ⟨levels, _, rfl, ⟨g, _, hprepare, hrun, nofun, hframes⟩, rfl⟩)
          · cases h
        next e m₂ hrun =>
          split at h
          next hframes =>
            cases h
            exact .inr (.inr ⟨levels, _, rfl, ⟨g, _, hprepare, hrun, nofun, hframes⟩, rfl⟩)
          next f fs hframes =>
            have hstep : Step p rounds (.call (levels + 1) unit args) m (.dispatch levels unit)
                (m.withFrames (g :: m.context.frames)) := .call hprepare (Nat.lt_of_not_le hfull)
            cases h
            exact .inr (.inl ⟨levels, _, m₂, f, fs, hstep, hrun, hframes, rfl⟩)
        · cases h

/-- The failure of a task that is no whole call comes up in the task itself or in one that is begun
on its behalf, and ends both in the same state. -/
theorem Fails.traced {task : Task} (hcall : ∀ levels unit args, task ≠ .call levels unit args)
    (h : task.Fails p rounds m x m') : task.Traced p rounds m x m' := by
  cases task with
  | call levels unit args => exact absurd rfl (hcall _ _ _)
  | dispatch levels unit => exact dispatch_traced h
  | store unit index vs tys => exact store_traced h
  | block s ss => exact block_traced h
  | stmt s st => exact stmt_traced h
  | loop s cond body n => exact loop_traced h
  | finish s index vs => exact finish_traced h
  | write s v target => exact write_traced h
  | eval s e => exact eval_traced h
  | results s e => exact (results_tracedWithin h).traced h

/-- A failure comes up in the task itself or in one that is begun on its behalf. -/
theorem fails_cases {task : Task} (h : task.Fails p rounds m x m') :
    (∃ m₁, task.Arises p rounds m x m₁) ∨
      ∃ task₂ m₂ m₂', Step p rounds task m task₂ m₂ ∧ task₂.Fails p rounds m₂ x m₂' := by
  by_cases hcall : ∃ levels unit args, task = .call levels unit args
  · obtain ⟨levels, unit, args, rfl⟩ := hcall
    rcases call_fails_cases h with ⟨harises, -⟩ | ⟨n, m₁, m₂, g, fs, hstep, hfails, -⟩ |
      ⟨n, m₁, rfl, hgone, rfl⟩
    · exact .inl ⟨m, harises⟩
    · exact .inr ⟨_, m₁, m₂, hstep, hfails⟩
    · exact .inl ⟨m₁, .frameGone hgone⟩
  · rcases h.traced fun _ _ _ htask => hcall ⟨_, _, _, htask⟩ with
      harises | ⟨task₂, m₂, hstep, hfails⟩
    · exact .inl ⟨m', harises⟩
    · exact .inr ⟨task₂, m₂, m', hstep, hfails⟩

theorem Reaches.trans {task task₁ task₂ : Task} {m₁ m₂ : Machine}
    (h : Reaches p rounds task m task₁ m₁) (h' : Reaches p rounds task₁ m₁ task₂ m₂) :
    Reaches p rounds task m task₂ m₂ := by
  induction h' with
  | start => exact h
  | next _ hlast ih => exact .next ih hlast

/-- What is reached from a task that is begun on behalf of another is reached from the other. -/
theorem Reaches.of_step {task task₁ task₂ : Task} {m₁ m₂ : Machine}
    (hstep : Step p rounds task m task₁ m₁) (h : Reaches p rounds task₁ m₁ task₂ m₂) :
    Reaches p rounds task m task₂ m₂ :=
  .trans (.next .start hstep) h

/-- **Every failure of a run comes up in some task of the run**, in which everything that is done on
its behalf before ends well.

**Proof sketch.** A task that fails is the one the failure comes up in, or it fails because of a
task that is begun on its behalf. Chains of such tasks are finite. -/
theorem Fails.arises {task : Task} (h : task.Fails p rounds m x m') :
    ∃ task₀ m₀ m₁, Reaches p rounds task m task₀ m₀ ∧ task₀.Arises p rounds m₀ x m₁ := by
  induction task using step_induction p rounds generalizing m m' with
  | behalf task ih =>
    rcases fails_cases h with ⟨m₁, harises⟩ | ⟨task₂, m₂, m₂', hstep, hfails⟩
    · exact ⟨task, m, m₁, .start, harises⟩
    · obtain ⟨task₀, m₀, m₁, hr, harises⟩ := ih hstep hfails
      exact ⟨task₀, m₀, m₁, .of_step hstep hr, harises⟩

end Task

end FrameScript
