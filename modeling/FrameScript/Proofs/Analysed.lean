import FrameScript.Proofs.Preservation
import FrameScript.Proofs.TopType

set_option autoImplicit false

/-!
# Runs of analysed programs

Whatever a run of a program does, the analysis of the program has looked at: the expressions that
are evaluated and the statements that are run are those of functions of the program. If the analysis
finds nothing, it finds nothing in any of them.

## Main definitions

* `Judgement.OfText` — a judgement that speaks of nothing but what is written in the function.
* `Task.Analysed` — what the analysis makes sure of for a task.

## Main results

* `flow_of_checkBlock` — bodies in which nothing is found do not end with a jump.
* `Task.Step.analysed`, `Task.Reaches.analysed` — the analysis makes sure of all tasks of a run.
-/

namespace FrameScript

open Checker Exec

/-! ## Jumps -/

section Flow

variable {code : Code} {c : Checker} {returns : List Ty}

/-- A loop goes on with the next statement or leaves the function. -/
theorem flow_of_runLoop {cond : Exec Bool} {body : Exec Flow} {n : Nat} {m m' : Machine}
    {flow : Flow} (h : (runLoop cond body n).on m = (.ok flow, m')) :
    flow = .onward ∨ flow = .done := by
  induction n generalizing m with
  | zero => cases h
  | succ n ih =>
    obtain ⟨holds, m₁, _, h⟩ := (bind_ok m).mp h
    cases holds with
    | false =>
      cases h
      exact .inl rfl
    | true =>
      obtain ⟨inner, m₂, _, h⟩ := (bind_ok m₁).mp h
      cases inner with
      | leave =>
        cases h
        exact .inl rfl
      | done =>
        cases h
        exact .inr rfl
      | onward | next => exact ih h

mutual

/-- A statement outside of loops in which nothing is found does not jump. -/
theorem flow_of_check (s : Stmt) (hclean : s.check c returns false = []) {m m' : Machine}
    {flow : Flow} (h : (s.exec code).on m = (.ok flow, m')) : flow = .onward ∨ flow = .done := by
  cases s with
  | define name ty init? slot? =>
    cases init?
    all_goals
      simp only [Stmt.exec] at h
      obtain ⟨_, m₁, _, h⟩ := (bind_ok m).mp h
      obtain ⟨_, m₂, _, h⟩ := (bind_ok m₁).mp h
      obtain ⟨_, m₃, _, h⟩ := (bind_ok m₂).mp h
      obtain ⟨_, m₄, _, h⟩ := (bind_ok m₃).mp h
      obtain ⟨_, _, _, h⟩ := (bind_ok m₄).mp h
      cases h
      exact .inl rfl
  | assign targets value =>
    simp only [Stmt.exec] at h
    obtain ⟨_, _, _, h⟩ := (bind_ok m).mp h
    cases h
    exact .inl rfl
  | branch cond yes no =>
    simp only [Stmt.check, List.append_eq_nil_iff] at hclean
    simp only [Stmt.exec] at h
    obtain ⟨holds, m₁, _, h⟩ := (bind_ok m).mp h
    cases holds with
    | true => exact flow_of_checkBlock yes hclean.2.1 h
    | false => exact flow_of_checkBlock no hclean.2.2 h
  | loop cond body =>
    simp only [Stmt.exec] at h
    exact flow_of_runLoop h
  | leave => simp [Stmt.check] at hclean
  | next => simp [Stmt.check] at hclean
  | result values =>
    simp only [Stmt.exec] at h
    obtain ⟨_, m₁, _, h⟩ := (bind_ok m).mp h
    obtain ⟨_, m₂, _, h⟩ := (bind_ok m₁).mp h
    obtain ⟨_, _, _, h⟩ := (bind_ok m₂).mp h
    cases h
    exact .inr rfl
  | run e =>
    simp only [Stmt.exec] at h
    obtain ⟨_, _, _, h⟩ := (bind_ok m).mp h
    cases h
    exact .inl rfl
  | block body =>
    simp only [Stmt.check] at hclean
    simp only [Stmt.exec] at h
    exact flow_of_checkBlock body hclean h

/-- A block outside of loops in which nothing is found does not jump. -/
theorem flow_of_checkBlock (ss : List Stmt) (hclean : checkBlock c returns false ss = [])
    {m m' : Machine} {flow : Flow} (h : (execBlock code ss).on m = (.ok flow, m')) :
    flow = .onward ∨ flow = .done := by
  cases ss with
  | nil =>
    cases h
    exact .inl rfl
  | cons s ss =>
    rw [checkBlock, List.append_eq_nil_iff] at hclean
    simp only [execBlock] at h
    obtain ⟨first, m₁, hfirst, h⟩ := (bind_ok m).mp h
    cases first with
    | onward => exact flow_of_checkBlock ss hclean.2 h
    | leave | next | done =>
      cases h
      exact flow_of_check s hclean.1 hfirst

end

end Flow

/-! ## Tasks -/

/-- The judgement admits only expressions, statements and targets that are written in the
function. -/
structure Judgement.OfText (J : Judgement) (f : Function) : Prop where
  expr : ∀ {e}, J.Admits e → e ∈ f.exprs
  stmt : ∀ {s}, J.Runs s → s ∈ statementsOf f.body
  target : ∀ {target v}, J.Takes target v → ∃ s ∈ statementsOf f.body, target ∈ s.targets

/-- What the analysis makes sure of for a task besides its parts: a value that is evaluated has a
type, and conditions of loops are compatible with truth values. -/
def Task.Analysed (p : Program) : Task → Prop
  | .loop s cond _ _ =>
    (s.function.checker p).expecting .boolean (cond.infer (s.function.checker p)) = []
  | .eval s e => (e.infer (s.function.checker p)).2 = []
  | _ => True

section Accepted

variable {p : Program} (hcheck : p.check = [])

include hcheck

/-- Nothing is found in the expressions of the function under way. -/
theorem Site.Under.expr_clean {s : Site} {names : List String} (hs : s.Under p names) {e : Expr}
    (he : e ∈ s.function.exprs) : (e.inferAll (s.function.checker p)).2 = [] := by
  obtain ⟨name, hfound⟩ := hs.found
  exact Function.exprs_clean (Program.checkBlock_clean hcheck (Program.mem_functions hfound)) e he

/-- Nothing is found in the statements of the function under way. -/
theorem Site.Under.stmt_clean {s : Site} {names : List String} (hs : s.Under p names) {st : Stmt}
    (hst : st ∈ statementsOf s.function.body) :
    ∃ inLoop, st.check (s.function.checker p) s.function.sig.returns inLoop = [] := by
  obtain ⟨name, hfound⟩ := hs.found
  exact statementsOf_clean (Program.checkBlock_clean hcheck (Program.mem_functions hfound)) st hst

variable {D : Discipline} {J : Function → Judgement}
  (hJ : ∀ name f, p.find? name = some (.function f) → (J f).OfText f) {rounds : Nat}

include hJ

/-- Nothing is found in the expressions that an assignment evaluates for its target. -/
theorem Site.Under.target_clean {s : Site} {names : List String} {v : Value} {target : Target}
    (hs : s.Under p names) (htakes : (J s.function).Takes target v) :
    (target.infer (s.function.checker p)).2 = [] ∧
      ∀ x ∈ target.parts, (x.infer (s.function.checker p)).2 = [] := by
  obtain ⟨name, hfound⟩ := hs.found
  obtain ⟨st, hst, htarget⟩ := (hJ name _ hfound).target htakes
  obtain ⟨inLoop, hclean⟩ := hs.stmt_clean hcheck hst
  have htarget := Stmt.targets_clean hclean target htarget
  exact ⟨htarget, Target.parts_clean htarget⟩

/-- **The analysis looks at whatever a run does.** What it makes sure of for a task, it makes sure
of for the tasks that are begun on behalf of it. -/
theorem Task.Step.analysed {task₁ task₂ : Task} {m₁ m₂ : Machine}
    (hbegun : task₁.BegunWell D J p m₁) (h : task₁.Analysed p)
    (hstep : Task.Step p rounds task₁ m₁ task₂ m₂) : task₂.Analysed p := by
  obtain ⟨t, hm, hknown⟩ := hbegun
  have hpart {s : Site} {names : List String} {e x : Expr} (hs : s.Under p names)
      (he : (J s.function).Admits e) (hx : x ∈ e.parts) :
      (x.infer (s.function.checker p)).2 = [] := by
    obtain ⟨name, hfound⟩ := hs.found
    exact Expr.parts_clean (hs.expr_clean hcheck ((hJ name _ hfound).expr he)) x hx
  have hstmt {s : Site} {names : List String} {st : Stmt} (hs : s.Under p names)
      (hst : (J s.function).Runs st) :
      ∃ inLoop, st.check (s.function.checker p) s.function.sig.returns inLoop = [] := by
    obtain ⟨name, hfound⟩ := hs.found
    exact hs.stmt_clean hcheck ((hJ name _ hfound).stmt hst)
  cases hstep with
  | start =>
    obtain ⟨_, hclean⟩ := hstmt hknown.1 hknown.2
    exact (expecting_eq_nil.mp (by simpa only [Stmt.check] using hclean)).1
  | @assigned s target value =>
    obtain ⟨_, hclean⟩ := hstmt hknown.1 hknown.2
    obtain ⟨_, _, hone, _⟩ := checkAssign_clean (by simpa only [Stmt.check] using hclean)
    exact (expecting_eq_nil.mp (hone target rfl)).1
  | cond =>
    obtain ⟨_, hclean⟩ := hstmt hknown.1 hknown.2
    simp only [Stmt.check, List.append_eq_nil_iff] at hclean
    exact (expecting_eq_nil.mp hclean.1).1
  | loop =>
    obtain ⟨_, hclean⟩ := hstmt hknown.1 hknown.2
    simp only [Stmt.check, List.append_eq_nil_iff] at hclean
    exact hclean.1
  | roundCond => exact (expecting_eq_nil.mp h).1
  | round => exact h
  | @resultEach s before after e vs _ _ hone _ =>
    obtain ⟨_, hclean⟩ := hstmt hknown.1 hknown.2
    have hvalues := (checkResult_clean (by simpa only [Stmt.check] using hclean)).2.1 hone
    exact mem_of_forall₂_expecting hvalues e (by simp)
  | @writeBase s v base key =>
    exact (hknown.1.target_clean hcheck hJ hknown.2.2).2 base (by simp [Target.parts])
  | @writeKey s v container base key =>
    exact (hknown.1.target_clean hcheck hJ hknown.2.2).2 key (by simp [Target.parts])
  | @writeStruct s v base name =>
    exact (hknown.1.target_clean hcheck hJ hknown.2.2).2 base (by simp [Target.parts])
  | @value s e _ he =>
    obtain ⟨name, hfound⟩ := hknown.1.found
    have hclean := hknown.1.expr_clean hcheck ((hJ name _ hfound).expr hknown.2)
    rwa [Expr.inferAll_of_not_isCall he] at hclean
  | callArg | actionTarget | actionArg | item | entry | fieldValue | connectorArg | payload | base
  | key | field | operand | left | right | castOperand =>
    exact hpart hknown.1 hknown.2 (by simp [Expr.parts])
  | _ => trivial

/-- The analysis has made sure of all tasks of a run. -/
theorem Task.Reaches.analysed {natives : Registry} (hD : D.Judges J natives p)
    {task task' : Task} {m m' : Machine} (hbegun : task.BegunWell D J p m) (h : task.Analysed p)
    (hr : Task.Reaches p rounds task m task' m') :
    task'.BegunWell D J p m' ∧ task'.Analysed p := by
  refine hr.invariant (I := fun task m => task.BegunWell D J p m ∧ task.Analysed p) ?_ ⟨hbegun, h⟩
  intro task₁ m₁ task₂ m₂ hall hstep
  exact ⟨Task.Step.keeps hD hall.1 hstep, hstep.analysed hcheck hJ hall.1 hall.2⟩

end Accepted

end FrameScript
