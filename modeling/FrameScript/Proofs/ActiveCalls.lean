import FrameScript.Proofs.Frames
import FrameScript.Proofs.Records
import FrameScript.Proofs.Subterms
import Mathlib.Data.List.Chain

set_option autoImplicit false

/-!
# The chain of active calls

The names on the control stack are those of callables each of which was called from the body of the
one before. A record names them as they were when the failure came up.

## Main definitions

* `Task.exprs` — the expressions that a task may come to.
* `Task.Makes` — the calls that bodies make in a run.

## Main results

* `Task.Reaches.activeCalls` — the active calls in any state of a run are a chain of such calls.
* `failure_recorded` — what a call from outside leaves in the record.
-/

namespace FrameScript

open Exec

/-! ## Expressions of tasks -/

/-- All expressions of a block. -/
def blockExprs (ss : List Stmt) : List Expr :=
  ((statementsOf ss).flatMap (·.exprs)).flatMap (·.subterms)

/-- All expressions of a statement. -/
def Stmt.allExprs (st : Stmt) : List Expr :=
  (st.withInner.flatMap (·.exprs)).flatMap (·.subterms)

theorem Stmt.subset_blockExprs {st : Stmt} {ss : List Stmt} (h : st ∈ ss) :
    st.allExprs ⊆ blockExprs ss := by
  intro x hx
  simp only [Stmt.allExprs, blockExprs, List.mem_flatMap] at hx ⊢
  obtain ⟨e, ⟨st', hst', he⟩, hx⟩ := hx
  exact ⟨e, ⟨st', mem_statementsOf h hst', he⟩, hx⟩

theorem Stmt.subterms_subset {st : Stmt} {e : Expr} (h : e ∈ st.exprs) :
    e.subterms ⊆ st.allExprs := by
  intro x hx
  simp only [Stmt.allExprs, List.mem_flatMap]
  exact ⟨e, ⟨st, st.mem_withInner_self, h⟩, hx⟩

/-- The expressions of statements inside a statement are expressions of the statement. -/
theorem Stmt.blockExprs_subset {st : Stmt} {ss : List Stmt} (h : ∀ st' ∈ ss, st' ∈ st.inner) :
    blockExprs ss ⊆ st.allExprs := by
  intro x hx
  simp only [Stmt.allExprs, blockExprs, List.mem_flatMap] at hx ⊢
  obtain ⟨e, ⟨st', hst', he⟩, hx⟩ := hx
  obtain ⟨st'', hst'', hst'⟩ := exists_of_mem_statementsOf hst'
  exact ⟨e, ⟨st', Stmt.mem_withInner (h st'' hst'') hst', he⟩, hx⟩

theorem Expr.subterms_subset {e part : Expr} (h : part ∈ e.parts) : part.subterms ⊆ e.subterms :=
  fun _ hx => Expr.mem_subterms h hx

namespace Task

/-- The body a task belongs to. -/
def site? : Task → Option Site
  | .call _ _ _ | .dispatch _ _ | .store _ _ _ _ => none
  | .block s _ | .stmt s _ | .loop s _ _ _ | .finish s _ _ | .write s _ _ | .eval s _
  | .results s _ => some s

/-- The expressions that a task may come to in the body it belongs to. -/
def exprs : Task → List Expr
  | .call _ _ _ | .dispatch _ _ | .store _ _ _ _ | .finish _ _ _ => []
  | .block _ ss => blockExprs ss
  | .stmt _ st => st.allExprs
  | .loop _ cond body _ => cond.subterms ++ blockExprs body
  | .write _ _ target => target.parts.flatMap (·.subterms)
  | .eval _ e | .results _ e => e.subterms

variable {p : Program} {rounds : Nat}

/-- A task that is begun in a body on behalf of another comes to no other expressions. -/
theorem Step.exprs_subset {task₁ task₂ : Task} {m₁ m₂ : Machine} {s : Site}
    (h : Step p rounds task₁ m₁ task₂ m₂) (hs : task₁.site? = some s) :
    task₂.exprs ⊆ task₁.exprs := by
  have htarget {targets : List Target} {target : Target} {value : Expr} (h : target ∈ targets) :
      target.parts.flatMap (·.subterms) ⊆ (Stmt.assign targets value).allExprs := by
    intro x hx
    obtain ⟨e, he, hx⟩ := List.mem_flatMap.mp hx
    refine Stmt.subterms_subset (List.mem_append_left _ ?_) hx
    exact List.mem_flatMap.mpr ⟨target, h, he⟩
  cases h with
  | call | body | handled | mapped | stored => cases hs
  | result | finished | called | acted => exact List.nil_subset _
  | inBlock => exact Stmt.subset_blockExprs (by simp)
  | start | assigned | assignedAll | cond | resultAll | resultEach | run =>
    exact Stmt.subterms_subset (by simp [Stmt.exprs])
  | written => exact htarget (by simp)
  | writtenEach => exact htarget (by simp)
  | chosen =>
    refine Stmt.blockExprs_subset fun st' hst' => ?_
    split at hst'
    · exact List.mem_append_left _ hst'
    · exact List.mem_append_right _ hst'
  | loop =>
    refine List.append_subset.mpr ⟨?_, ?_⟩
    · exact Stmt.subterms_subset (by simp [Stmt.exprs])
    · exact Stmt.blockExprs_subset fun st' hst' => hst'
  | roundCond => exact List.subset_append_left _ _
  | roundBody => exact List.subset_append_right _ _
  | round => exact List.Subset.refl _
  | inner => exact Stmt.blockExprs_subset fun st' hst' => hst'
  | writeBase | writeKey | writeStruct =>
    exact fun x hx => List.mem_flatMap.mpr ⟨_, by simp [Target.parts], hx⟩
  | value | values => exact List.Subset.refl _
  | entry | fieldValue => exact Expr.subterms_subset (by simp [Expr.parts])
  | _ => exact Expr.subterms_subset (by simp [Expr.parts])

/-! ## Active calls -/

/-- The task is part of what the callable does on the frame of its call. -/
def Within (unit : Callable) (task : Task) : Prop :=
  match task with
  | .call _ _ _ => False
  | .dispatch _ unit' => unit = unit'
  | .store native _ _ _ => unit = .native native
  | .block s _ | .stmt s _ | .loop s _ _ _ | .finish s _ _ | .write s _ _ | .eval s _
  | .results s _ => unit = .function s.function ∧ task.exprs ⊆ s.function.exprs

variable (p rounds) in
/-- In the run of the task, the body of the first callable comes to a call or an action of its own
that means the second, and calls it. -/
def Makes (task : Task) (m : Machine) (caller callee : Callable) : Prop :=
  ∃ (s : Site) (e : Expr) (levels : Nat) (args : List Value) (m₁ m₂ : Machine),
    caller = .function s.function ∧ e ∈ s.function.exprs ∧
      Reaches p rounds task m (.results s e) m₁ ∧
      Step p rounds (.results s e) m₁ (.call levels callee args) m₂

/-- What is begun on behalf of a part of what a callable does is such a part, or a call that an
expression of its body makes. -/
theorem Step.within {task₁ task₂ : Task} {m₁ m₂ : Machine} {unit : Callable}
    (h : Step p rounds task₁ m₁ task₂ m₂) (hwithin : task₁.Within unit) :
    task₂.Within unit ∨ ∃ s e levels callee args, task₁ = .results s e ∧
      task₂ = .call levels callee args ∧ unit = .function s.function ∧ e ∈ s.function.exprs := by
  have hsubset (s : Site) (hs : task₁.site? = some s) := h.exprs_subset hs
  cases h with
  | call => cases hwithin
  | body => exact .inl ⟨hwithin, List.Subset.refl _⟩
  | handled | mapped | stored => exact .inl hwithin
  | called | acted =>
    obtain ⟨hunit, hexprs⟩ := hwithin
    exact .inr ⟨_, _, _, _, _, rfl, rfl, hunit, hexprs List.mem_cons_self⟩
  | _ => exact .inl ⟨hwithin.1, List.Subset.trans (hsubset _ rfl) hwithin.2⟩

variable (p rounds) in
/-- A state of the run of a task in which the given callables are active, each called from the body
of the one before, and something is done on the frame of the last. -/
structure CallChain (start : Task) (m : Machine) (units : List Callable) (task₀ : Task)
    (m₀ : Machine) : Prop where
  trace : m₀.context.trace = units.map (·.sig.qualifiedName)
  chain : units.IsChain (Makes p rounds start m)
  within : ∃ last ∈ units.getLast?, task₀.Within last ∨ ∃ levels callee args,
    task₀ = .call levels callee args ∧ Makes p rounds start m last callee

/-- A call that is admitted is one more active call. -/
theorem CallChain.enter {start : Task} {m m₀ : Machine} {units : List Callable} {levels : Nat}
    {callee : Callable} {args : List Value} {g : Frame} (hg : prepare callee args = .ok g)
    (h : CallChain p rounds start m units (.call (levels + 1) callee args) m₀) :
    CallChain p rounds start m (units ++ [callee]) (.dispatch levels callee)
      (m₀.withFrames (g :: m₀.context.frames)) where
  trace := by
    have hcons : (m₀.withFrames (g :: m₀.context.frames)).context.trace =
        m₀.context.trace ++ [g.unit] := by simp [Context.trace]
    rw [hcons, h.trace, prepare_unit hg, List.map_append, List.map_singleton]
  chain := by
    obtain ⟨last, hlast, hwithin | ⟨_, _, _, htask, hmakes⟩⟩ := h.within
    · cases hwithin
    cases htask
    refine h.chain.append (.singleton callee) fun u hu v hv => ?_
    obtain rfl : u = last := Option.mem_unique hu hlast
    obtain rfl : callee = v := by simpa using hv
    exact hmakes
  within := ⟨callee, by simp, .inl rfl⟩

/-- What is begun on behalf of a part of what an active callable does finds the same calls
active. -/
theorem CallChain.step (hp : p.NativesDiscreet) {start task₁ task₂ : Task} {m m₁ m₂ : Machine}
    {units : List Callable} (hlinked : task₁.Linked p) (hr : Reaches p rounds start m task₁ m₁)
    (hstep : Step p rounds task₁ m₁ task₂ m₂) {last : Callable} (hlast : last ∈ units.getLast?)
    (hwithin : task₁.Within last) (h : CallChain p rounds start m units task₁ m₁) :
    CallChain p rounds start m units task₂ m₂ where
  trace := by
    refine (hstep.alike hp hlinked ?_).trace.trans h.trace
    rintro levels unit args rfl
    cases hwithin
  chain := h.chain
  within := by
    refine ⟨last, hlast, (hstep.within hwithin).imp_right ?_⟩
    rintro ⟨s, e, levels, callee, args, rfl, rfl, hunit, he⟩
    exact ⟨levels, callee, args, rfl, s, e, levels, args, m₁, m₂, hunit, he, hr, hstep⟩

/-- **Active calls are chains of calls**: in each state of the run of a call that begins without any
active call, but that of the beginning, the active calls are a chain that leads from the callable
that was called to one on whose frame something is done.

**Proof sketch.** Induction on the run. A call that is admitted adds its callable to the active
calls, and no other task changes them. A call is begun only by an expression of the body on whose
frame the run is. -/
theorem Reaches.callChain (hp : p.NativesDiscreet) {levels : Nat} {unit : Callable}
    {args : List Value} {m m₀ : Machine} {task : Task}
    (hlinked : (Task.call levels unit args).Linked p) (hempty : m.context.frames = [])
    (h : Reaches p rounds (.call levels unit args) m task m₀) :
    task = .call levels unit args ∧ m₀ = m ∨
      ∃ units, CallChain p rounds (.call levels unit args) m (unit :: units) task m₀ := by
  induction h with
  | start => exact .inl ⟨rfl, rfl⟩
  | @next task₁ task₂ m₁ m₂ hr hstep ih =>
    have hlinked₁ : task₁.Linked p := hr.linked hlinked
    rcases ih with ⟨rfl, rfl⟩ | ⟨units, h⟩
    · cases hstep with
      | call hg _ =>
        refine .inr ⟨[], ?_, .singleton unit, unit, rfl, .inl rfl⟩
        simp [Context.trace, hempty, prepare_unit hg]
    · obtain ⟨last, hlast, hwithin | ⟨levels', callee, args', rfl, -⟩⟩ := h.within
      · exact .inr ⟨units, h.step hp hlinked₁ hr hstep hlast hwithin⟩
      · cases hstep with
        | call hg _ => exact .inr ⟨units ++ [callee], h.enter hg⟩

end Task

/-! ## Calls from outside -/

/-- The trace that belongs to the failure of a call by name that begins without any active call. -/
inductive FailureTrace (p : Program) (name : String) (args : List Value) (m : Machine) :
    Failure → List String → Prop
  /-- There is no such callable. -/
  | unresolved {f : Fault} (h : p.resolve name = .error f) :
    FailureTrace p name args m (.fault f) []
  /-- The callable does not take the arguments. -/
  | notPrepared {unit : Callable} {f : Fault} (hunit : p.resolve name = .ok unit)
    (h : prepare unit args = .error f) : FailureTrace p name args m (.fault f) []
  /-- Not even one call may be active. -/
  | notPushed {unit : Callable} {g : Frame} (hunit : p.resolve name = .ok unit)
    (h : prepare unit args = .ok g) (hroom : m.context.maxDepth = 0) :
    FailureTrace p name args m (.fault (.stackOverflow 0)) []
  /-- The failure comes up in the run of the callable: the trace names the calls active then. -/
  | active {unit : Callable} {units : List Callable} {task₀ : Task} {m₀ m₁ : Machine} {x : Failure}
    (hunit : p.resolve name = .ok unit)
    (hr : Task.Reaches p maxRounds (.call m.context.room unit args) m task₀ m₀)
    (harises : task₀.Arises p maxRounds m₀ x m₁)
    (hchain : Task.CallChain p maxRounds (.call m.context.room unit args) m (unit :: units) task₀
      m₀)
    (htrace : m₁.context.trace = m₀.context.trace) :
    FailureTrace p name args m x ((unit :: units).map (·.sig.qualifiedName))

section Outside

variable {p : Program} {name : String} {args : List Value} {m m' : Machine}

/-- The record of a call that fails, begun without a record and without any active call. -/
theorem failureTrace_of_call (hp : p.NativesDiscreet) (hempty : m.context.frames = [])
    (hnone : m.context.failure? = none) {unit : Callable} (hunit : p.resolve name = .ok unit)
    {x : Failure}
    (h : (call p maxRounds m.context.room unit args).on m = (.error (.failed x), m')) :
    ∃ trace, m'.context.failure? = some ⟨x.message, x.fault?, trace⟩ ∧
      FailureTrace p name args m x trace := by
  have hlinked : (Task.call m.context.room unit args).Linked p :=
    ⟨name, Program.find?_of_resolve hunit⟩
  have hdepth : m.context.depth = 0 := by rw [Context.depth, hempty, List.length_nil]
  have hfails : (Task.call m.context.room unit args).Fails p maxRounds m x m' :=
    Task.drop_error.mpr h
  obtain ⟨task₀, m₀, m₁, hr, harises, hlinked₀, hrecord | ⟨-, -, hcall⟩⟩ :=
    hfails.recorded hp hlinked hnone
  · refine ⟨m₁.context.trace, hrecord, ?_⟩
    have halike := harises.alike hp hlinked₀
    rcases hr.callChain hp hlinked hempty with ⟨rfl, rfl⟩ | ⟨units, hchain⟩
    · have htrace : m₁.context.trace = [] := by
        rw [halike.trace, Context.trace, hempty]
        rfl
      rw [htrace]
      rcases harises.call_cases hp hlinked with ⟨f, hf, rfl⟩ | ⟨g, hg, hfull, rfl⟩
      · exact .notPrepared hunit hf
      · have hroom : m₀.context.maxDepth = 0 := by
          rw [Context.room, hdepth] at hfull
          omega
        rw [hdepth]
        exact .notPushed hunit hg hroom
    · have htrace := hchain.trace
      rw [← halike.trace] at htrace
      rw [htrace]
      exact .active hunit hr harises hchain halike.trace
  · exact absurd rfl (hcall _ _ _)

end Outside

end FrameScript
