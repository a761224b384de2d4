import FrameScript.Proofs.Run
import FrameScript.Proofs.Storage

set_option autoImplicit false

/-!
# Reasons of failures

A run that fails does so because something in it fails first: a slot is not there, an operator does
not apply, a callee does not take its arguments. Here is the list of these reasons, each with what
had been evaluated before it came up.

## Main definitions

* `OnFrame` — a computation on the innermost frame, which fails only because of that frame.
* `RaisesIn` — a computation that fails with faults of one kind only.
* `WithinReturns` — one that never complains of a result beyond those declared.
* `Task.Fails` — a task that ends with a failure.
* `Task.UsesFrame` — the states in which a task uses its frame.
* `Task.Arises` — a failure that comes up in a task itself, not in what is done on its behalf.
* `Task.ArisesOnStack` — the ways in which faults of the control stack do.
-/

namespace FrameScript

open Exec

/-! ## Steps on the frame -/

/-- Whether a fault says that a frame or a part of one is missing, empty or unknown. -/
def Fault.isOfFrame : Fault → Bool
  | .emptyStack | .slotOutOfRange _ _ _ => true
  | .wiring (.tempUnwritten _) | .wiring (.noSlot _) | .wiring (.returnOutOfRange _ _ _) => true
  | _ => false

/-- A computation on the innermost frame: only because of that frame it ends without a value, and
neither the active calls nor the failure that is kept change. -/
structure OnFrame {α : Type} (x : Exec α) : Prop where
  fault (m m' : Machine) (s : Stop) : x.on m = (.error s, m') →
    ∃ f, s = .failed (.fault f) ∧ f.isOfFrame = true
  failure? (m : Machine) : (x.on m).2.context.failure? = m.context.failure?
  trace (m : Machine) : (x.on m).2.context.trace = m.context.trace

namespace OnFrame

variable {α β : Type}

/-- What ends with a value and leaves the state as it is. -/
theorem of_ok {x : Exec α} (hx : ∀ m, ∃ a, x.on m = (.ok a, m)) : OnFrame x where
  fault m m' s h := by
    obtain ⟨a, ha⟩ := hx m
    cases ha.symm.trans h
  failure? m := by
    obtain ⟨a, ha⟩ := hx m
    rw [ha]
  trace m := by
    obtain ⟨a, ha⟩ := hx m
    rw [ha]

theorem of_fault {f : Fault} (hf : f.isOfFrame = true) : OnFrame (Exec.fault f : Exec α) where
  fault m m' s h := by
    cases h
    exact ⟨f, rfl, hf⟩
  failure? _ := rfl
  trace _ := rfl

theorem bind {x : Exec α} {k : α → Exec β} (hx : OnFrame x) (hk : ∀ a, OnFrame (k a)) :
    OnFrame (x >>= k) where
  fault m m' s h := by
    rcases (bind_error m).mp h with h | ⟨a, m₁, -, h⟩
    · exact hx.fault m m' s h
    · exact (hk a).fault m₁ m' s h
  failure? m := by
    rw [on_bind]
    rcases h : x.on m with ⟨s | a, m₁⟩
    · simpa only [h] using hx.failure? m
    · exact ((hk a).failure? m₁).trans (by simpa only [h] using hx.failure? m)
  trace m := by
    rw [on_bind]
    rcases h : x.on m with ⟨s | a, m₁⟩
    · simpa only [h] using hx.trace m
    · exact ((hk a).trace m₁).trans (by simpa only [h] using hx.trace m)

theorem slotOf (name : String) (slot? : Option Nat) : OnFrame (slotOf name slot?) := by
  cases slot? with
  | some slot => exact of_ok fun m => ⟨slot, rfl⟩
  | none => exact of_fault rfl

theorem frame : OnFrame frame where
  fault m m' s h := by
    rw [on_frame] at h
    split at h
    · cases h
      exact ⟨_, rfl, rfl⟩
    · cases h
  failure? m := by rw [on_frame]; split <;> rfl
  trace m := by rw [on_frame]; split <;> rfl

theorem getSlot (index : Nat) : OnFrame (getSlot index) := by
  refine bind frame fun f => ?_
  unfold Frame.get
  split
  · exact of_ok fun m => ⟨_, rfl⟩
  · exact of_fault rfl

/-- A change of the innermost frame to one of the same call. -/
theorem of_change {x : Exec α} (change : Frame → Except Fault (α × Frame))
    (hx : ∀ m, x.on m = match m.context.frames with
      | [] => (.error (.failed (.fault .emptyStack)), m)
      | f :: rest => match change f with
        | .ok (a, g) => (.ok a, m.withFrames (g :: rest))
        | .error e => (.error (.failed (.fault e)), m))
    (hfault : ∀ f e, change f = .error e → e.isOfFrame = true)
    (hname : ∀ f a g, change f = .ok (a, g) → g.unit = f.unit) : OnFrame x where
  fault m m' s h := by
    rw [hx] at h
    split at h
    · cases h
      exact ⟨_, rfl, rfl⟩
    next f rest _ =>
      split at h
      · cases h
      next e he =>
        cases h
        exact ⟨e, rfl, hfault f e he⟩
  failure? m := by
    rw [hx]
    split
    · rfl
    · split <;> rfl
  trace m := by
    rw [hx]
    split
    · rfl
    next f rest hfs =>
      split
      next a g hg => simp [Context.trace, hfs, hname f a g hg]
      · rfl

theorem modifyFrame {change : Frame → Except Fault Frame}
    (hfault : ∀ f e, change f = .error e → e.isOfFrame = true)
    (hname : ∀ f g, change f = .ok g → g.unit = f.unit) : OnFrame (modifyFrame change) := by
  refine of_change (fun f => (change f).map ((), ·)) (fun m => ?_) (fun f e h => ?_)
    fun f a g h => ?_
  · rw [on_modifyFrame]
    rcases m.context.frames with _ | ⟨f, rest⟩
    · rfl
    · rcases hf : change f with e | g <;> simp [hf, Except.map]
  · rcases hf : change f with e' | g <;> rw [hf] at h <;> cases h
    exact hfault f _ hf
  · rcases hf : change f with e' | g <;> rw [hf] at h <;> cases h
    exact hname f _ hf

theorem setSlot (index : Nat) (v : Value) : OnFrame (setSlot index v) := by
  refine modifyFrame (fun f e h => ?_) fun f g h => ?_ <;> unfold Frame.set at h <;> split at h <;>
    cases h <;> rfl

theorem setTemp (index : Nat) (v : Value) : OnFrame (setTemp index v) := by
  refine modifyFrame (fun f e h => ?_) fun f g h => ?_ <;> unfold Frame.setTemp at h <;>
    split at h <;> cases h <;> rfl

theorem setReturn (index : Nat) (v : Value) : OnFrame (setReturn index v) := by
  refine modifyFrame (fun f e h => ?_) fun f g h => ?_ <;> unfold Frame.setReturn at h <;>
    split at h <;> cases h <;> rfl

theorem takeTemp (index : Nat) : OnFrame (takeTemp index) := by
  refine of_change (·.takeTemp index) (fun m => ?_) (fun f e h => ?_) fun f v g h => ?_
  · rw [on_takeTemp]
    rcases m.context.frames with _ | ⟨f, rest⟩
    · rfl
    · rcases hf : f.takeTemp index with e | ⟨v, g⟩ <;> simp [hf]
  all_goals
    unfold Frame.takeTemp at h
    split at h <;> cases h
    all_goals rfl

theorem takeStaged (stage count : Nat) : OnFrame (takeStaged stage count) := by
  refine bind frame fun _ => ?_
  induction count generalizing stage with
  | zero => exact of_ok fun m => ⟨[], rfl⟩
  | succ count ih =>
    exact bind (takeTemp stage) fun v => bind (ih (stage + 1)) fun vs => of_ok fun m => ⟨_, rfl⟩

end OnFrame

/-! ## Complaints of results -/

section Results

variable {α β : Type}

/-- The fault of a result beyond those declared. -/
def Fault.isBeyond : Fault → Bool
  | .wiring (.returnOutOfRange _ _ _) => true
  | _ => false

theorem Fault.isOfStack_of_isBeyond {f : Fault} (h : f.isBeyond = true) :
    f.isOfStack = true := by
  cases f with
  | wiring cause => cases cause <;> first | rfl | cases h
  | _ => cases h

theorem Fault.isBeyond_of_isOfStack {f : Fault} (h : f.isOfStack = false) :
    f.isBeyond = false := by
  rcases hf : f.isBeyond with _ | _
  · rfl
  · rw [Fault.isOfStack_of_isBeyond hf] at h
    cases h

theorem Fault.isBeyond_of_isStructural {f : Fault} (h : f.isStructural = false) :
    f.isBeyond = false := by
  cases f with
  | wiring => cases h
  | _ => rfl

/-- A computation that fails with faults of a kind, if it fails with a fault. -/
def RaisesIn (kind : Fault → Prop) (x : Exec α) : Prop :=
  ∀ m m' f, x.on m = (.error (.failed (.fault f)), m') → kind f

namespace RaisesIn

variable {kind : Fault → Prop}

theorem pure (a : α) : RaisesIn kind (pure a) := by
  intro m m' f h
  cases h

theorem fault {f : Fault} (h : kind f) : RaisesIn kind (fault f : Exec α) := by
  intro m m' f' h'
  cases h'
  exact h

theorem bind {x : Exec α} {k : α → Exec β} (hx : RaisesIn kind x)
    (hk : ∀ a, RaisesIn kind (k a)) : RaisesIn kind (x >>= k) := by
  intro m m' f h
  rcases (bind_error m).mp h with h | ⟨a, m₁, -, h⟩
  · exact hx m m' f h
  · exact hk a m₁ m' f h

theorem ofExcept {r : Except Fault α} (hr : FaultsIn kind r) : RaisesIn kind (ofExcept r) := by
  intro m m' f h
  obtain ⟨e, he, hx, -⟩ := (ofExcept_error m).mp h
  cases hx
  exact hr f he

theorem imp {kind' : Fault → Prop} {x : Exec α} (hx : RaisesIn kind x)
    (himp : ∀ f, kind f → kind' f) : RaisesIn kind' x :=
  fun m m' f h => himp f (hx m m' f h)

theorem frame (h : kind .emptyStack) : RaisesIn kind frame := by
  intro m m' f hf
  rw [on_frame] at hf
  split at hf <;> cases hf
  exact h

end RaisesIn

/-- A computation that never ends with a result beyond those declared. -/
abbrev WithinReturns (x : Exec α) : Prop :=
  RaisesIn (·.isBeyond = false) x

namespace WithinReturns

open RaisesIn

theorem ofExcept {r : Except Fault α} (hr : StackFree r) : WithinReturns (ofExcept r) :=
  RaisesIn.ofExcept fun f h => Fault.isBeyond_of_isOfStack (hr f h)

theorem slotOf (name : String) (slot? : Option Nat) : WithinReturns (slotOf name slot?) := by
  intro m m' f h
  cases slot? <;> cases h
  rfl

theorem frame : WithinReturns frame :=
  RaisesIn.frame rfl

theorem getSlot (index : Nat) : WithinReturns (getSlot index) := by
  refine bind frame fun g => ?_
  unfold Frame.get
  split
  · exact pure _
  · exact fault rfl

/-- A change of the innermost frame complains of nothing that the change does not complain of. -/
theorem modifyFrame {change : Frame → Except Fault Frame}
    (hchange : ∀ g f, change g = .error f → f.isBeyond = false) :
    WithinReturns (modifyFrame change) := by
  intro m m' f h
  rw [on_modifyFrame] at h
  split at h
  · cases h
    rfl
  next g rest _ =>
    split at h
    · cases h
    next e he =>
      cases h
      exact hchange g _ he

theorem setSlot (index : Nat) (v : Value) : WithinReturns (setSlot index v) := by
  refine modifyFrame fun g f h => ?_
  unfold Frame.set at h
  split at h <;> cases h
  rfl

theorem setTemp (index : Nat) (v : Value) : WithinReturns (setTemp index v) := by
  refine modifyFrame fun g f h => ?_
  unfold Frame.setTemp at h
  split at h <;> cases h
  rfl

theorem takeTemp (index : Nat) : WithinReturns (takeTemp index) := by
  intro m m' f h
  rw [on_takeTemp] at h
  split at h
  · cases h
    rfl
  · split at h
    · cases h
    next g _ _ e he =>
      cases h
      unfold Frame.takeTemp at he
      split at he <;> cases he <;> rfl

theorem takeStaged (stage count : Nat) : WithinReturns (takeStaged stage count) := by
  refine bind frame fun _ => ?_
  induction count generalizing stage with
  | zero => exact pure _
  | succ count ih =>
    exact bind (takeTemp stage) fun v => bind (ih (stage + 1)) fun vs => pure _

end WithinReturns

end Results

/-! ## Failures of single tasks -/

namespace Task

variable (p : Program) (rounds : Nat)

/-- The task ends with the failure, in the second state. -/
def Fails (task : Task) (m : Machine) (e : Failure) (m' : Machine) : Prop :=
  (task.exec p rounds).on m = (.error (.failed e), m')

/-- The task uses its frame in the second state: everything that is done on its behalf before ends
well. -/
inductive UsesFrame : Task → Machine → Machine → Prop
  /-- A variable is read. -/
  | read {s : Site} {x : Variable} {m : Machine} : UsesFrame (.eval s (.var x)) m m
  /-- A variable is written. -/
  | write {s : Site} {v : Value} {x : Variable} {m : Machine} : UsesFrame (.write s v (.var x)) m m
  /-- A variable starts at its default. -/
  | define {s : Site} {name : String} {ty : Ty} {slot? : Option Nat} {m : Machine} :
    UsesFrame (.stmt s (.define name ty none slot?)) m m
  /-- A result of a body is stored. -/
  | finish {s : Site} {index : Nat} {vs : List Value} {m : Machine} :
    UsesFrame (.finish s index vs) m m
  /-- A result of a native unit is stored. -/
  | store {unit : NativeUnit} {index : Nat} {vs : List Value} {tys : List Ty} {m : Machine} :
    UsesFrame (.store unit index vs tys) m m
  /-- A definition stores its start value. -/
  | start {s : Site} {name : String} {ty : Ty} {init : Expr} {slot? : Option Nat} {v : Value}
    {m m' : Machine} (hv : (init.eval (s.code p rounds)).on m = (.ok v, m')) :
    UsesFrame (.stmt s (.define name ty (some init) slot?)) m m'
  /-- The values of a result are stored. -/
  | result {s : Site} {values : List Expr} {vs : List Value} {m m' : Machine}
    (hvs : (resultValues (s.code p rounds) values).on m = (.ok vs, m')) :
    UsesFrame (.stmt s (.result values)) m m'
  /-- The results of a handler are stored. -/
  | handled {levels : Nat} {unit : NativeUnit} {run : Exec (List Value)} {vs : List Value}
    {m m' : Machine} (hrun : unit.handler = .function run) (hvs : run.on m = (.ok vs, m')) :
    UsesFrame (.dispatch levels (.native unit)) m m'
  /-- An argument of a call is staged. -/
  | callArg {s : Site} {callee : String} {before after : List Expr} {e : Expr} {stage : Nat}
    {unit : Callable} {v : Value} {m m₁ m₂ : Machine} (hunit : p.resolve callee = .ok unit)
    (hbefore : (stageArgs (s.code p rounds) stage before).on m = (.ok (), m₁))
    (hv : (e.eval (s.code p rounds)).on m₁ = (.ok v, m₂)) :
    UsesFrame (.results s (.call callee (before ++ e :: after) stage)) m m₂
  /-- The arguments of a call are taken out. -/
  | callArgs {s : Site} {callee : String} {args : List Expr} {stage : Nat} {unit : Callable}
    {m m' : Machine} (hunit : p.resolve callee = .ok unit)
    (hargs : (stageArgs (s.code p rounds) stage args).on m = (.ok (), m')) :
    UsesFrame (.results s (.call callee args stage)) m m'
  /-- The connector of an action is staged. -/
  | target {s : Site} {target : Expr} {name : String} {args : List Expr} {stage : Nat} {v : Value}
    {m m' : Machine} (htarget : (target.eval (s.code p rounds)).on m = (.ok v, m')) :
    UsesFrame (.results s (.action target name args stage)) m m'
  /-- An argument of an action is staged. -/
  | actionArg {s : Site} {target : Expr} {name : String} {before after : List Expr} {e : Expr}
    {stage : Nat} {v w : Value} {m m₁ m₂ m₃ m₄ : Machine}
    (htarget : (target.eval (s.code p rounds)).on m = (.ok v, m₁))
    (hstaged : (Exec.setTemp stage v).on m₁ = (.ok (), m₂))
    (hbefore : (stageArgs (s.code p rounds) (stage + 1) before).on m₂ = (.ok (), m₃))
    (hw : (e.eval (s.code p rounds)).on m₃ = (.ok w, m₄)) :
    UsesFrame (.results s (.action target name (before ++ e :: after) stage)) m m₄
  /-- The connector and the arguments of an action are taken out. -/
  | actionArgs {s : Site} {target : Expr} {name : String} {args : List Expr} {stage : Nat}
    {v : Value} {m m₁ m₂ m₃ : Machine}
    (htarget : (target.eval (s.code p rounds)).on m = (.ok v, m₁))
    (hstaged : (Exec.setTemp stage v).on m₁ = (.ok (), m₂))
    (hargs : (stageArgs (s.code p rounds) (stage + 1) args).on m₂ = (.ok (), m₃)) :
    UsesFrame (.results s (.action target name args stage)) m m₃

/-- A callable that runs on the frame of its call leaves an empty control stack behind. -/
def FrameGone (levels : Nat) (unit : Callable) (args : List Value) (m m' : Machine) : Prop :=
  ∃ g ending, prepare unit args = .ok g ∧
    (FrameScript.dispatch p rounds (FrameScript.call p rounds levels) unit).on
      (m.withFrames (g :: m.context.frames)) = (ending, m') ∧
    ending ≠ .error .exhausted ∧ m'.context.frames = []

/-- The failure comes up in the task itself: everything that is done on its behalf before ends well.
The second state is the one in which the failure comes up. -/
inductive Arises : Task → Machine → Failure → Machine → Prop
  /-- A frame, or a part of one, is not there. -/
  | frame {task : Task} {α : Type} {y : Exec α} {m m₁ m₂ : Machine} {f : Fault}
    (hfails : Fails p rounds task m (.fault f) m₂) (huses : UsesFrame p rounds task m m₁)
    (hy : OnFrame y) (h : y.on m₁ = (.error (.failed (.fault f)), m₂)) : Arises task m (.fault f) m₂
  /-- The frame of a call is gone when the call ends. -/
  | frameGone {levels : Nat} {unit : Callable} {args : List Value} {m m' : Machine}
    (h : FrameGone p rounds levels unit args m m') :
    Arises (.call (levels + 1) unit args) m (.fault .emptyStack) m'
  /-- A callable does not take its arguments. -/
  | notAdmitted {levels : Nat} {unit : Callable} {args : List Value} {m : Machine} {f : Fault}
    (h : prepare unit args = .error f) : Arises (.call levels unit args) m (.fault f) m
  /-- There is no room for another call. -/
  | tooDeep {levels : Nat} {unit : Callable} {args : List Value} {m : Machine} {g : Frame}
    (hg : prepare unit args = .ok g)
    (hfull : levels = 0 ∨ m.context.maxDepth ≤ m.context.depth) :
    Arises (.call levels unit args) m (.fault (.stackOverflow m.context.depth)) m
  /-- The body of a function ends with a jump. -/
  | strayJump {levels : Nat} {f : Function} {flow : Flow} {m m' : Machine}
    (h : (execBlock ((Site.mk levels f).code p rounds) f.body).on m = (.ok flow, m'))
    (hflow : flow = .leave ∨ flow = .next) :
    Arises (.dispatch levels (.function f)) m (.fault (.analyzerDefect .strayJump)) m'
  /-- The handler of a native unit fails. -/
  | handler {levels : Nat} {unit : NativeUnit} {run : Exec (List Value)} {m m' : Machine}
    {e : Failure} (hrun : unit.handler = .function run)
    (h : run.on m = (.error (.failed e), m')) : Arises (.dispatch levels (.native unit)) m e m'
  /-- A type mapper fails. -/
  | mapper {levels : Nat} {unit : NativeUnit} {run : Exec Value} {m m' : Machine} {e : Failure}
    (hrun : unit.handler = .typeMapper run) (h : run.on m = (.error (.failed e), m')) :
    Arises (.dispatch levels (.native unit)) m e m'
  /-- The handler of a native unit hands over more results than the frame has room for. -/
  | tooManyResults {levels : Nat} {unit : NativeUnit} {run : Exec (List Value)} {vs : List Value}
    {f : Frame} {fs : List Frame} {m m' : Machine} (hrun : unit.handler = .function run)
    (h : run.on m = (.ok vs, m')) (hf : m'.context.frames = f :: fs)
    (hcount : f.returns.length < vs.length) :
    Arises (.dispatch levels (.native unit)) m
      (.fault (.wiring (.tooManyResults unit.sig.qualifiedName vs.length f.returns.length))) m'
  /-- A result of a native unit does not go where it is declared to. -/
  | nativeResult {unit : NativeUnit} {index : Nat} {v : Value} {vs : List Value} {ty : Ty}
    {tys : List Ty} {m : Machine} {f : Fault} (h : nativeResult unit ty v = .error f) :
    Arises (.store unit index (v :: vs) (ty :: tys)) m (.fault f) m
  /-- A value does not go into the variable it is the start value of. -/
  | start {s : Site} {name : String} {ty : Ty} {init : Expr} {slot? : Option Nat} {v : Value}
    {m m' : Machine} {f : Fault} (hv : (init.eval (s.code p rounds)).on m = (.ok v, m'))
    (h : v.bind ty = .error f) :
    Arises (.stmt s (.define name ty (some init) slot?)) m (.fault f) m'
  /-- The default of a type does not go into a variable of the type. -/
  | default {s : Site} {name : String} {ty : Ty} {slot? : Option Nat} {m : Machine} {f : Fault}
    (h : ty.default.bind ty = .error f) :
    Arises (.stmt s (.define name ty none slot?)) m (.fault f) m
  /-- There are not as many values as targets. -/
  | assignmentCount {s : Site} {targets : List Target} {value : Expr} {vs : List Value}
    {m m' : Machine} (htargets : targets.length ≠ 1)
    (hvs : (value.results (s.code p rounds)).on m = (.ok vs, m'))
    (hcount : vs.length ≠ targets.length) :
    Arises (.stmt s (.assign targets value)) m
      (.fault (.analyzerDefect (.assignmentCount targets.length vs.length))) m'
  /-- The condition of a choice is no truth value. -/
  | condition {s : Site} {cond : Expr} {yes no : List Stmt} {v : Value} {m m' : Machine}
    (hv : (cond.eval (s.code p rounds)).on m = (.ok v, m')) (h : v.bool? = none) :
    Arises (.stmt s (.branch cond yes no)) m (.fault (.analyzerDefect (.condition v.ty))) m'
  /-- The condition of a loop is no truth value. -/
  | loopCondition {s : Site} {cond : Expr} {body : List Stmt} {n : Nat} {v : Value}
    {m m' : Machine} (hv : (cond.eval (s.code p rounds)).on m = (.ok v, m'))
    (h : v.bool? = none) :
    Arises (.loop s cond body (n + 1)) m (.fault (.analyzerDefect (.condition v.ty))) m'
  /-- A result does not go where it is declared to. -/
  | result {s : Site} {index : Nat} {v : Value} {vs : List Value} {m : Machine} {f : Fault}
    (h : bindAs s.function.sig.returns[index]? v = .error f) :
    Arises (.finish s index (v :: vs)) m (.fault f) m
  /-- A value does not go into the variable it is assigned to. -/
  | slot {s : Site} {x : Variable} {slot : Nat} {v : Value} {m : Machine} {f : Fault}
    (hslot : x.slot? = some slot) (h : bindAs s.function.layout.slots[slot]? v = .error f) :
    Arises (.write s v (.var x)) m (.fault f) m
  /-- What an element is to be written to is null. -/
  | writeToNull {s : Site} {v k : Value} {tag : RefTy} {base key : Expr} {m m₁ m₂ : Machine}
    (hbase : (base.eval (s.code p rounds)).on m = (.ok (.null tag), m₁))
    (hkey : (key.eval (s.code p rounds)).on m₁ = (.ok k, m₂)) :
    Arises (.write s v (.index base key)) m (.fault (nullFault base)) m₂
  /-- An array is written to under a key that is no number. -/
  | arrayIndex {s : Site} {v k : Value} {elem : Ty} {id : Nat} {base key : Expr}
    {m m₁ m₂ : Machine} {f : Fault}
    (hbase : (base.eval (s.code p rounds)).on m = (.ok (.array elem id), m₁))
    (hkey : (key.eval (s.code p rounds)).on m₁ = (.ok k, m₂)) (h : arrayIndex k = .error f) :
    Arises (.write s v (.index base key)) m (.fault f) m₂
  /-- A value does not go into the array it is written to. -/
  | elementBind {s : Site} {v k : Value} {elem : Ty} {id : Nat} {base key : Expr}
    {m m₁ m₂ : Machine} {f : Fault}
    (hbase : (base.eval (s.code p rounds)).on m = (.ok (.array elem id), m₁))
    (hkey : (key.eval (s.code p rounds)).on m₁ = (.ok k, m₂)) (h : v.bind elem = .error f) :
    Arises (.write s v (.index base key)) m (.fault f) m₂
  /-- An array is written to in front of its first element. -/
  | negativeIndex {s : Site} {v : Value} {index : Int64} {elem : Ty} {id : Nat} {base key : Expr}
    {m m₁ m₂ : Machine}
    (hbase : (base.eval (s.code p rounds)).on m = (.ok (.array elem id), m₁))
    (hkey : (key.eval (s.code p rounds)).on m₁ = (.ok (.int index), m₂))
    (h : index.toInt < 0) :
    Arises (.write s v (.index base key)) m
      (.fault (.indexOutOfRange index (m₂.heap.array id).size)) m₂
  /-- A map is written to under a key that is no text. -/
  | mapKey {s : Site} {v k : Value} {id : Nat} {base key : Expr} {m m₁ m₂ : Machine} {f : Fault}
    (hbase : (base.eval (s.code p rounds)).on m = (.ok (.map id), m₁))
    (hkey : (key.eval (s.code p rounds)).on m₁ = (.ok k, m₂)) (h : mapKey k = .error f) :
    Arises (.write s v (.index base key)) m (.fault f) m₂
  /-- What an element is to be written to has no elements that can be written. -/
  | notIndexable {s : Site} {v container k : Value} {base key : Expr} {m m₁ m₂ : Machine}
    (hbase : (base.eval (s.code p rounds)).on m = (.ok container, m₁))
    (hkey : (key.eval (s.code p rounds)).on m₁ = (.ok k, m₂))
    (hnull : container.isNull = false) (harray : ∀ elem id, container ≠ .array elem id)
    (hmap : ∀ id, container ≠ .map id) :
    Arises (.write s v (.index base key)) m
      (.fault (.analyzerDefect (.notIndexable container.ty))) m₂
  /-- What a field is to be written to is null. -/
  | writeFieldOfNull {s : Site} {v : Value} {tag : RefTy} {base : Expr} {name : String}
    {m m₁ : Machine} (hbase : (base.eval (s.code p rounds)).on m = (.ok (.null tag), m₁)) :
    Arises (.write s v (.field base name)) m (.fault (nullFault base)) m₁
  /-- A value does not go into the field it is assigned to. -/
  | fieldBind {s : Site} {v : Value} {struct : String} {id : Nat} {base : Expr} {name : String}
    {m m₁ : Machine} {f : Fault}
    (hbase : (base.eval (s.code p rounds)).on m = (.ok (.struct struct id), m₁))
    (h : bindAs ((p.struct? struct).bind (·.fieldType? name)) v = .error f) :
    Arises (.write s v (.field base name)) m (.fault f) m₁
  /-- A struct does not have the field that is to be written. -/
  | noStructField {s : Site} {v : Value} {struct : String} {id : Nat} {base : Expr} {name : String}
    {m m₁ : Machine} (hbase : (base.eval (s.code p rounds)).on m = (.ok (.struct struct id), m₁))
    (h : Heap.field? name (m₁.heap.struct id) = none) :
    Arises (.write s v (.field base name)) m
      (.fault (.analyzerDefect (.noStructField struct name))) m₁
  /-- What a field is to be written to has no fields that can be written. -/
  | noField {s : Site} {v target : Value} {base : Expr} {name : String} {m m₁ : Machine}
    (hbase : (base.eval (s.code p rounds)).on m = (.ok target, m₁))
    (hnull : target.isNull = false) (hstruct : ∀ struct id, target ≠ .struct struct id) :
    Arises (.write s v (.field base name)) m (.fault (.analyzerDefect (.noField target.ty name))) m₁
  /-- An element does not go into the array it is one of. -/
  | item {s : Site} {elem : Ty} {before after : List Expr} {e : Expr} {vs : List Value} {v : Value}
    {m m₁ m₂ : Machine} {f : Fault}
    (hbefore : (evalItems (s.code p rounds) elem before).on m = (.ok vs, m₁))
    (hv : (e.eval (s.code p rounds)).on m₁ = (.ok v, m₂)) (h : v.bind elem = .error f) :
    Arises (.eval s (.array elem (before ++ e :: after))) m (.fault f) m₂
  /-- A struct of an unknown type is to be made. -/
  | unknownStruct {s : Site} {name : String} {fields : List (String × Expr)} {m : Machine}
    (h : p.struct? name = none) :
    Arises (.eval s (.struct name fields)) m (.fault (.analyzerDefect (.unknownStruct name))) m
  /-- A value does not go into the field of a new struct, or there is no such field. -/
  | initField {s : Site} {name field : String} {before after : List (String × Expr)} {e : Expr}
    {decl : StructDecl} {fields : List (String × Value)} {v : Value} {m m₁ m₂ : Machine} {f : Fault}
    (hdecl : p.struct? name = some decl)
    (hbefore : (evalFields (s.code p rounds) decl (defaultFields decl) before).on m =
      (.ok fields, m₁))
    (hv : (e.eval (s.code p rounds)).on m₁ = (.ok v, m₂))
    (h : initField decl field v fields = .error f) :
    Arises (.eval s (.struct name (before ++ (field, e) :: after))) m (.fault f) m₂
  /-- The payload of a message is no text. -/
  | payload {s : Site} {payload : Expr} {v : Value} {m m' : Machine}
    (hv : (payload.eval (s.code p rounds)).on m = (.ok v, m')) (h : v.str? = none) :
    Arises (.eval s (.message payload)) m (.fault (.analyzerDefect (.payload v.ty))) m'
  /-- There is no such element. -/
  | element {s : Site} {base key : Expr} {container k : Value} {m m₁ m₂ : Machine} {f : Fault}
    (hbase : (base.eval (s.code p rounds)).on m = (.ok container, m₁))
    (hkey : (key.eval (s.code p rounds)).on m₁ = (.ok k, m₂))
    (h : element m₂.heap base container k = .error f) :
    Arises (.eval s (.index base key)) m (.fault f) m₂
  /-- There is no such field. -/
  | member {s : Site} {base : Expr} {name : String} {target : Value} {m m' : Machine} {f : Fault}
    (hbase : (base.eval (s.code p rounds)).on m = (.ok target, m'))
    (h : fieldOf p m'.heap base target name = .error f) :
    Arises (.eval s (.field base name)) m (.fault f) m'
  /-- A unary operator does not apply. -/
  | unary {s : Site} {op : UnaryOp} {operand : Expr} {v : Value} {m m' : Machine} {f : Fault}
    (hv : (operand.eval (s.code p rounds)).on m = (.ok v, m')) (h : op.apply v = .error f) :
    Arises (.eval s (.unary op operand)) m (.fault f) m'
  /-- A binary operator does not apply. -/
  | binary {s : Site} {op : BinaryOp} {left right : Expr} {l r : Value} {m m₁ m₂ : Machine}
    {f : Fault} (hleft : (left.eval (s.code p rounds)).on m = (.ok l, m₁))
    (hopen : shortCircuit? op l = none)
    (hright : (right.eval (s.code p rounds)).on m₁ = (.ok r, m₂))
    (h : op.apply m₂.heap l r = .error f) : Arises (.eval s (.binary op left right)) m (.fault f) m₂
  /-- A conversion does not apply. -/
  | cast {s : Site} {operand : Expr} {target : Ty} {v : Value} {m m' : Machine} {f : Fault}
    (hv : (operand.eval (s.code p rounds)).on m = (.ok v, m')) (h : v.cast target = .error f) :
    Arises (.eval s (.cast operand target)) m (.fault f) m'
  /-- A call in the place of a value has none. -/
  | noValue {s : Site} {e : Expr} {m m' : Machine} (he : e.isCall = true)
    (hvs : (e.results (s.code p rounds)).on m = (.ok [], m')) :
    Arises (.eval s e) m (.fault (.analyzerDefect .noValue)) m'
  /-- The callee of a call is unknown. -/
  | unresolved {s : Site} {callee : String} {args : List Expr} {stage : Nat} {m : Machine}
    {f : Fault} (h : p.resolve callee = .error f) :
    Arises (.results s (.call callee args stage)) m (.fault f) m
  /-- What an action is called on is no connector. -/
  | notConnector {s : Site} {target : Expr} {name : String} {args : List Expr} {stage : Nat}
    {v : Value} {m m' : Machine} {f : Fault}
    (htarget : (target.eval (s.code p rounds)).on m = (.ok v, m'))
    (h : connectorName name v = .error f) :
    Arises (.results s (.action target name args stage)) m (.fault f) m'
  /-- An action is unknown. -/
  | unresolvedAction {s : Site} {target : Expr} {name connector : String} {args : List Expr}
    {stage : Nat} {v : Value} {m m₁ m₂ m₃ : Machine} {f : Fault}
    (htarget : (target.eval (s.code p rounds)).on m = (.ok v, m₁))
    (hconnector : connectorName name v = .ok connector)
    (hstaged : (Exec.setTemp stage v).on m₁ = (.ok (), m₂))
    (hargs : (stageArgs (s.code p rounds) (stage + 1) args).on m₂ = (.ok (), m₃))
    (h : p.resolve (connector ++ "." ++ name) = .error f) :
    Arises (.results s (.action target name args stage)) m (.fault f) m₃

/-- A fault of the control stack comes up in the task itself. The second state is the one in which
it comes up. -/
inductive ArisesOnStack : Task → Machine → Fault → Machine → Prop
  /-- A frame, or a part of one, is not there. -/
  | frame {task : Task} {m m₁ m₂ : Machine} {f : Fault}
    (hfails : Fails p rounds task m (.fault f) m₂) (huses : UsesFrame p rounds task m m₁)
    (hframe : f.isOfFrame = true) : ArisesOnStack task m f m₂
  /-- The frame of a call is gone when the call ends. -/
  | frameGone {levels : Nat} {unit : Callable} {args : List Value} {m m' : Machine}
    (h : FrameGone p rounds levels unit args m m') :
    ArisesOnStack (.call (levels + 1) unit args) m .emptyStack m'
  /-- There is no room for another call. -/
  | tooDeep {levels : Nat} {unit : Callable} {args : List Value} {m : Machine} {g : Frame}
    (hg : prepare unit args = .ok g)
    (hfull : levels = 0 ∨ m.context.maxDepth ≤ m.context.depth) :
    ArisesOnStack (.call levels unit args) m (.stackOverflow m.context.depth) m
  /-- The handler of a native unit raises it. -/
  | native {levels : Nat} {unit : NativeUnit} {m m' : Machine} {f : Fault}
    (h : ¬ unit.handler.Has fun _ run => ∀ m', run.on m ≠ (.error (.failed (.fault f)), m')) :
    ArisesOnStack (.dispatch levels (.native unit)) m f m'

variable {p rounds}

/-- Operations on values and objects raise no faults of the control stack, and neither does the
admission of a call, so such a fault comes up in one of few ways. -/
theorem Arises.onStack {task : Task} {m m' : Machine} {f : Fault}
    (h : task.Arises p rounds m (.fault f) m') (hf : f.isOfStack = true) :
    task.ArisesOnStack p rounds m f m' := by
  have hnone {α : Type} {r : Except Fault α} (hr : StackFree r) (h : r = .error f) : False := by
    rw [hr f h] at hf
    cases hf
  have hvalues {α : Type} {r : Except Fault α} (hr : OfValues r) (h : r = .error f) : False :=
    hnone hr.stackFree h
  have hnull {base : Expr} (h : f = nullFault base) : False := by
    rw [h, Fault.isOfStack_of_isOfValues (OfValues.nullFault base)] at hf
    cases hf
  cases h with
  | frame hfails huses hy hon =>
    obtain ⟨e, he, hframe⟩ := hy.fault _ _ _ hon
    cases he
    exact .frame hfails huses hframe
  | frameGone hgone => exact .frameGone hgone
  | tooDeep hg hfull => exact .tooDeep hg hfull
  | handler hrun hon | mapper hrun hon =>
    refine .native fun hhas => ?_
    rw [hrun] at hhas
    exact hhas _ hon
  | notAdmitted h => exact (hnone (OfCalls.prepare _ _).stackFree h).elim
  | nativeResult h => exact (hnone (OfCalls.nativeResult _ _ _).stackFree h).elim
  | start _ h | default h | elementBind _ _ h | item _ _ h =>
    exact (hvalues (OfOperations.valueBind _ _).ofValues h).elim
  | result h | slot _ h | fieldBind _ h =>
    exact (hvalues (OfOperations.bindAs _ _).ofValues h).elim
  | writeToNull | writeFieldOfNull => exact (hnull rfl).elim
  | arrayIndex _ _ h => exact (hvalues (OfOperations.arrayIndex _).ofValues h).elim
  | mapKey _ _ h => exact (hvalues (OfOperations.mapKey _).ofValues h).elim
  | initField _ _ _ h => exact (hvalues (OfOperations.initField _ _ _ _).ofValues h).elim
  | element _ _ h => exact (hvalues (OfValues.element _ _ _ _) h).elim
  | member _ h => exact (hnone (StackFree.fieldOf _ _ _ _ _) h).elim
  | unary _ h => exact (hvalues (OfOperations.unaryApply _ _).ofValues h).elim
  | binary _ _ _ h => exact (hvalues (OfOperations.binaryApply _ _ _ _).ofValues h).elim
  | cast _ h => exact (hvalues (OfOperations.cast _ _).ofValues h).elim
  | unresolved h | unresolvedAction _ _ _ _ h =>
    exact (hnone (OfCalls.resolve _ _).stackFree h).elim
  | notConnector _ h => exact (hvalues (OfValues.connectorName _ _) h).elim
  | _ => cases hf

end Task

end FrameScript
