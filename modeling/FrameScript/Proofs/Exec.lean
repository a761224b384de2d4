import FrameScript.Machine.Call

set_option autoImplicit false

/-!
# Computations on given states

A computation applied to a state gives an ending and the state afterwards. The equations here say
what each building block of computations does to a state, so that proofs about bodies and calls
follow the text of the definitions without opening the monad.

## Main definitions

* `Exec.on` — a computation applied to a state.
* `Machine.withFrames`, `Machine.withHeap` — a state with another control stack or other objects.
* `Machine.recorded` — a state in which a failure is kept.
* `Handler.Has` — a property of computations that the computation of a native unit has.

## Main results

* `Exec.on_bind` and the other `Exec.on_…` — the equations of the building blocks.
* `Exec.bind_ok`, `Exec.bind_error` — how a sequence ends with a value, and without one.
* `on_call_succ`, `on_unwinding` — what a whole call does, and makes of the ending of its body.
* `on_call_refused`, `on_call_full`, `on_call_room` — the ways a call can go.
-/

namespace FrameScript

/-! ## States -/

namespace Machine

/-- The state with another control stack. -/
def withFrames (m : Machine) (frames : List Frame) : Machine :=
  { m with context := { m.context with frames } }

/-- The state with other objects. -/
def withHeap (m : Machine) (heap : Heap) : Machine :=
  { m with heap }

@[simp] theorem withFrames_frames (m : Machine) (fs : List Frame) :
    (m.withFrames fs).context.frames = fs := rfl

@[simp] theorem withFrames_heap (m : Machine) (fs : List Frame) :
    (m.withFrames fs).heap = m.heap := rfl

@[simp] theorem withFrames_output (m : Machine) (fs : List Frame) :
    (m.withFrames fs).output = m.output := rfl

@[simp] theorem withFrames_maxDepth (m : Machine) (fs : List Frame) :
    (m.withFrames fs).context.maxDepth = m.context.maxDepth := rfl

@[simp] theorem withFrames_failure? (m : Machine) (fs : List Frame) :
    (m.withFrames fs).context.failure? = m.context.failure? := rfl

@[simp] theorem withFrames_properties (m : Machine) (fs : List Frame) :
    (m.withFrames fs).context.properties = m.context.properties := rfl

@[simp] theorem withFrames_withFrames (m : Machine) (fs gs : List Frame) :
    (m.withFrames fs).withFrames gs = m.withFrames gs := rfl

@[simp] theorem withFrames_self (m : Machine) : m.withFrames m.context.frames = m := rfl

@[simp] theorem withHeap_heap (m : Machine) (h : Heap) : (m.withHeap h).heap = h := rfl

@[simp] theorem withHeap_context (m : Machine) (h : Heap) :
    (m.withHeap h).context = m.context := rfl

@[simp] theorem withHeap_output (m : Machine) (h : Heap) :
    (m.withHeap h).output = m.output := rfl

@[simp] theorem withHeap_self (m : Machine) : m.withHeap m.heap = m := rfl

@[simp] theorem withHeap_withFrames (m : Machine) (h : Heap) (fs : List Frame) :
    (m.withHeap h).withFrames fs = (m.withFrames fs).withHeap h := rfl

/-- The state in which a failure is kept, unless one is kept already. -/
def recorded (m : Machine) (f : Failure) : Machine :=
  { m with context := match m.context.failure? with
      | some _ => m.context
      | none => { m.context with failure? := some ⟨f.message, f.fault?, m.context.trace⟩ } }

/-- The first failure is kept with the active calls. -/
theorem recorded_of_none {m : Machine} (f : Failure) (h : m.context.failure? = none) :
    (m.recorded f).context.failure? = some ⟨f.message, f.fault?, m.context.trace⟩ := by
  simp [recorded, h]

/-- A failure is not kept behind another. -/
theorem recorded_of_some {m : Machine} (f : Failure) {r : FaultRecord}
    (h : m.context.failure? = some r) : (m.recorded f).context.failure? = some r := by
  simp [recorded, h]

@[simp] theorem recorded_frames (m : Machine) (f : Failure) :
    (m.recorded f).context.frames = m.context.frames := by
  unfold recorded
  split <;> rfl

@[simp] theorem recorded_trace (m : Machine) (f : Failure) :
    (m.recorded f).context.trace = m.context.trace := by
  rw [Context.trace, recorded_frames, Context.trace]

@[simp] theorem recorded_heap (m : Machine) (f : Failure) : (m.recorded f).heap = m.heap := rfl

@[simp] theorem recorded_maxDepth (m : Machine) (f : Failure) :
    (m.recorded f).context.maxDepth = m.context.maxDepth := by
  unfold recorded
  split <;> rfl

@[simp] theorem recorded_properties (m : Machine) (f : Failure) :
    (m.recorded f).context.properties = m.context.properties := by
  unfold recorded
  split <;> rfl

end Machine

/-! ## Building blocks -/

namespace Exec

variable {α β : Type} (m : Machine)

/-- A computation applied to a state: how it ends, and the state afterwards. -/
def on (x : Exec α) (m : Machine) : Except Stop α × Machine :=
  x.run.run m

@[simp] theorem on_pure (a : α) : on (pure a) m = (.ok a, m) := rfl

@[simp] theorem on_throw (s : Stop) : on (throw s : Exec α) m = (.error s, m) := rfl

@[simp] theorem on_fault (f : Fault) :
    on (fault f : Exec α) m = (.error (.failed (.fault f)), m) := rfl

@[simp] theorem on_hostError (s : String) :
    on (hostError s : Exec α) m = (.error (.failed (.host s)), m) := rfl

@[simp] theorem on_ofExcept_ok (a : α) : on (ofExcept (.ok a)) m = (.ok a, m) := rfl

@[simp] theorem on_ofExcept_error (f : Fault) :
    on (ofExcept (.error f) : Exec α) m = (.error (.failed (.fault f)), m) := rfl

/-- A sequence goes on exactly if its first part ends with a value. -/
theorem on_bind (x : Exec α) (f : α → Exec β) :
    on (x >>= f) m = match on x m with
      | (.ok a, m') => on (f a) m'
      | (.error s, m') => (.error s, m') := by
  rcases h : on x m with ⟨_ | _, m'⟩
  all_goals
    simp only [on] at h
    simp only [on, ExceptT.run_bind, StateT.run_bind, h]
    rfl

/-- What a handler makes of an error, and a value that passes it by. -/
theorem on_tryCatch (x : Exec α) (handle : Stop → Exec α) :
    on (tryCatch x handle) m = match on x m with
      | (.ok a, m') => (.ok a, m')
      | (.error s, m') => on (handle s) m' := by
  rcases h : on x m with ⟨_ | _, m'⟩
  all_goals
    simp only [on] at h
    simp [on, tryCatch, tryCatchThe, MonadExceptOf.tryCatch, ExceptT.tryCatch, ExceptT.run,
      ExceptT.mk, StateT.run_bind]
    rw [show StateT.run x m = _ from h]
    rfl

/-! ### Reading and changing the state -/

@[simp] theorem on_heap : on heap m = (.ok m.heap, m) := rfl

@[simp] theorem on_context : on context m = (.ok m.context, m) := rfl

@[simp] theorem on_modifyHeap (change : Heap → Heap) :
    on (modifyHeap change) m = (.ok (), m.withHeap (change m.heap)) := rfl

@[simp] theorem on_modifyContext (change : Context → Context) :
    on (modifyContext change) m = (.ok (), { m with context := change m.context }) := rfl

@[simp] theorem on_print (s : String) :
    on (print s) m = (.ok (), { m with output := m.output ++ s }) := rfl

@[simp] theorem on_make (new : Heap → Value × Heap) :
    on (make new) m = (.ok (new m.heap).1, m.withHeap (new m.heap).2) := rfl

/-! ### The control stack -/

theorem on_push (f : Frame) :
    on (push f) m =
      if m.context.maxDepth ≤ m.context.depth then
        (.error (.failed (.fault (.stackOverflow m.context.depth))), m)
      else (.ok (), m.withFrames (f :: m.context.frames)) := by
  simp only [push, on_bind, on_context]
  split <;> rfl

theorem on_pop :
    on pop m = match m.context.frames with
      | [] => (.error (.failed (.fault .emptyStack)), m)
      | f :: rest => (.ok f, m.withFrames rest) := by
  simp only [pop, on_bind, on_context]
  cases m.context.frames <;> rfl

theorem on_frame :
    on frame m = match m.context.frames with
      | [] => (.error (.failed (.fault .emptyStack)), m)
      | f :: _ => (.ok f, m) := by
  simp only [frame, on_bind, on_context]
  cases m.context.frames <;> rfl

theorem on_modifyFrame (change : Frame → Except Fault Frame) :
    on (modifyFrame change) m = match m.context.frames with
      | [] => (.error (.failed (.fault .emptyStack)), m)
      | f :: rest => match change f with
        | .ok g => (.ok (), m.withFrames (g :: rest))
        | .error e => (.error (.failed (.fault e)), m) := by
  simp only [modifyFrame, on_bind, on_frame]
  rcases h : m.context.frames with _ | ⟨f, rest⟩
  · rfl
  · rcases hc : change f with e | g
    · simp [hc]
    · simp only [hc, on_ofExcept_ok, on_modifyContext, h, List.tail_cons]
      rfl

theorem on_takeTemp (index : Nat) :
    on (takeTemp index) m = match m.context.frames with
      | [] => (.error (.failed (.fault .emptyStack)), m)
      | f :: rest => match f.takeTemp index with
        | .ok (v, g) => (.ok v, m.withFrames (g :: rest))
        | .error e => (.error (.failed (.fault e)), m) := by
  simp only [takeTemp, on_bind, on_frame]
  rcases h : m.context.frames with _ | ⟨f, rest⟩
  · rfl
  · rcases hc : f.takeTemp index with e | ⟨v, g⟩
    · simp [hc]
    · simp only [hc, on_ofExcept_ok, on_modifyContext, on_pure, h, List.tail_cons]
      rfl

/-- An argument is read on the innermost frame. -/
theorem on_argument_of_frames {m : Machine} {f : Frame} {fs : List Frame}
    (hm : m.context.frames = f :: fs) (index : Nat) :
    on (argument index) m = on (ofExcept (f.argument index)) m := by
  simp only [argument, on_bind, on_frame, hm]

/-- A result that the innermost frame has a slot for is written there. -/
theorem on_setReturn {m : Machine} {f : Frame} {fs : List Frame}
    (hm : m.context.frames = f :: fs) {index : Nat} (hindex : index < f.returns.length)
    (v : Value) :
    on (setReturn index v) m =
      (.ok (), m.withFrames ({ f with returns := f.returns.set index v } :: fs)) := by
  rw [setReturn, on_modifyFrame, hm]
  simp only [Frame.setReturn, if_pos hindex]

/-! ### Failures -/

/-- Running a computation and recording its failure. -/
theorem on_recording (x : Exec α) :
    on (recording x) m = match on x m with
      | (.ok a, m') => (.ok a, m')
      | (.error (.failed f), m') => (.error (.failed f), m'.recorded f)
      | (.error .exhausted, m') => (.error .exhausted, m') := by
  simp only [recording, on_tryCatch]
  rcases on x m with ⟨(f | _) | a, m'⟩ <;> rfl

/-! ### How sequences end -/

/-- A sequence that ends with a value has a first part that does. -/
theorem bind_ok {x : Exec α} {f : α → Exec β} {b : β} {m' : Machine} :
    on (x >>= f) m = (.ok b, m') ↔
      ∃ a m₁, on x m = (.ok a, m₁) ∧ on (f a) m₁ = (.ok b, m') := by
  rw [on_bind]
  rcases on x m with ⟨s | a, m₁⟩
  · simp
  · exact ⟨fun h => ⟨a, m₁, rfl, h⟩, by rintro ⟨a, m₁, h, h'⟩; cases h; exact h'⟩

/-- A sequence that ends without a value does so in its first part or in what follows. -/
theorem bind_error {x : Exec α} {f : α → Exec β} {s : Stop} {m' : Machine} :
    on (x >>= f) m = (.error s, m') ↔ on x m = (.error s, m') ∨
      ∃ a m₁, on x m = (.ok a, m₁) ∧ on (f a) m₁ = (.error s, m') := by
  rw [on_bind]
  rcases on x m with ⟨t | a, m₁⟩
  · simp
  · exact ⟨fun h => .inr ⟨a, m₁, rfl, h⟩, by rintro (h | ⟨a, m₁, h, h'⟩) <;> cases h; exact h'⟩

/-- What follows a first part that ends with a value. -/
theorem on_bind_ok {x : Exec α} {f : α → Exec β} {a : α} {m m' : Machine}
    (h : on x m = (.ok a, m')) : on (x >>= f) m = on (f a) m' := by
  rw [on_bind, h]

/-- A sequence whose first part ends without a value ends just so. -/
theorem on_bind_error {x : Exec α} {f : α → Exec β} {s : Stop} {m m' : Machine}
    (h : on x m = (.error s, m')) : on (x >>= f) m = (.error s, m') := by
  rw [on_bind, h]

/-- What follows a result that may be a fault and is none. -/
theorem on_ofExcept_bind {r : Except Fault α} {f : α → Exec β} {a : α} (h : r = .ok a)
    (m : Machine) : on (ofExcept r >>= f) m = on (f a) m := by
  rw [h]
  rfl

/-- The fault that a computation ends with, if that is how it ends. -/
def faultOf? : Except Stop α → Option Fault
  | .error (.failed (.fault f)) => some f
  | _ => none

/-- A computation whose ending is a fault ends with that fault. -/
theorem on_of_faultOf? {x : Exec α} {f : Fault} (h : faultOf? (x.on m).1 = some f) :
    x.on m = (.error (.failed (.fault f)), (x.on m).2) := by
  unfold faultOf? at h
  split at h
  next hx =>
    cases h
    exact Prod.ext hx rfl
  · cases h

/-- The number that a call ends with, if that is how it ends. -/
def intOf? : Except Stop (List Value) → Option Int64
  | .ok [.int n] => some n
  | _ => none

/-- A call whose ending is a number ends with that number. -/
theorem on_of_intOf? {x : Exec (List Value)} {n : Int64} (h : intOf? (x.on m).1 = some n) :
    x.on m = (.ok [.int n], (x.on m).2) := by
  unfold intOf? at h
  split at h
  next hx =>
    cases h
    exact Prod.ext hx rfl
  · cases h

/-- A result that may be a fault ends with a value only if it is none. -/
theorem ofExcept_ok {r : Except Fault α} {a : α} {m' : Machine} :
    on (ofExcept r) m = (.ok a, m') ↔ r = .ok a ∧ m = m' := by
  rcases r with f | b
  · simp
  · simp

/-- A result that may be a fault ends without a value only if it is one. -/
theorem ofExcept_error {r : Except Fault α} {s : Stop} {m' : Machine} :
    on (ofExcept r) m = (.error s, m') ↔
      ∃ f, r = .error f ∧ s = .failed (.fault f) ∧ m = m' := by
  rcases r with f | a
  · simp [eq_comm]
  · simp

/-- A result that may be a fault fails only with that fault. -/
theorem ofExcept_failed {r : Except Fault α} {x : Failure} {m' : Machine} :
    on (ofExcept r) m = (.error (.failed x), m') ↔
      ∃ f, r = .error f ∧ x = .fault f ∧ m = m' := by
  simp [ofExcept_error]

end Exec

/-- A result has the values of its one expression if that stands for several results, and one value
of each expression otherwise. -/
theorem resultValues_cases (code : Code) (values : List Expr) :
    (∃ value ty ty' tys, values = [value] ∧ code.function.sig.returns = ty :: ty' :: tys ∧
      resultValues code values = value.results code) ∨
    ((values.length = 1 → code.function.sig.returns.length < 2) ∧
      resultValues code values = evalArgs code values) := by
  unfold resultValues
  split
  next value ty ty' tys hreturns => exact .inl ⟨value, ty, ty', tys, rfl, hreturns, rfl⟩
  next hmany =>
    refine .inr ⟨fun hone => ?_, rfl⟩
    obtain ⟨value, rfl⟩ := List.length_eq_one_iff.mp hone
    rcases hreturns : code.function.sig.returns with _ | ⟨ty, _ | ⟨ty', tys⟩⟩
    · simp
    · simp
    · exact absurd hreturns (hmany value ty ty' tys rfl)

/-- The computation of a native unit has a property. -/
def Handler.Has (P : (α : Type) → Exec α → Prop) : Handler → Prop
  | .function run => P _ run
  | .typeMapper run => P _ run

theorem Handler.Has.imp {P Q : (α : Type) → Exec α → Prop} {handler : Handler}
    (h : handler.Has P) (himp : ∀ α x, P α x → Q α x) : handler.Has Q := by
  cases handler <;> exact himp _ _ h

/-! ## Whole calls -/

/-- Taking the frame away behind a computation on it. -/
theorem on_unwinding (m : Machine) (run : Exec Unit) :
    (unwinding run).on m = match run.on m with
      | (.ok (), m') => match m'.context.frames with
        | [] => (.error (.failed (.fault .emptyStack)), m')
        | f :: rest => (.ok f.returns, m'.withFrames rest)
      | (.error (.failed e), m') => match m'.context.frames with
        | [] => (.error (.failed (.fault .emptyStack)), m'.recorded e)
        | _ :: rest => (.error (.failed e), (m'.recorded e).withFrames rest)
      | (.error .exhausted, m') => (.error .exhausted, m') := by
  simp only [unwinding, Exec.on_bind, Exec.on_tryCatch, Exec.on_recording]
  rcases run.on m with ⟨(e | _) | _, m'⟩
  · simp only [Exec.on_bind, Exec.on_pop, Machine.recorded_frames]
    rcases m'.context.frames with _ | ⟨f, rest⟩ <;> rfl
  · rfl
  · simp only [Exec.on_pop]
    rcases m'.context.frames with _ | ⟨f, rest⟩ <;> rfl

/-- A call without any levels left fails, if not because of its arguments then as an overflow. -/
theorem on_call_zero (m : Machine) (p : Program) (rounds : Nat) (unit : Callable)
    (args : List Value) :
    (call p rounds 0 unit args).on m = match prepare unit args with
      | .error f => (.error (.failed (.fault f)), m.recorded (.fault f))
      | .ok _ => (.error (.failed (.fault (.stackOverflow m.context.depth))),
          m.recorded (.fault (.stackOverflow m.context.depth))) := by
  simp only [call, Exec.on_bind, Exec.on_recording]
  rcases prepare unit args with f | g <;> rfl

/-- A call with levels left runs its callable on a new frame, if it is admitted and there is
room. -/
theorem on_call_succ (m : Machine) (p : Program) (rounds levels : Nat) (unit : Callable)
    (args : List Value) :
    (call p rounds (levels + 1) unit args).on m = match prepare unit args with
      | .error f => (.error (.failed (.fault f)), m.recorded (.fault f))
      | .ok g =>
        if m.context.maxDepth ≤ m.context.depth then
          (.error (.failed (.fault (.stackOverflow m.context.depth))),
            m.recorded (.fault (.stackOverflow m.context.depth)))
        else (unwinding (dispatch p rounds (call p rounds levels) unit)).on
          (m.withFrames (g :: m.context.frames)) := by
  rw [call, Exec.on_bind, Exec.on_recording]
  rcases prepare unit args with f | g
  · rfl
  · change (Exec.recording (Exec.push g) >>= fun _ => _).on m = _
    rw [Exec.on_bind, Exec.on_recording, Exec.on_push]
    by_cases hfull : m.context.maxDepth ≤ m.context.depth
    · simp only [if_pos hfull]
    · simp only [if_neg hfull]

/-- A call from outside has as many levels as there is room. -/
theorem on_callUnit (m : Machine) (p : Program) (unit : Callable) (args : List Value) :
    (callUnit p unit args).on m = (call p maxRounds m.context.room unit args).on m := by
  rw [callUnit, Exec.on_bind, Exec.on_context]

section Ways

variable {m m' : Machine}

/-- A computation that ends with a value leaves its frame with the results. -/
theorem on_unwinding_ok {run : Exec Unit} {f : Frame} {fs : List Frame}
    (h : run.on m = (.ok (), m')) (hfs : m'.context.frames = f :: fs) :
    (unwinding run).on m = (.ok f.returns, m'.withFrames fs) := by
  rw [on_unwinding, h]
  simp only [hfs]

/-- A computation that fails leaves its frame, and the failure is kept. -/
theorem on_unwinding_failed {run : Exec Unit} {e : Failure} {f : Frame} {fs : List Frame}
    (h : run.on m = (.error (.failed e), m')) (hfs : m'.context.frames = f :: fs) :
    (unwinding run).on m = (.error (.failed e), (m'.recorded e).withFrames fs) := by
  rw [on_unwinding, h]
  simp only [hfs]

theorem on_unwinding_exhausted {run : Exec Unit} (h : run.on m = (.error .exhausted, m')) :
    (unwinding run).on m = (.error .exhausted, m') := by
  rw [on_unwinding, h]

variable {p : Program} {unit : Callable} {args : List Value} (rounds : Nat)

/-- A call that is not admitted fails. -/
theorem on_call_refused (levels : Nat) {f : Fault} (h : prepare unit args = .error f)
    (m : Machine) :
    (call p rounds levels unit args).on m =
      (.error (.failed (.fault f)), m.recorded (.fault f)) := by
  cases levels with
  | zero => rw [on_call_zero, h]
  | succ levels => rw [on_call_succ, h]

/-- A call that finds no room overflows. -/
theorem on_call_full (levels : Nat) {g : Frame} (h : prepare unit args = .ok g)
    (hfull : m.context.maxDepth ≤ m.context.depth) :
    (call p rounds levels unit args).on m =
      (.error (.failed (.fault (.stackOverflow m.context.depth))),
        m.recorded (.fault (.stackOverflow m.context.depth))) := by
  cases levels with
  | zero => rw [on_call_zero, h]
  | succ levels =>
    rw [on_call_succ, h]
    exact if_pos hfull

/-- A call that is admitted and finds room runs its callable on a new frame. -/
theorem on_call_room {levels : Nat} {g : Frame} (h : prepare unit args = .ok g)
    (hroom : m.context.depth < m.context.maxDepth) :
    (call p rounds (levels + 1) unit args).on m =
      (unwinding (dispatch p rounds (call p rounds levels) unit)).on
        (m.withFrames (g :: m.context.frames)) := by
  rw [on_call_succ, h]
  exact if_neg (Nat.not_le.mpr hroom)

end Ways

end FrameScript
