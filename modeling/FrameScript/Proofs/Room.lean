import FrameScript.Proofs.Confined
import FrameScript.Proofs.DepthLimit

set_option autoImplicit false

/-!
# The room of a call

A body works on the frame of its call. Neither the frames below nor the depth limit show in it,
except that a call somewhere inside may find no room. So what a call does depends on the control
stack by its room only: begun from the same objects with the same room, two calls end alike,
whatever frames lie below them, except that an overflow reports the limit of its own run.

## Main definitions

* `Ground` — the frames below a computation together with the depth limit.
* `IgnoresStack` — a computation that works on the innermost frame whatever the ground is.
* `Failure.AlikeUnder`, `EndsAlikeOver` — endings over two grounds that are alike.
* `Program.NativesIgnoreStack` — native units that do not look at the control stack.

## Main results

* `call_endsAlike` — calls with the same room end alike.
* `Library.standard_ignoresStack` — the standard library does not look at the control stack.
-/

namespace FrameScript

open Exec

variable {α β : Type}

/-! ## Grounds -/

/-- What a computation stands on: the frames below and the depth limit. -/
structure Ground where
  /-- The frames, the innermost first. -/
  frames : List Frame
  /-- How many calls may be active. -/
  limit : Nat

/-- The ground with one more frame on it. -/
def Ground.push (b : Ground) (f : Frame) : Ground :=
  ⟨f :: b.frames, b.limit⟩

/-- The ground leaves room for the given number of calls. -/
def Ground.HasRoom (b : Ground) (levels : Nat) : Prop :=
  b.limit = b.frames.length + levels

theorem Ground.HasRoom.push {b : Ground} {levels : Nat} (h : b.HasRoom (levels + 1)) (f : Frame) :
    (b.push f).HasRoom levels := by
  unfold HasRoom at h ⊢
  simp only [Ground.push, List.length_cons]
  omega

namespace Machine

/-- The state on another ground. -/
def above (m : Machine) (b : Ground) : Machine :=
  (m.withFrames b.frames).withLimit b.limit

variable (m : Machine) (b : Ground)

@[simp] theorem above_frames : (m.above b).context.frames = b.frames := rfl

@[simp] theorem above_maxDepth : (m.above b).context.maxDepth = b.limit := rfl

@[simp] theorem above_depth : (m.above b).context.depth = b.frames.length := rfl

@[simp] theorem above_above (b' : Ground) : (m.above b).above b' = m.above b' := rfl

/-- Entering and leaving calls changes the ground. -/
theorem above_withFrames (fs : List Frame) :
    (m.above b).withFrames fs = m.above ⟨fs, b.limit⟩ := rfl

/-- Keeping a failure does not change the ground. -/
theorem recorded_above (e : Failure) :
    (m.above b).recorded e = ((m.above b).recorded e).above b := by
  unfold recorded
  split <;> rfl

theorem recorded_withFrames (e : Failure) (fs : List Frame) :
    ((m.above b).recorded e).withFrames fs = ((m.above b).recorded e).above ⟨fs, b.limit⟩ := by
  rw [recorded_above]
  rfl

/-- What a run leaves behind for the world: objects, text and properties. -/
def effects (m : Machine) : Heap × String × Dict String :=
  (m.heap, m.output, m.context.properties)

@[simp] theorem effects_above : (m.above b).effects = m.effects := rfl

@[simp] theorem effects_recorded (e : Failure) : (m.recorded e).effects = m.effects := by
  unfold recorded
  split <;> rfl

end Machine

/-! ## Ending alike -/

/-- One failure under two limits: the same one, or an overflow that reports its own limit. -/
inductive Failure.AlikeUnder (limit limit' : Nat) : Failure → Failure → Prop
  | same (e : Failure) : AlikeUnder limit limit' e e
  | overflow : AlikeUnder limit limit' (.fault (.stackOverflow limit))
      (.fault (.stackOverflow limit'))

/-- Two endings over two grounds are alike: they are the same value in the same state on these
grounds, or alike failures behind the same effects on these grounds, or both are out of rounds
behind the same effects. -/
inductive EndsAlikeOver (b b' : Ground) :
    Except Stop α × Machine → Except Stop α × Machine → Prop
  | value (a : α) (m : Machine) : EndsAlikeOver b b' (.ok a, m.above b) (.ok a, m.above b')
  | failed {e e' : Failure} (h : e.AlikeUnder b.limit b'.limit e') {m m' : Machine}
    (heffects : m.effects = m'.effects) :
    EndsAlikeOver b b' (.error (.failed e), m.above b) (.error (.failed e'), m'.above b')
  | exhausted {m m' : Machine} (heffects : m.effects = m'.effects) :
    EndsAlikeOver b b' (.error .exhausted, m) (.error .exhausted, m')

/-! ## Ignoring the control stack -/

/-- A computation that works on the innermost frame: how it ends, and what it changes, is the same
over every ground. -/
def IgnoresStack (x : Exec α) : Prop :=
  ∀ (m : Machine) (f : Frame), ∃ (r : Except Stop α) (m' : Machine) (f' : Frame),
    ∀ b : Ground, x.on (m.above (b.push f)) = (r, m'.above (b.push f'))

namespace IgnoresStack

theorem pure (a : α) : IgnoresStack (pure a) :=
  fun m f => ⟨.ok a, m, f, fun _ => rfl⟩

theorem throw (s : Stop) : IgnoresStack (throw s : Exec α) :=
  fun m f => ⟨.error s, m, f, fun _ => rfl⟩

theorem bind {x : Exec α} {k : α → Exec β} (hx : IgnoresStack x) (hk : ∀ a, IgnoresStack (k a)) :
    IgnoresStack (x >>= k) := by
  intro m f
  obtain ⟨r, m₁, f₁, h₁⟩ := hx m f
  cases r with
  | error s => exact ⟨.error s, m₁, f₁, fun b => on_bind_error (h₁ b)⟩
  | ok a =>
    obtain ⟨r, m₂, f₂, h₂⟩ := hk a m₁ f₁
    exact ⟨r, m₂, f₂, fun b => (on_bind_ok (h₁ b)).trans (h₂ b)⟩

theorem ofExcept (r : Except Fault α) : IgnoresStack (ofExcept r) := by
  cases r with
  | ok a => exact pure a
  | error f => exact throw _

theorem frame : IgnoresStack frame :=
  fun m f => ⟨.ok f, m, f, fun _ => rfl⟩

theorem heap : IgnoresStack heap :=
  fun m f => ⟨.ok m.heap, m, f, fun _ => rfl⟩

theorem make (new : Heap → Value × Heap) : IgnoresStack (make new) :=
  fun m f => ⟨.ok (new m.heap).1, m.withHeap (new m.heap).2, f, fun _ => rfl⟩

theorem modifyHeap (change : Heap → Heap) : IgnoresStack (modifyHeap change) :=
  fun m f => ⟨.ok (), m.withHeap (change m.heap), f, fun _ => rfl⟩

theorem print (s : String) : IgnoresStack (print s) :=
  fun m f => ⟨.ok (), { m with output := m.output ++ s }, f, fun _ => rfl⟩

theorem property? (key : String) : IgnoresStack (property? key) :=
  fun m f => ⟨.ok (Dict.find? key m.context.properties), m, f, fun _ => rfl⟩

theorem modifyFrame (change : Frame → Except Fault Frame) : IgnoresStack (modifyFrame change) := by
  intro m f
  rcases h : change f with e | g
  · refine ⟨.error (.failed (.fault e)), m, f, fun b => ?_⟩
    simp [on_modifyFrame, Ground.push, h]
  · refine ⟨.ok (), m, g, fun b => ?_⟩
    simp [on_modifyFrame, Ground.push, Machine.above_withFrames, h]

theorem takeTemp (index : Nat) : IgnoresStack (takeTemp index) := by
  intro m f
  rcases h : f.takeTemp index with e | ⟨v, g⟩
  · refine ⟨.error (.failed (.fault e)), m, f, fun b => ?_⟩
    simp [on_takeTemp, Ground.push, h]
  · refine ⟨.ok v, m, g, fun b => ?_⟩
    simp [on_takeTemp, Ground.push, Machine.above_withFrames, h]

/-- Ignoring the control stack is a property that the steps of bodies have. -/
theorem closed : Closed fun _ x => IgnoresStack x where
  pure := pure
  bind := bind
  fault _ := throw _
  exhausted := throw _
  heap := heap
  frame h := bind frame fun _ => h
  getSlot _ := bind frame fun _ => ofExcept _
  setSlot _ _ := modifyFrame _
  setTemp _ _ := modifyFrame _
  takeTemp _ := takeTemp _
  setReturn _ _ := modifyFrame _
  newArray _ _ := make _
  newMap _ := make _
  newStruct _ _ := make _
  newConnector _ _ := make _
  newMessage _ := make _
  withElement _ _ _ _ := modifyHeap _
  setEntry _ _ _ := modifyHeap _
  withField _ _ _ := modifyHeap _

/-- Ignoring the control stack is a property that the steps of the standard library have. -/
theorem closed_library : Library.Closed fun _ x => IgnoresStack x where
  pure := pure
  bind := bind
  hostError _ := throw _
  defect _ := throw _
  argument _ := bind frame fun _ => ofExcept _
  heap := heap
  newArray _ _ := make _
  eraseEntry _ _ := modifyHeap _
  print := print
  property? := property?

/-- A computation that ignores the control stack works on the innermost frame. -/
theorem confined {x : Exec α} (hx : IgnoresStack x) : Confined 1 x := by
  intro m top names htop
  obtain ⟨f, rfl⟩ := List.length_eq_one_iff.mp htop
  obtain ⟨r, m', f', h⟩ := hx m f
  refine ⟨r, m'.withLimit m.context.maxDepth, [f'], .inr rfl, fun bot _ => ?_⟩
  exact h ⟨bot, m.context.maxDepth⟩

end IgnoresStack

/-! ## Native units -/

/-- A native unit whose handler does not look at the control stack. -/
def NativeUnit.IgnoresStack (unit : NativeUnit) : Prop :=
  unit.handler.Has fun _ run => FrameScript.IgnoresStack run

/-- No native unit of the program looks at the control stack. -/
def Program.NativesIgnoreStack (p : Program) : Prop :=
  ∀ name unit, p.find? name = some (.native unit) → unit.IgnoresStack

theorem NativeUnit.IgnoresStack.run {unit : NativeUnit} (h : unit.IgnoresStack) :
    FrameScript.IgnoresStack unit.run :=
  FrameScript.IgnoresStack.closed.native_run .frame h

theorem NativeUnit.IgnoresStack.confined {unit : NativeUnit} (h : unit.IgnoresStack) :
    unit.Confined :=
  Handler.Has.imp h fun _ _ hrun => hrun.confined

theorem Program.NativesIgnoreStack.confined {p : Program} (hp : p.NativesIgnoreStack) :
    p.NativesConfined :=
  fun name unit hunit => (hp name unit hunit).confined

/-- No unit of the standard library looks at the control stack. -/
theorem Library.standard_ignoresStack {key : String} {unit : NativeUnit}
    (h : (key, unit) ∈ standard.units) : unit.IgnoresStack := by
  obtain ⟨package, hpackage, hmem⟩ := mem_standard h
  exact IgnoresStack.closed_library.handler hpackage hmem

/-- The native units of a loaded program do not look at the control stack if those of the registry
do not. -/
theorem Program.Linked.nativesIgnoreStack {natives : Registry} {p : Program}
    (hp : p.Linked natives)
    (hnatives : ∀ key unit, (key, unit) ∈ natives.units → unit.IgnoresStack) :
    p.NativesIgnoreStack := by
  intro name unit hfound
  cases hp.comesFrom hfound with
  | registered hmem => exact hnatives _ unit hmem

/-! ## Bodies over two grounds -/

/-- Two computations that, begun from one state and innermost frame, end alike over two grounds, on
which the innermost frames are the same again. -/
def WorksAlikeOver (b b' : Ground) (x y : Exec α) : Prop :=
  ∀ (m : Machine) (f : Frame), ∃ f' : Frame,
    EndsAlikeOver (b.push f') (b'.push f') (x.on (m.above (b.push f))) (y.on (m.above (b'.push f)))

namespace WorksAlikeOver

variable {b b' : Ground}

theorem of_ignoresStack {x : Exec α} (hx : IgnoresStack x) : WorksAlikeOver b b' x x := by
  intro m f
  obtain ⟨r, m', f', h⟩ := hx m f
  refine ⟨f', ?_⟩
  rw [h b, h b']
  match r with
  | .ok a => exact .value a m'
  | .error (.failed e) => exact .failed (.same e) rfl
  | .error .exhausted => exact .exhausted rfl

theorem bind {x y : Exec α} {k l : α → Exec β} (hxy : WorksAlikeOver b b' x y)
    (hkl : ∀ a, WorksAlikeOver b b' (k a) (l a)) : WorksAlikeOver b b' (x >>= k) (y >>= l) := by
  intro m f
  obtain ⟨f₁, h⟩ := hxy m f
  rcases hx : x.on (m.above (b.push f)) with ⟨r, m₁⟩
  rcases hy : y.on (m.above (b'.push f)) with ⟨r', m₁'⟩
  rw [hx, hy] at h
  cases h with
  | value a m₁ =>
    rw [on_bind_ok hx, on_bind_ok hy]
    exact hkl a m₁ f₁
  | failed h heffects =>
    rw [on_bind_error hx, on_bind_error hy]
    exact ⟨f₁, .failed h heffects⟩
  | exhausted heffects =>
    rw [on_bind_error hx, on_bind_error hy]
    exact ⟨f₁, .exhausted heffects⟩

/-- Working alike over two grounds is a relation that the steps of bodies bear to themselves. -/
theorem congruence : Congruence fun _ x y => WorksAlikeOver b b' x y :=
  .of_closed IgnoresStack.closed .frame of_ignoresStack bind

/-- The computation of a call ends alike over two grounds if its body does on its frame. -/
theorem unwinding {run run' : Exec Unit} (h : WorksAlikeOver b b' run run') (m : Machine)
    (f : Frame) :
    EndsAlikeOver b b' ((unwinding run).on (m.above (b.push f)))
      ((FrameScript.unwinding run').on (m.above (b'.push f))) := by
  obtain ⟨g, h⟩ := h m f
  rcases hx : run.on (m.above (b.push f)) with ⟨r, m₁⟩
  rcases hy : run'.on (m.above (b'.push f)) with ⟨r', m₁'⟩
  rw [hx, hy] at h
  cases h with
  | value _ m₁ =>
    rw [on_unwinding_ok hx rfl, on_unwinding_ok hy rfl]
    exact .value g.returns m₁
  | @failed e e' h m₁ m₁' heffects =>
    rw [on_unwinding_failed hx rfl, on_unwinding_failed hy rfl, Machine.recorded_withFrames,
      Machine.recorded_withFrames]
    have hlimits : e.AlikeUnder b.limit b'.limit e' := h
    refine .failed hlimits ?_
    rw [Machine.effects_recorded, Machine.effects_recorded]
    exact heffects
  | exhausted heffects =>
    rw [on_unwinding_exhausted hx, on_unwinding_exhausted hy]
    exact .exhausted heffects

end WorksAlikeOver

/-! ## Calls -/

/-- A failure that is kept is one ending on the ground where it arose. -/
theorem EndsAlikeOver.recorded {b b' : Ground} {e e' : Failure}
    (h : e.AlikeUnder b.limit b'.limit e') (m : Machine) :
    EndsAlikeOver (α := α) b b' (.error (.failed e), (m.above b).recorded e)
      (.error (.failed e'), (m.above b').recorded e') := by
  rw [Machine.recorded_above m b, Machine.recorded_above m b']
  refine .failed h ?_
  rw [Machine.effects_recorded, Machine.effects_recorded]
  rfl

/-- **A call depends on the control stack by its room only.** If the native units of the program do
not look at the control stack, then two calls that are begun with the same objects, properties and
room end alike, whatever frames lie below them.

**Proof sketch.** Induction on the room. The callee runs on a fresh frame over the two grounds; all
steps of its body ignore what is below, and the calls it makes have less room by one over both
grounds. Without any room both calls overflow, each under its own limit. -/
theorem call_endsAlike {p : Program} (hp : p.NativesIgnoreStack) (rounds : Nat) {levels : Nat}
    {name : String} {unit : Callable} (hunit : p.find? name = some unit) (args : List Value)
    {b b' : Ground} (hb : b.HasRoom levels) (hb' : b'.HasRoom levels) (m : Machine) :
    EndsAlikeOver b b' ((call p rounds levels unit args).on (m.above b))
      ((call p rounds levels unit args).on (m.above b')) := by
  induction levels generalizing name unit args b b' m with
  | zero =>
    have hlimit : b.frames.length = b.limit := hb.symm
    have hlimit' : b'.frames.length = b'.limit := hb'.symm
    rw [on_call_zero, on_call_zero]
    rcases prepare unit args with f | g
    · exact .recorded (.same _) m
    · dsimp only
      rw [Machine.above_depth, Machine.above_depth, hlimit, hlimit']
      exact .recorded .overflow m
  | succ levels ih =>
    rcases hprepare : prepare unit args with f | g
    · rw [on_call_refused rounds _ hprepare, on_call_refused rounds _ hprepare]
      exact .recorded (.same _) m
    · have hroom : (m.above b).context.depth < (m.above b).context.maxDepth := by
        rw [Machine.above_depth, Machine.above_maxDepth, hb]
        omega
      have hroom' : (m.above b').context.depth < (m.above b').context.maxDepth := by
        rw [Machine.above_depth, Machine.above_maxDepth, hb']
        omega
      rw [on_call_room rounds hprepare hroom, on_call_room rounds hprepare hroom']
      refine WorksAlikeOver.unwinding ?_ m g
      cases unit with
      | native u => exact .of_ignoresStack (hp name u hunit).run
      | function function =>
        refine WorksAlikeOver.congruence.run (.refl _) (fun name unit hunit args => ?_)
          fun _ _ _ => WorksAlikeOver.congruence.loopsAlike (.of_ignoresStack (.throw _)) rounds
        intro m f
        exact ⟨f, ih (Program.find?_of_resolve hunit) args (hb.push f) (hb'.push f) m⟩

end FrameScript
