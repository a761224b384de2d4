import FrameScript.Proofs.Closed
import FrameScript.Proofs.Loading

set_option autoImplicit false

/-!
# Frames below the call at hand

A body works on the frame of its own call. Of the frames below it only the names matter, for the
depth of the control stack and for the trace of a failure; what they hold is neither read nor
changed. So a call leaves the control stack as it found it, and its outcome is the same whatever
the frames of its callers hold.

## Main definitions

* `Confined` — a computation that works on the innermost frames only.
* `NativeUnit.Confined`, `Program.NativesConfined` — native units whose handlers do.

## Main results

* `call_confined` — whole calls are confined to no frame at all.
* `Library.closed_confined` — the standard library works on the frames of its own calls.
-/

namespace FrameScript

open Exec

variable {α β : Type}

/-- A computation that works on the innermost `k` frames: how it ends, and what it changes, does
not depend on the frames below except for their names, and these frames stay as they are. The
innermost `k` frames are still in front afterwards, unless a loop has used up its rounds. -/
def Confined (k : Nat) (x : Exec α) : Prop :=
  ∀ (m : Machine) (top : List Frame) (names : List String), top.length = k →
    ∃ (r : Except Stop α) (m' : Machine) (top' : List Frame),
      (r = .error .exhausted ∨ top'.length = k) ∧
        ∀ bot : List Frame, bot.map (·.unit) = names →
          x.on (m.withFrames (top ++ bot)) = (r, m'.withFrames (top' ++ bot))

namespace Confined

variable {k : Nat}

/-! ## Steps -/

/-- A computation that does not look at the control stack is confined. -/
theorem of_anywhere {x : Exec α}
    (hx : ∀ m : Machine, ∃ (r : Except Stop α) (m' : Machine),
      ∀ fs, x.on (m.withFrames fs) = (r, m'.withFrames fs)) : Confined k x := by
  intro m top names htop
  obtain ⟨r, m', h⟩ := hx m
  exact ⟨r, m', top, .inr htop, fun bot _ => h (top ++ bot)⟩

/-- A computation on the innermost frame is confined to it. -/
theorem of_head {x : Exec α}
    (hx : ∀ (m : Machine) (f : Frame), ∃ (r : Except Stop α) (m' : Machine) (f' : Frame), ∀ rest,
      x.on (m.withFrames (f :: rest)) = (r, m'.withFrames (f' :: rest))) :
    Confined (k + 1) x := by
  rintro m (_ | ⟨f, top⟩) names htop
  · cases htop
  · obtain ⟨r, m', f', h⟩ := hx m f
    exact ⟨r, m', f' :: top, .inr htop, fun bot _ => h (top ++ bot)⟩

theorem pure (a : α) : Confined k (pure a) :=
  of_anywhere fun m => ⟨.ok a, m, fun _ => rfl⟩

theorem throw (s : Stop) : Confined k (throw s : Exec α) :=
  of_anywhere fun m => ⟨.error s, m, fun _ => rfl⟩

theorem bind {x : Exec α} {f : α → Exec β} (hx : Confined k x) (hf : ∀ a, Confined k (f a)) :
    Confined k (x >>= f) := by
  intro m top names htop
  obtain ⟨r, m₁, top₁, hr, h₁⟩ := hx m top names htop
  cases r with
  | error s =>
    refine ⟨.error s, m₁, top₁, ?_, fun bot hbot => ?_⟩
    · exact hr.imp (fun h => by cases h; rfl) id
    · rw [on_bind, h₁ bot hbot]
  | ok a =>
    have htop₁ : top₁.length = k := hr.resolve_left (by simp)
    obtain ⟨r, m₂, top₂, hr₂, h₂⟩ := hf a m₁ top₁ names htop₁
    refine ⟨r, m₂, top₂, hr₂, fun bot hbot => ?_⟩
    rw [on_bind, h₁ bot hbot]
    exact h₂ bot hbot

theorem heap : Confined k heap :=
  of_anywhere fun m => ⟨.ok m.heap, m, fun _ => rfl⟩

theorem make (new : Heap → Value × Heap) : Confined k (make new) :=
  of_anywhere fun m => ⟨.ok (new m.heap).1, m.withHeap (new m.heap).2, fun _ => rfl⟩

theorem modifyHeap (change : Heap → Heap) : Confined k (modifyHeap change) :=
  of_anywhere fun m => ⟨.ok (), m.withHeap (change m.heap), fun _ => rfl⟩

theorem print (s : String) : Confined k (print s) :=
  of_anywhere fun m => ⟨.ok (), { m with output := m.output ++ s }, fun _ => rfl⟩

theorem property? (key : String) : Confined k (property? key) :=
  of_anywhere fun m => ⟨.ok (Dict.find? key m.context.properties), m, fun _ => rfl⟩

/-- What is confined to no frame is confined to any number of innermost frames. -/
theorem weaken {x : Exec α} (hx : Confined 0 x) : Confined k x := by
  intro m top names htop
  obtain ⟨r, m', top', hr, h⟩ := hx m [] (top.map (·.unit) ++ names) rfl
  refine ⟨r, m', top' ++ top, ?_, fun bot hbot => ?_⟩
  · refine hr.imp_right fun h0 => ?_
    rw [List.length_append, h0, htop, Nat.zero_add]
  · rw [List.append_assoc, ← h (top ++ bot) (by simp [hbot]), List.nil_append]

theorem ofExcept (r : Except Fault α) : Confined k (ofExcept r) := by
  cases r with
  | ok a => exact pure a
  | error f => exact throw _

theorem frame : Confined (k + 1) frame :=
  of_head fun m f => ⟨.ok f, m, f, fun _ => rfl⟩

theorem modifyFrame (change : Frame → Except Fault Frame) :
    Confined (k + 1) (modifyFrame change) := by
  refine of_head fun m f => ?_
  rcases h : change f with e | g
  · exact ⟨.error (.failed (.fault e)), m, f, fun rest => by simp [on_modifyFrame, h]⟩
  · exact ⟨.ok (), m, g, fun rest => by simp [on_modifyFrame, h]⟩

theorem takeTemp (index : Nat) : Confined (k + 1) (takeTemp index) := by
  refine of_head fun m f => ?_
  rcases h : f.takeTemp index with e | ⟨v, g⟩
  · exact ⟨.error (.failed (.fault e)), m, f, fun rest => by simp [on_takeTemp, h]⟩
  · exact ⟨.ok v, m, g, fun rest => by simp [on_takeTemp, h]⟩

/-- Being confined is a property that the steps of bodies have. -/
theorem closed (k : Nat) : Closed fun _ x => Confined (k + 1) x where
  pure := pure
  bind := bind
  fault _ := throw _
  exhausted := throw _
  heap := heap
  frame h := bind frame fun _ => h
  getSlot _ := bind frame fun _ => ofExcept _
  setSlot _ _ := modifyFrame _
  setTemp _ _ := modifyFrame _
  takeTemp _ := takeTemp _
  setReturn _ _ := modifyFrame _
  newArray _ _ := make _
  newMap _ := make _
  newStruct _ _ := make _
  newConnector _ _ := make _
  newMessage _ := make _
  withElement _ _ _ _ := modifyHeap _
  setEntry _ _ _ := modifyHeap _
  withField _ _ _ := modifyHeap _

/-! ## Failures and whole calls -/

/-- Keeping a failure changes nothing but the record, and of the frames it reads the names only. -/
theorem exists_recorded (m : Machine) (top : List Frame) (names : List String) (e : Failure) :
    ∃ m' : Machine, ∀ bot : List Frame, bot.map (·.unit) = names →
      (m.withFrames (top ++ bot)).recorded e = m'.withFrames (top ++ bot) := by
  rcases h : m.context.failure? with _ | r
  · let record : FaultRecord := ⟨e.message, e.fault?, (top.map (·.unit) ++ names).reverse⟩
    refine ⟨{ m with context := { m.context with failure? := some record } }, fun bot hbot => ?_⟩
    have htrace : (m.withFrames (top ++ bot)).context.trace =
        (top.map (·.unit) ++ names).reverse := by
      rw [← hbot, ← List.map_append]
      rfl
    simp only [Machine.recorded, Machine.withFrames_failure?, h, htrace]
    rfl
  · refine ⟨m, fun bot _ => ?_⟩
    simp only [Machine.recorded, Machine.withFrames_failure?, h]

theorem recording {x : Exec α} (hx : Confined k x) : Confined k (recording x) := by
  intro m top names htop
  obtain ⟨r, m', top', hr, h⟩ := hx m top names htop
  cases r with
  | ok a => exact ⟨.ok a, m', top', .inr (hr.resolve_left (by simp)), fun bot hbot => by
      rw [on_recording, h bot hbot]⟩
  | error s =>
    cases s with
    | exhausted => exact ⟨.error .exhausted, m', top', .inl rfl, fun bot hbot => by
        rw [on_recording, h bot hbot]⟩
    | failed e =>
      obtain ⟨m'', h'⟩ := exists_recorded m' top' names e
      refine ⟨.error (.failed e), m'', top', .inr (hr.resolve_left (by simp)), fun bot hbot => ?_⟩
      rw [on_recording, h bot hbot, ← h' bot hbot]

/-- A call whose body is confined to its own frame is confined to no frame. -/
theorem unwinding {run : Exec Unit} (hrun : Confined 1 run) (f : Frame) :
    Confined 0 (Exec.recording (push f) >>= fun _ => unwinding run) := by
  intro m top names htop
  obtain rfl : top = [] := List.length_eq_zero_iff.mp htop
  have hdepth (bot : List Frame) (hbot : bot.map (·.unit) = names) :
      (m.withFrames bot).context.depth = names.length := by
    rw [← hbot, List.length_map]
    rfl
  by_cases hfull : m.context.maxDepth ≤ names.length
  · obtain ⟨m', h'⟩ := exists_recorded m [] names (.fault (.stackOverflow names.length))
    refine ⟨.error (.failed (.fault (.stackOverflow names.length))), m', [], .inr rfl,
      fun bot hbot => ?_⟩
    rw [List.nil_append, on_bind, on_recording, on_push, hdepth bot hbot,
      Machine.withFrames_maxDepth, if_pos hfull]
    exact congrArg _ (h' bot hbot)
  · obtain ⟨r, m', top', hr, h⟩ := hrun m [f] names rfl
    have hpush (bot : List Frame) (hbot : bot.map (·.unit) = names) :
        on (Exec.recording (push f) >>= fun _ => FrameScript.unwinding run) (m.withFrames bot) =
          on (FrameScript.unwinding run) (m.withFrames ([f] ++ bot)) := by
      rw [on_bind, on_recording, on_push, hdepth bot hbot, Machine.withFrames_maxDepth,
        if_neg hfull]
      rfl
    rcases r with (e | _) | _
    · obtain ⟨g, rfl⟩ := List.length_eq_one_iff.mp (hr.resolve_left (by simp))
      obtain ⟨m'', h'⟩ := exists_recorded m' [g] names e
      refine ⟨.error (.failed e), m'', [], .inr rfl, fun bot hbot => ?_⟩
      rw [List.nil_append, hpush bot hbot, on_unwinding, h bot hbot]
      change (_, ((m'.withFrames ([g] ++ bot)).recorded e).withFrames bot) = _
      rw [h' bot hbot]
      rfl
    · refine ⟨.error .exhausted, m', top', .inl rfl, fun bot hbot => ?_⟩
      rw [List.nil_append, hpush bot hbot, on_unwinding, h bot hbot]
    · obtain ⟨g, rfl⟩ := List.length_eq_one_iff.mp (hr.resolve_left (by simp))
      refine ⟨.ok g.returns, m', [], .inr rfl, fun bot hbot => ?_⟩
      rw [List.nil_append, hpush bot hbot, on_unwinding, h bot hbot]
      simp

end Confined

/-! ## Native units -/

/-- A native unit whose handler works on the frame of its own call. -/
def NativeUnit.Confined (unit : NativeUnit) : Prop :=
  unit.handler.Has fun _ run => FrameScript.Confined 1 run

/-- All native units of a program work on the frames of their own calls. -/
def Program.NativesConfined (p : Program) : Prop :=
  ∀ name unit, p.find? name = some (.native unit) → unit.Confined

/-- A native unit is as confined as its handler. -/
theorem NativeUnit.Confined.run {unit : NativeUnit} (hunit : unit.Confined) :
    FrameScript.Confined 1 unit.run :=
  (FrameScript.Confined.closed 0).native_run .frame hunit

/-! ## Calls -/

/-- **Calls are confined**: a call of a callable of the program neither depends on what the frames
below hold nor changes them, if the native units of the program work on their own frames.

**Proof sketch.** Induction on the levels left. The callee runs on a fresh frame; its body is
confined to that frame because all its steps are and, by induction, the calls it makes; and the
frame is taken away whether the body ends with a value or a failure. -/
theorem call_confined {p : Program} (hp : p.NativesConfined) (rounds levels : Nat) {name : String}
    {unit : Callable} (hunit : p.find? name = some unit) (args : List Value) :
    Confined 0 (call p rounds levels unit args) := by
  induction levels generalizing name unit args with
  | zero =>
    refine .bind (.recording (.ofExcept _)) fun _ => ?_
    intro m top names htop
    obtain ⟨m', h'⟩ := Confined.exists_recorded m top names (.fault (.stackOverflow names.length))
    obtain rfl : top = [] := List.length_eq_zero_iff.mp htop
    refine ⟨.error (.failed (.fault (.stackOverflow names.length))), m', [], .inr rfl,
      fun bot hbot => ?_⟩
    have hdepth : (m.withFrames ([] ++ bot)).context.depth = names.length := by
      rw [← hbot, List.length_map]
      rfl
    rw [on_bind, on_context]
    simp only [hdepth, on_recording, on_fault, h' bot hbot]
  | succ levels ih =>
    refine .bind (.recording (.ofExcept _)) fun f => Confined.unwinding ?_ f
    cases unit with
    | native u => exact (hp name u hunit).run
    | function f =>
      refine (Confined.closed 0).run fun name unit hunit args => ?_
      exact Confined.weaken (ih (Program.find?_of_resolve hunit) args)

/-! ## The standard library -/

/-- Being confined to the frame of the call is a property of the steps of the standard library. -/
theorem Library.closed_confined : Library.Closed fun _ x => Confined 1 x where
  pure := .pure
  bind := .bind
  hostError _ := .throw _
  defect _ := .throw _
  argument _ := .bind .frame fun _ => .ofExcept _
  heap := .heap
  newArray _ _ := .make _
  eraseEntry _ _ := .modifyHeap _
  print := .print
  property? := .property?

/-- Every unit of the standard library works on the frames of its own calls. -/
theorem Library.standard_confined {key : String} {unit : NativeUnit}
    (h : (key, unit) ∈ standard.units) : unit.Confined := by
  obtain ⟨package, hpackage, hmem⟩ := mem_standard h
  exact closed_confined.handler hpackage hmem

/-- The native units of a loaded program work on their own frames if those of the registry do. -/
theorem Program.Linked.nativesConfined {natives : Registry} {p : Program} (hp : p.Linked natives)
    (hnatives : ∀ key unit, (key, unit) ∈ natives.units → unit.Confined) : p.NativesConfined := by
  intro name unit hfound
  cases hp.comesFrom hfound with
  | registered hmem => exact hnatives _ unit hmem

end FrameScript
