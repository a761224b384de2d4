import FrameScript.Proofs.Confined
import FrameScript.Proofs.Reference
import FrameScript.Proofs.Storage

set_option autoImplicit false

/-!
# Runs side by side

Two computations run side by side on states that agree in all but what the frames hold in their
slots and among their staged values. Each works on the innermost frame of its own state. Shown here
are the rules by which such pairs are put together, and what follows for whole calls if the bodies
of functions are such pairs.

## Main definitions

* `Machine.outline` — a state without the slots and staged values of its frames.
* `Simulates` — two computations that end alike from two given innermost frames.
* `CallsAlike` — two computations that end alike and leave their frames as they are.

## Main results

* `Simulates.bind` — sequences.
* `CallsAlike.simulates`, `CallsAlike.of_confined` — calls inside a body, and native callees.
* `callWith_alike` — if all bodies end alike, so do all calls.
-/

namespace FrameScript

open Exec

variable {α β γ δ : Type}

/-! ## States without slots -/

/-- A frame without its slots and staged values. -/
def Frame.outline (f : Frame) : Frame :=
  { f with slots := [], temps := [] }

/-- Frames of one outline agree in everything else. -/
theorem Frame.of_outline {f f' : Frame} (h : f.outline = f'.outline) :
    f.unit = f'.unit ∧ f.argCount = f'.argCount ∧ f.returns = f'.returns := by
  have hunit := congrArg unit h
  have hargs := congrArg argCount h
  have hreturns := congrArg returns h
  exact ⟨hunit, hargs, hreturns⟩

namespace Machine

/-- A state without the slots and staged values of its frames. -/
def outline (m : Machine) : Machine :=
  m.withFrames (m.context.frames.map Frame.outline)

theorem heap_of_outline {m m' : Machine} (h : m.outline = m'.outline) : m.heap = m'.heap :=
  congrArg (fun n => n.heap) h

/-- Of a state with a given outline only the frames are open. -/
theorem eq_withFrames_of_outline {m m' : Machine} (h : m.outline = m'.outline) :
    m' = m.withFrames m'.context.frames := by
  have hheap := heap_of_outline h
  have houtput : m.output = m'.output := congrArg (fun n => n.output) h
  have hdepth : m.context.maxDepth = m'.context.maxDepth :=
    congrArg (fun n => n.context.maxDepth) h
  have hfailure : m.context.failure? = m'.context.failure? :=
    congrArg (fun n => n.context.failure?) h
  have hproperties : m.context.properties = m'.context.properties :=
    congrArg (fun n => n.context.properties) h
  obtain ⟨heap, ⟨frames, maxDepth, failure, properties⟩, output⟩ := m
  obtain ⟨heap', ⟨frames', maxDepth', failure', properties'⟩, output'⟩ := m'
  simp only at hheap houtput hdepth hfailure hproperties
  subst hheap houtput hdepth hfailure hproperties
  rfl

theorem frames_of_outline {m m' : Machine} (h : m.outline = m'.outline) :
    m.context.frames.map Frame.outline = m'.context.frames.map Frame.outline :=
  congrArg (fun n => n.context.frames) h

/-- States with one outline agree in the names of the active calls. -/
theorem names_of_outline {m m' : Machine} (h : m.outline = m'.outline) :
    m.context.frames.map (·.unit) = m'.context.frames.map (·.unit) := by
  have hframes := congrArg (List.map (·.unit)) (frames_of_outline h)
  rw [List.map_map, List.map_map] at hframes
  exact hframes

theorem depth_of_outline {m m' : Machine} (h : m.outline = m'.outline) :
    m.context.depth = m'.context.depth := by
  have hlength := congrArg List.length (names_of_outline h)
  rw [List.length_map, List.length_map] at hlength
  exact hlength

/-- Outlines agree if the frames do and everything else is the same. -/
theorem outline_withFrames {m m' : Machine} (h : m.outline = m'.outline) {fs fs' : List Frame}
    (hframes : fs.map Frame.outline = fs'.map Frame.outline) :
    (m.withFrames fs).outline = (m'.withFrames fs').outline := by
  rw [eq_withFrames_of_outline h]
  change m.withFrames (fs.map Frame.outline) = m.withFrames (fs'.map Frame.outline)
  rw [hframes]

theorem outline_withHeap {m m' : Machine} (h : m.outline = m'.outline) (heap : Heap) :
    (m.withHeap heap).outline = (m'.withHeap heap).outline :=
  congrArg (fun n => n.withHeap heap) h

/-- Keeping a failure looks at the names of the active calls only. -/
theorem outline_recorded {m m' : Machine} (h : m.outline = m'.outline) (e : Failure) :
    (m.recorded e).outline = (m'.recorded e).outline := by
  have htrace : m.context.trace = m'.context.trace :=
    congrArg List.reverse (names_of_outline h)
  have hframes := frames_of_outline h
  rw [eq_withFrames_of_outline h] at htrace ⊢
  rcases hfailure : m.context.failure? with _ | r
  · simp only [recorded, withFrames_failure?, hfailure, htrace]
    change withFrames _ (m.context.frames.map Frame.outline) =
      withFrames _ (m'.context.frames.map Frame.outline)
    rw [hframes]
    rfl
  · simp only [recorded, withFrames_failure?, hfailure]
    change withFrames _ (m.context.frames.map Frame.outline) =
      withFrames _ (m'.context.frames.map Frame.outline)
    rw [hframes]
    rfl

end Machine

/-! ## Pairs of computations -/

/-- Two computations that end alike on states of one outline, the innermost frames of which are `f`
and `f'`. Values and the innermost frames that come with them are related by `Q`, an error is one of
`E`, and the frames below stay as they are. -/
def Simulates (E : Stop → Prop) (f f' : Frame) (x : Exec α) (y : Exec β)
    (Q : α → β → Frame → Frame → Prop) : Prop :=
  ∀ (m m' : Machine) (fs fs' : List Frame), m.context.frames = f :: fs →
    m'.context.frames = f' :: fs' → m.outline = m'.outline →
      ∃ m₁ m₁' : Machine, m₁.outline = m₁'.outline ∧
        ((∃ a b g g', x.on m = (.ok a, m₁) ∧ y.on m' = (.ok b, m₁') ∧
            m₁.context.frames = g :: fs ∧ m₁'.context.frames = g' :: fs' ∧ Q a b g g') ∨
          ∃ s, x.on m = (.error s, m₁) ∧ y.on m' = (.error s, m₁') ∧ E s ∧
            (s = .exhausted ∨ ∃ g g', m₁.context.frames = g :: fs ∧
              m₁'.context.frames = g' :: fs'))

/-- Two computations that end alike on states of one outline and leave all frames as they are. -/
def CallsAlike (E : Stop → Prop) (x y : Exec α) : Prop :=
  ∀ m m' : Machine, m.outline = m'.outline →
    ∃ m₁ m₁' : Machine, m₁.outline = m₁'.outline ∧
      ∃ r, x.on m = (r, m₁) ∧ y.on m' = (r, m₁') ∧ (∀ s, r = .error s → E s) ∧
        (r = .error .exhausted ∨ m₁.context.frames = m.context.frames ∧
          m₁'.context.frames = m'.context.frames)

/-- The relation of equal values that come with the frames there were before. -/
def Unchanged (f f' : Frame) (a b : α) (g g' : Frame) : Prop :=
  a = b ∧ g = f ∧ g' = f'

namespace Simulates

variable {E : Stop → Prop} {f f' : Frame}

/-! ## Sequences -/

theorem bind {x : Exec α} {y : Exec β} {F : α → Exec γ} {G : β → Exec δ}
    {Q : α → β → Frame → Frame → Prop} {R : γ → δ → Frame → Frame → Prop}
    (hxy : Simulates E f f' x y Q)
    (hFG : ∀ a b g g', Q a b g g' → Simulates E g g' (F a) (G b) R) :
    Simulates E f f' (x >>= F) (y >>= G) R := by
  intro m m' fs fs' hm hm' hmm
  obtain ⟨m₁, m₁', hmm₁, hok | herror⟩ := hxy m m' fs fs' hm hm' hmm
  · obtain ⟨a, b, g, g', hx, hy, hm₁, hm₁', hQ⟩ := hok
    rw [on_bind, on_bind, hx, hy]
    exact hFG a b g g' hQ m₁ m₁' fs fs' hm₁ hm₁' hmm₁
  · obtain ⟨s, hx, hy, hs, hframes⟩ := herror
    refine ⟨m₁, m₁', hmm₁, .inr ⟨s, ?_, ?_, hs, hframes⟩⟩
    · rw [on_bind, hx]
    · rw [on_bind, hy]

/-- What the second of the two makes of its value before it goes on belongs to its first part. -/
theorem bind_map {ε : Type} {x : Exec α} {y : Exec β} {h : β → ε} {F : α → Exec γ} {G : ε → Exec δ}
    {Q : α → ε → Frame → Frame → Prop} {R : γ → δ → Frame → Frame → Prop}
    (hxy : Simulates E f f' x (y >>= fun b => Pure.pure (h b)) Q)
    (hFG : ∀ a c g g', Q a c g g' → Simulates E g g' (F a) (G c) R) :
    Simulates E f f' (x >>= F) (y >>= fun b => G (h b)) R := by
  have hall := hxy.bind hFG
  simpa only [bind_assoc, pure_bind] using hall

theorem weaken {x : Exec α} {y : Exec β} {Q R : α → β → Frame → Frame → Prop}
    (h : Simulates E f f' x y Q) (hQR : ∀ a b g g', Q a b g g' → R a b g g') :
    Simulates E f f' x y R := by
  intro m m' fs fs' hm hm' hmm
  obtain ⟨m₁, m₁', hmm₁, hok | herror⟩ := h m m' fs fs' hm hm' hmm
  · obtain ⟨a, b, g, g', hx, hy, hm₁, hm₁', hQ⟩ := hok
    exact ⟨m₁, m₁', hmm₁, .inl ⟨a, b, g, g', hx, hy, hm₁, hm₁', hQR a b g g' hQ⟩⟩
  · exact ⟨m₁, m₁', hmm₁, .inr herror⟩

/-! ## Steps of both -/

theorem pure {a : α} {b : β} {Q : α → β → Frame → Frame → Prop} (h : Q a b f f') :
    Simulates E f f' (pure a) (pure b) Q :=
  fun m m' _ _ hm hm' hmm => ⟨m, m', hmm, .inl ⟨a, b, f, f', rfl, rfl, hm, hm', h⟩⟩

theorem throw {s : Stop} (hs : E s) {Q : α → β → Frame → Frame → Prop} :
    Simulates E f f' (throw s) (throw s) Q :=
  fun m m' _ _ hm hm' hmm => ⟨m, m', hmm, .inr ⟨s, rfl, rfl, hs, .inr ⟨f, f', hm, hm'⟩⟩⟩

theorem fault {e : Fault} (he : E (.failed (.fault e))) {Q : α → β → Frame → Frame → Prop} :
    Simulates E f f' (fault e) (fault e) Q :=
  throw he

/-- What follows a result that may be a fault only matters for results that are none. -/
theorem ofExcept_bind (hE : ∀ s, s.isStorage = false → E s) {r : Except Fault α}
    (hr : StackFree r) {F : α → Exec γ} {G : α → Exec δ} {Q : γ → δ → Frame → Frame → Prop}
    (h : ∀ a, r = .ok a → Simulates E f f' (F a) (G a) Q) :
    Simulates E f f' (ofExcept r >>= F) (ofExcept r >>= G) Q := by
  cases r with
  | ok a => exact h a rfl
  | error e => exact throw (hE (.failed (.fault e)) (Fault.isStorage_of_isOfStack (hr e rfl)))

theorem ofExcept (hE : ∀ s, s.isStorage = false → E s) {r : Except Fault α}
    (hr : StackFree r) :
    Simulates E f f' (ofExcept r) (ofExcept r) (Unchanged f f') := by
  cases r with
  | ok a => exact pure ⟨rfl, rfl, rfl⟩
  | error e => exact throw (hE (.failed (.fault e)) (Fault.isStorage_of_isOfStack (hr e rfl)))

theorem heap : Simulates E f f' heap heap (Unchanged f f') := by
  intro m m' _ _ hm hm' hmm
  have hheap := Machine.heap_of_outline hmm
  refine ⟨m, m', hmm, .inl ⟨m.heap, m.heap, f, f', rfl, ?_, hm, hm', rfl, rfl, rfl⟩⟩
  rw [on_heap, hheap]

theorem make (new : Heap → Value × Heap) :
    Simulates E f f' (make new) (make new) (Unchanged f f') := by
  intro m m' _ _ hm hm' hmm
  have hheap := Machine.heap_of_outline hmm
  refine ⟨m.withHeap (new m.heap).2, m'.withHeap (new m.heap).2,
    Machine.outline_withHeap hmm _, .inl ⟨(new m.heap).1, (new m.heap).1, f, f', rfl, ?_, hm, hm',
      rfl, rfl, rfl⟩⟩
  rw [on_make, hheap]

theorem modifyHeap (change : Heap → Heap) :
    Simulates E f f' (modifyHeap change) (modifyHeap change) (Unchanged f f') := by
  intro m m' _ _ hm hm' hmm
  have hheap := Machine.heap_of_outline hmm
  refine ⟨m.withHeap (change m.heap), m'.withHeap (change m.heap),
    Machine.outline_withHeap hmm _, .inl ⟨(), (), f, f', rfl, ?_, hm, hm', rfl, rfl, rfl⟩⟩
  rw [on_modifyHeap, hheap]

/-- A result is written to both frames alike. -/
theorem setReturn (hE : ∀ s, s.isStorage = false → E s) (index : Nat) (v : Value) :
    Simulates E f f' (setReturn index v) (setReturn index v) fun _ _ g g' =>
      ∃ returns, g = { f with returns } ∧ g' = { f' with returns } := by
  intro m m' fs fs' hm hm' hmm
  have hframes := Machine.frames_of_outline hmm
  rw [hm, hm', List.map_cons, List.map_cons, List.cons.injEq] at hframes
  obtain ⟨hff, hfs⟩ := hframes
  obtain ⟨hunit, hargs, hreturns⟩ := Frame.of_outline hff
  simp only [Exec.setReturn, on_modifyFrame, hm, hm']
  by_cases hindex : index < f.returns.length
  · have hset : f.setReturn index v = .ok { f with returns := f.returns.set index v } :=
      if_pos hindex
    have hset' : f'.setReturn index v = .ok { f' with returns := f.returns.set index v } := by
      rw [hreturns]
      exact if_pos (hreturns ▸ hindex)
    rw [hset, hset']
    refine ⟨_, _, Machine.outline_withFrames hmm ?_,
      .inl ⟨(), (), _, _, rfl, rfl, rfl, rfl, _, rfl, rfl⟩⟩
    rw [List.map_cons, List.map_cons, hfs]
    simp only [Frame.outline, hunit, hargs]
  · have hset : f.setReturn index v =
        .error (.wiring (.returnOutOfRange f.unit f.returns.length index)) := if_neg hindex
    have hset' : f'.setReturn index v =
        .error (.wiring (.returnOutOfRange f.unit f.returns.length index)) := by
      rw [hunit, hreturns]
      exact if_neg (hreturns ▸ hindex)
    rw [hset, hset']
    exact ⟨m, m', hmm, .inr ⟨_, rfl, rfl, hE _ rfl, .inr ⟨f, f', hm, hm'⟩⟩⟩

/-! ## Steps of one -/

/-- The first of the two may take a step alone that changes nothing but slots and staged values. -/
theorem left {x : Exec α} {F : α → Exec γ} {y : Exec β} {a : α} {g : Frame}
    {Q : γ → β → Frame → Frame → Prop}
    (hx : ∀ m fs, m.context.frames = f :: fs → x.on m = (.ok a, m.withFrames (g :: fs)))
    (hg : g.outline = f.outline) (h : Simulates E g f' (F a) y Q) :
    Simulates E f f' (x >>= F) y Q := by
  intro m m' fs fs' hm hm' hmm
  have hmm' : (m.withFrames (g :: fs)).outline = m'.outline := by
    rw [← hmm]
    change m.withFrames ((g :: fs).map Frame.outline) = _
    rw [List.map_cons, hg, ← List.map_cons, ← hm]
    rfl
  rw [on_bind, hx m fs hm]
  exact h (m.withFrames (g :: fs)) m' fs fs' rfl hm' hmm'

/-- Both may take a step of their own that changes nothing but slots and staged values. -/
theorem steps {x : Exec α} {y : Exec β} {a : α} {b : β} {g g' : Frame}
    {Q : α → β → Frame → Frame → Prop}
    (hx : ∀ m fs, m.context.frames = f :: fs → x.on m = (.ok a, m.withFrames (g :: fs)))
    (hy : ∀ m fs, m.context.frames = f' :: fs → y.on m = (.ok b, m.withFrames (g' :: fs)))
    (hg : g.outline = f.outline) (hg' : g'.outline = f'.outline) (hQ : Q a b g g') :
    Simulates E f f' x y Q := by
  intro m m' fs fs' hm hm' hmm
  have hframes := Machine.frames_of_outline hmm
  rw [hm, hm', List.map_cons, List.map_cons] at hframes
  refine ⟨m.withFrames (g :: fs), m'.withFrames (g' :: fs'), Machine.outline_withFrames hmm ?_,
    .inl ⟨a, b, g, g', hx m fs hm, hy m' fs' hm', rfl, rfl, hQ⟩⟩
  rw [List.map_cons, List.map_cons, hg, hg']
  exact hframes

/-- The frame is there. -/
theorem frame_bind {x : Exec α} {y : Exec β} {Q : α → β → Frame → Frame → Prop}
    (h : Simulates E f f' x y Q) : Simulates E f f' (frame >>= fun _ => x) y Q := by
  refine left (a := f) (g := f) (fun m fs hm => ?_) rfl h
  rw [← hm, Machine.withFrames_self]
  simp only [on_frame, hm]

/-- The second of the two may look at its frame. -/
theorem right_frame_bind {x : Exec α} {G : Frame → Exec β} {Q : α → β → Frame → Frame → Prop}
    (h : Simulates E f f' x (G f') Q) : Simulates E f f' x (frame >>= G) Q := by
  intro m m' fs fs' hm hm' hmm
  have hframe : (frame >>= G).on m' = (G f').on m' := by
    simp only [on_bind, on_frame, hm']
  rw [hframe]
  exact h m m' fs fs' hm hm' hmm

/-- What the second of the two makes of its value at the end is made of the related value. -/
theorem right_map {x : Exec α} {y : Exec β} {F : β → γ} {Q : α → β → Frame → Frame → Prop}
    (h : Simulates E f f' x y Q) :
    Simulates E f f' x (y >>= fun b => Pure.pure (F b)) fun a c g g' =>
      ∃ b, c = F b ∧ Q a b g g' := by
  intro m m' fs fs' hm hm' hmm
  obtain ⟨m₁, m₁', hmm₁, hok | herror⟩ := h m m' fs fs' hm hm' hmm
  · obtain ⟨a, b, g, g', hx, hy, hm₁, hm₁', hQ⟩ := hok
    refine ⟨m₁, m₁', hmm₁, .inl ⟨a, F b, g, g', hx, ?_, hm₁, hm₁', b, rfl, hQ⟩⟩
    rw [on_bind, hy]
    rfl
  · obtain ⟨s, hx, hy, hs, hframes⟩ := herror
    refine ⟨m₁, m₁', hmm₁, .inr ⟨s, hx, ?_, hs, hframes⟩⟩
    rw [on_bind, hy]

/-- A value can be staged in a slot that there is. -/
theorem setTemp_bind {index : Nat} {v : Value} {x : Exec α} {y : Exec β}
    {Q : α → β → Frame → Frame → Prop} (hindex : index < f.temps.length)
    (h : Simulates E { f with temps := f.temps.set index (some v) } f' x y Q) :
    Simulates E f f' (setTemp index v >>= fun _ => x) y Q := by
  refine left (a := ()) (g := { f with temps := f.temps.set index (some v) })
    (fun m fs hm => ?_) rfl h
  simp only [setTemp, on_modifyFrame, hm, Frame.setTemp, if_pos hindex]

/-- A value can be taken from where it was staged. -/
theorem takeTemp_bind {index : Nat} {v : Value} {F : Value → Exec α} {y : Exec β}
    {Q : α → β → Frame → Frame → Prop} (hindex : f.temps[index]? = some (some v))
    (h : Simulates E { f with temps := f.temps.set index none } f' (F v) y Q) :
    Simulates E f f' (takeTemp index >>= F) y Q := by
  refine left (a := v) (g := { f with temps := f.temps.set index none })
    (fun m fs hm => ?_) rfl h
  simp only [on_takeTemp, hm, Frame.takeTemp, hindex]

end Simulates

/-! ## Endings -/

/-- Two endings that agree: the same value or error, and states that agree in all but what the
frames hold in their slots and among their staged values. -/
structure EndAlike (x y : Except Stop α × Machine) : Prop where
  ending : x.1 = y.1
  outline : x.2.outline = y.2.outline

/-- An error of a computation that is one of a pair. -/
theorem Simulates.error {E : Stop → Prop} {f f' : Frame} {x : Exec α} {y : Exec β}
    {Q : α → β → Frame → Frame → Prop} (h : Simulates E f f' x y Q) {m m' : Machine}
    {fs fs' : List Frame} (hm : m.context.frames = f :: fs) (hm' : m'.context.frames = f' :: fs')
    (hmm : m.outline = m'.outline) {s : Stop} (hs : (x.on m).1 = .error s) : E s := by
  obtain ⟨m₁, m₁', -, hok | herror⟩ := h m m' fs fs' hm hm' hmm
  · obtain ⟨a, b, g, g', hx, -⟩ := hok
    rw [hx] at hs
    cases hs
  · obtain ⟨s', hx, -, hE, -⟩ := herror
    rw [hx] at hs
    cases hs
    exact hE

/-- A value of a computation that is one of a pair, and the state that comes with it. -/
theorem Simulates.value {E : Stop → Prop} {f f' : Frame} {x : Exec α} {y : Exec β}
    {Q : α → β → Frame → Frame → Prop} (h : Simulates E f f' x y Q) {m m' : Machine}
    {fs fs' : List Frame} (hm : m.context.frames = f :: fs) (hm' : m'.context.frames = f' :: fs')
    (hmm : m.outline = m'.outline) {a : α} {m₁ : Machine} (ha : x.on m = (.ok a, m₁)) :
    ∃ b g g' m₁', y.on m' = (.ok b, m₁') ∧ m₁.context.frames = g :: fs ∧
      m₁'.context.frames = g' :: fs' ∧ m₁.outline = m₁'.outline ∧ Q a b g g' := by
  obtain ⟨m₂, m₂', hmm₂, hok | herror⟩ := h m m' fs fs' hm hm' hmm
  · obtain ⟨a', b, g, g', hx, hy, hm₂, hm₂', hQ⟩ := hok
    rw [ha] at hx
    cases hx
    exact ⟨b, g, g', m₂', hy, hm₂, hm₂', hmm₂, hQ⟩
  · obtain ⟨s, hx, -⟩ := herror
    rw [ha] at hx
    cases hx

namespace CallsAlike

variable {E : Stop → Prop}

/-- A pair of calls is a pair of steps that leave the innermost frames as they are. -/
theorem simulates {x y : Exec α} (h : CallsAlike E x y) (f f' : Frame) :
    Simulates E f f' x y (Unchanged f f') := by
  intro m m' fs fs' hm hm' hmm
  obtain ⟨m₁, m₁', hmm₁, r, hx, hy, hE, hframes⟩ := h m m' hmm
  refine ⟨m₁, m₁', hmm₁, ?_⟩
  cases r with
  | ok a =>
    obtain ⟨hm₁, hm₁'⟩ := hframes.resolve_left (by simp)
    exact .inl ⟨a, a, f, f', hx, hy, hm₁.trans hm, hm₁'.trans hm', rfl, rfl, rfl⟩
  | error s =>
    refine .inr ⟨s, hx, hy, hE s rfl, ?_⟩
    rcases hframes with hexhausted | ⟨hm₁, hm₁'⟩
    · exact .inl (Except.error.inj hexhausted)
    · exact .inr ⟨f, f', hm₁.trans hm, hm₁'.trans hm'⟩

/-- A computation that is confined to no frame ends alike wherever it is run. -/
theorem of_confined {x : Exec α} (hx : Confined 0 x)
    (hE : ∀ m s, (x.on m).1 = .error s → E s) : CallsAlike E x x := by
  intro m m' hmm
  obtain ⟨r, m₁, top, hr, h⟩ := hx m [] (m.context.frames.map (·.unit)) rfl
  have hrun := h m.context.frames rfl
  have hrun' := h m'.context.frames (Machine.names_of_outline hmm).symm
  rw [List.nil_append, Machine.withFrames_self] at hrun
  rw [List.nil_append, ← Machine.eq_withFrames_of_outline hmm] at hrun'
  refine ⟨_, _, Machine.outline_withFrames rfl ?_, r, hrun, hrun', fun s hs => ?_, ?_⟩
  · rw [List.map_append, List.map_append, Machine.frames_of_outline hmm]
  · exact hE m s (by rw [hrun, hs])
  · refine hr.imp_right fun htop => ?_
    rw [List.length_eq_zero_iff.mp htop]
    exact ⟨rfl, rfl⟩

end CallsAlike

/-- A pair of bodies on one state ends alike. -/
theorem Simulates.endAlike {E : Stop → Prop} {f : Frame} {x y : Exec Unit}
    {Q : Unit → Unit → Frame → Frame → Prop} (h : Simulates E f f x y Q) {m : Machine}
    {fs : List Frame} (hm : m.context.frames = f :: fs) : EndAlike (x.on m) (y.on m) := by
  obtain ⟨m₁, m₁', hmm₁, hok | herror⟩ := h m m fs fs hm hm rfl
  · obtain ⟨_, _, g, g', hx, hy, -⟩ := hok
    rw [hx, hy]
    exact ⟨rfl, hmm₁⟩
  · obtain ⟨s, hx, hy, -⟩ := herror
    rw [hx, hy]
    exact ⟨rfl, hmm₁⟩

/-- A pair of calls ends alike, with the same state unless a loop has used up its rounds. -/
theorem CallsAlike.endAlike {E : Stop → Prop} {x y : Exec α} (h : CallsAlike E x y)
    (m : Machine) :
    EndAlike (x.on m) (y.on m) ∧
      ((x.on m).1 ≠ .error .exhausted → x.on m = y.on m) := by
  obtain ⟨m₁, m₁', hmm₁, r, hx, hy, -, hframes⟩ := h m m rfl
  rw [hx, hy]
  refine ⟨⟨rfl, hmm₁⟩, fun hr => ?_⟩
  obtain ⟨hm₁, hm₁'⟩ := hframes.resolve_left hr
  have hsame : m₁ = m₁' := by
    rw [Machine.eq_withFrames_of_outline hmm₁, hm₁', ← hm₁, Machine.withFrames_self]
  rw [hsame]

/-! ## Native units -/

/-- The handler of a native unit ends with an error on a frame that holds its arguments. -/
def NativeUnit.Raises (unit : NativeUnit) (s : Stop) : Prop :=
  ∃ (m : Machine) (f : Frame) (fs : List Frame), m.context.frames = f :: fs ∧
    f.argCount ≤ f.slots.length ∧ ¬ unit.handler.Has fun _ run => (run.on m).1 ≠ .error s

/-- Writing a result never fails for want of a slot. -/
theorem setReturn_error {index : Nat} {v : Value} {m : Machine} {s : Stop}
    (h : ((setReturn index v).on m).1 = .error s) : s.isStorage = false := by
  rw [setReturn, on_modifyFrame] at h
  rcases hframes : m.context.frames with _ | ⟨f, fs⟩
  · rw [hframes] at h
    cases h
    rfl
  · rw [hframes] at h
    by_cases hindex : index < f.returns.length
    · simp only [Frame.setReturn, if_pos hindex] at h
      cases h
    · simp only [Frame.setReturn, if_neg hindex] at h
      cases h
      rfl

/-- Storing results never fails for want of a slot. -/
theorem storeResults_error {unit : NativeUnit} {index : Nat} {vs : List Value} {tys : List Ty}
    {m : Machine} {s : Stop} (h : ((storeResults unit index vs tys).on m).1 = .error s) :
    s.isStorage = false := by
  induction vs generalizing index tys m with
  | nil => cases h
  | cons v vs ih =>
    cases tys with
    | nil => cases h
    | cons ty tys =>
      simp only [storeResults, on_bind] at h
      rcases hresult : nativeResult unit ty v with e | w
      · rw [hresult] at h
        cases h
        exact Fault.isStorage_of_isOfStack ((OfCalls.nativeResult unit ty v).stackFree e hresult)
      · rw [hresult, on_ofExcept_ok] at h
        rcases hset : (setReturn index w).on m with ⟨s' | _, m₁⟩
        · simp only [hset] at h
          cases h
          exact setReturn_error (by rw [hset])
        · simp only [hset] at h
          exact ih h

/-- An error of a native unit is one of its handler, or one of its results. -/
theorem NativeUnit.run_error {unit : NativeUnit} {m : Machine} {f : Frame} {fs : List Frame}
    (hm : m.context.frames = f :: fs) (hf : f.argCount ≤ f.slots.length) {s : Stop}
    (h : (unit.run.on m).1 = .error s) : s.isStorage = false ∨ unit.Raises s := by
  unfold NativeUnit.run at h
  split at h
  next run hrun =>
    rw [on_bind] at h
    rcases hhandler : run.on m with ⟨s' | vs, m₁⟩
    · rw [hhandler] at h
      cases h
      refine .inr ⟨m, f, fs, hm, hf, fun hnever => ?_⟩
      rw [hrun] at hnever
      exact hnever (by rw [hhandler])
    · rw [hhandler] at h
      simp only [on_bind, on_frame] at h
      rcases hframes : m₁.context.frames with _ | ⟨g, gs⟩
      · rw [hframes] at h
        cases h
        exact .inl rfl
      · rw [hframes] at h
        dsimp only at h
        split at h
        · cases h
          exact .inl rfl
        · exact .inl (storeResults_error h)
  next run hrun =>
    rw [on_bind] at h
    rcases hhandler : run.on m with ⟨s' | v, m₁⟩
    · rw [hhandler] at h
      cases h
      refine .inr ⟨m, f, fs, hm, hf, fun hnever => ?_⟩
      rw [hrun] at hnever
      exact hnever (by rw [hhandler])
    · rw [hhandler] at h
      dsimp only at h
      split at h
      · rw [on_bind] at h
        rcases hresult : nativeResult unit _ v with e | w
        · rw [hresult] at h
          cases h
          have hstack := (OfCalls.nativeResult unit _ v).stackFree e hresult
          exact .inl (Fault.isStorage_of_isOfStack hstack)
        · rw [hresult] at h
          exact .inl (setReturn_error h)
      · cases h

/-- A native unit ends alike on one frame above any frames of its callers. -/
theorem Simulates.native_run {E : Stop → Prop} {unit : NativeUnit} (hunit : unit.Confined)
    {f : Frame} (hf : f.argCount ≤ f.slots.length)
    (hE : ∀ s, s.isStorage = false ∨ unit.Raises s → E s) :
    Simulates E f f unit.run unit.run fun _ _ _ _ => True := by
  intro m m' fs fs' hm hm' hmm
  have hnames := Machine.names_of_outline hmm
  have hframes := Machine.frames_of_outline hmm
  rw [hm, hm', List.map_cons, List.map_cons, List.cons.injEq] at hnames hframes
  obtain ⟨r, m₁, top, hr, h⟩ := hunit.run m [f] (fs.map (·.unit)) rfl
  have hrun : unit.run.on m = (r, m₁.withFrames (top ++ fs)) := by
    rw [← h fs rfl, List.singleton_append, ← hm, Machine.withFrames_self]
  have hrun' : unit.run.on m' = (r, m₁.withFrames (top ++ fs')) := by
    rw [← h fs' hnames.2.symm, List.singleton_append, ← hm',
      ← Machine.eq_withFrames_of_outline hmm]
  have houtline : (top ++ fs).map Frame.outline = (top ++ fs').map Frame.outline := by
    rw [List.map_append, List.map_append, hframes.2]
  refine ⟨_, _, Machine.outline_withFrames (m := m₁) rfl houtline, ?_⟩
  rcases r with s | a
  · refine .inr ⟨s, hrun, hrun', hE s (NativeUnit.run_error hm hf (by rw [hrun])), ?_⟩
    rcases hr with hexhausted | hlength
    · exact .inl (Except.error.inj hexhausted)
    · obtain ⟨g, rfl⟩ := List.length_eq_one_iff.mp hlength
      exact .inr ⟨g, g, rfl, rfl⟩
  · obtain ⟨g, rfl⟩ := List.length_eq_one_iff.mp (hr.resolve_left (by simp))
    exact .inl ⟨a, a, g, g, hrun, hrun', rfl, rfl, trivial⟩

/-! ## Calls -/

/-- The error is not about slots, or it comes from a handler of the program. -/
def Program.MayEnd (p : Program) (s : Stop) : Prop :=
  s.isStorage = false ∨
    ∃ name unit, p.find? name = some (.native unit) ∧ unit.Raises s

/-- Two ways to run bodies that end alike for all functions of a program, if their callees do. -/
def BodiesAlike (E : Stop → Prop) (p : Program) (run run' : Code → Exec Unit) : Prop :=
  ∀ name f, p.find? name = some (.function f) →
    ∀ (call call' : Callable → List Value → Exec (List Value)) (rounds : Nat),
      (∀ name unit, p.resolve name = .ok unit → ∀ args,
        CallsAlike E (call unit args) (call' unit args)) →
      ∀ args frame, prepare (.function f) args = .ok frame →
        Simulates E frame frame (run ⟨p, f, call, rounds⟩) (run' ⟨p, f, call', rounds⟩)
          fun _ _ _ _ => True

/-- The frame of a call has the sizes that its callable asks for. -/
theorem sizes_of_prepare {unit : Callable} {slots : List Ty} {temps : Nat}
    (hshape : unit.shape = .ok (slots, temps)) {args : List Value} {f : Frame}
    (h : prepare unit args = .ok f) :
    f.slots.length = slots.length ∧ f.temps = List.replicate temps none := by
  unfold prepare at h
  obtain ⟨_, -, h⟩ := bind_eq_ok.mp h
  obtain ⟨sizes, hsizes, h⟩ := bind_eq_ok.mp h
  rw [hshape] at hsizes
  cases hsizes
  simp only [Frame.make?] at h
  split at h
  · cases h
  next hfit =>
    cases h
    refine ⟨?_, rfl⟩
    rw [List.length_append, List.length_map (f := Ty.default), List.length_drop]
    omega

/-- The frame of a call has a slot for each argument. -/
theorem argCount_le_of_prepare {unit : Callable} {args : List Value} {f : Frame}
    (h : prepare unit args = .ok f) : f.argCount ≤ f.slots.length := by
  unfold prepare at h
  obtain ⟨_, -, h⟩ := bind_eq_ok.mp h
  obtain ⟨⟨slots, temps⟩, -, h⟩ := bind_eq_ok.mp h
  simp only [Frame.make?] at h
  split at h
  · cases h
  · cases h
    simp

namespace CallsAlike

variable {E : Stop → Prop} (hE : ∀ s, s.isStorage = false → E s)

include hE

theorem prepared {unit : Callable} {args : List Value} {F G : Frame → Exec α}
    (h : ∀ f, prepare unit args = .ok f → CallsAlike E (F f) (G f)) :
    CallsAlike E (recording (ofExcept (prepare unit args)) >>= F)
      (recording (ofExcept (prepare unit args)) >>= G) := by
  rcases hprepare : prepare unit args with e | f
  · intro m m' hmm
    refine ⟨_, _, Machine.outline_recorded hmm (.fault e), .error (.failed (.fault e)), rfl, rfl,
      fun s hs => ?_, .inr ?_⟩
    · cases hs
      have hstack := (OfCalls.prepare unit args).stackFree e hprepare
      exact hE _ (Fault.isStorage_of_isOfStack hstack)
    · exact ⟨Machine.recorded_frames m _, Machine.recorded_frames m' _⟩
  · exact h f hprepare

/-- Without a level left a call overflows. -/
theorem overflow : CallsAlike (α := α) E
    (do recording (fault (.stackOverflow (← context).depth)))
    (do recording (fault (.stackOverflow (← context).depth))) := by
  intro m m' hmm
  refine ⟨_, _, Machine.outline_recorded hmm (.fault (.stackOverflow m.context.depth)),
    .error (.failed (.fault (.stackOverflow m.context.depth))), rfl, ?_, fun s hs => ?_, .inr ?_⟩
  · rw [Machine.depth_of_outline hmm]
    rfl
  · cases hs
    exact hE _ rfl
  · exact ⟨Machine.recorded_frames m _, Machine.recorded_frames m' _⟩

/-- Whole calls end alike if what is run on their frames does. -/
theorem unwinding {f : Frame} {x y : Exec Unit}
    (h : Simulates E f f x y fun _ _ _ _ => True) :
    CallsAlike E (recording (push f) >>= fun _ => unwinding x)
      (recording (push f) >>= fun _ => FrameScript.unwinding y) := by
  intro m m' hmm
  have hdepth := Machine.depth_of_outline hmm
  have hmax : m.context.maxDepth = m'.context.maxDepth :=
    congrArg (fun n => n.context.maxDepth) hmm
  by_cases hfull : m.context.maxDepth ≤ m.context.depth
  · refine ⟨_, _, Machine.outline_recorded hmm (.fault (.stackOverflow m.context.depth)),
      .error (.failed (.fault (.stackOverflow m.context.depth))), ?_, ?_, fun s hs => ?_, .inr ?_⟩
    · rw [on_bind, on_recording, on_push, if_pos hfull]
    · rw [on_bind, on_recording, on_push, if_pos (hmax ▸ hdepth ▸ hfull), hdepth]
    · cases hs
      exact hE _ rfl
    · exact ⟨Machine.recorded_frames m _, Machine.recorded_frames m' _⟩
  · have hpush : (m.withFrames (f :: m.context.frames)).outline =
        (m'.withFrames (f :: m'.context.frames)).outline := by
      refine Machine.outline_withFrames hmm ?_
      rw [List.map_cons, List.map_cons, Machine.frames_of_outline hmm]
    have hrun : on (recording (push f) >>= fun _ => FrameScript.unwinding x) m =
        on (FrameScript.unwinding x) (m.withFrames (f :: m.context.frames)) := by
      rw [on_bind, on_recording, on_push, if_neg hfull]
    have hrun' : on (recording (push f) >>= fun _ => FrameScript.unwinding y) m' =
        on (FrameScript.unwinding y) (m'.withFrames (f :: m'.context.frames)) := by
      rw [on_bind, on_recording, on_push, if_neg (hmax ▸ hdepth ▸ hfull)]
    rw [hrun, hrun', on_unwinding, on_unwinding]
    obtain ⟨m₁, m₁', hmm₁, hok | herror⟩ := h _ _ _ _ rfl rfl hpush
    · obtain ⟨_, _, g, g', hx, hy, hm₁, hm₁', -⟩ := hok
      have hframes := Machine.frames_of_outline hmm₁
      rw [hm₁, hm₁', List.map_cons, List.map_cons, List.cons.injEq] at hframes
      obtain ⟨-, -, hreturns⟩ := Frame.of_outline hframes.1
      rw [hx, hy]
      simp only [hm₁, hm₁', hreturns]
      exact ⟨_, _, Machine.outline_withFrames hmm₁ hframes.2, _, rfl, rfl,
        fun s hs => (by cases hs), .inr ⟨rfl, rfl⟩⟩
    · obtain ⟨s, hx, hy, hs, hkept⟩ := herror
      rw [hx, hy]
      cases s with
      | exhausted =>
        refine ⟨m₁, m₁', hmm₁, _, rfl, rfl, fun s hs' => ?_, .inl rfl⟩
        cases hs'
        exact hs
      | failed e =>
        obtain ⟨g, g', hm₁, hm₁'⟩ := hkept.resolve_left (by simp)
        have hframes := Machine.frames_of_outline hmm₁
        rw [hm₁, hm₁', List.map_cons, List.map_cons, List.cons.injEq] at hframes
        simp only [hm₁, hm₁']
        refine ⟨_, _, Machine.outline_withFrames (Machine.outline_recorded hmm₁ e) hframes.2, _,
          rfl, rfl, fun s hs' => ?_, .inr ⟨rfl, rfl⟩⟩
        cases hs'
        exact hs

end CallsAlike

/-- **Calls end alike if bodies do.** Let two ways to run bodies end alike for every function of a
program, given that the callees do, and let its native units work on their own frames. Then whole
calls end alike, whatever their levels and arguments.

**Proof sketch.** Induction on the levels left. Both calls make the same frame, push it at the same
depth and run either the same handler or two bodies that end alike by assumption, since the calls
they make do by induction. The frame is taken away from both, and the results in it agree. -/
theorem callWith_alike {E : Stop → Prop} {p : Program} (hE : ∀ s, p.MayEnd s → E s)
    (hp : p.NativesConfined) {run run' : Code → Exec Unit} (hrun : BodiesAlike E p run run')
    (rounds levels : Nat) {name : String} {unit : Callable} (hunit : p.find? name = some unit)
    (args : List Value) :
    CallsAlike E (callWith run p rounds levels unit args)
      (callWith run' p rounds levels unit args) := by
  have hE' (s : Stop) (hs : s.isStorage = false) : E s := hE s (.inl hs)
  induction levels generalizing name unit args with
  | zero => exact CallsAlike.prepared hE' fun _ _ => CallsAlike.overflow hE'
  | succ levels ih =>
    refine CallsAlike.prepared hE' fun f hf => CallsAlike.unwinding hE' ?_
    cases unit with
    | native u =>
      refine Simulates.native_run (hp name u hunit) (argCount_le_of_prepare hf) fun s hs => ?_
      exact hE s (hs.imp_right fun hraises => ⟨name, u, hunit, hraises⟩)
    | function function =>
      refine hrun name function hunit _ _ rounds (fun name unit hunit args => ?_) args f hf
      exact ih (Program.find?_of_resolve hunit) args

end FrameScript
