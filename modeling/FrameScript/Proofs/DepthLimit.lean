import FrameScript.Proofs.Origins
import FrameScript.Proofs.Standard
import FrameScript.Proofs.Steps
import FrameScript.Proofs.Storage

set_option autoImplicit false

/-!
# The depth limit

The limit on active calls shows in one place only: a call that finds no room fails. So a run that
does not end for want of room is the same under every higher limit. Side by side stand the run of a
call under one limit and its run under another; both go through the same states up to the limit, for
every call finds the same frames below it, and a call that has room under the lower limit has room
under the higher one.

## Main definitions

* `Machine.withLimit` — a state with another depth limit.
* `WithinLimit` — a computation that keeps to the limit, and leaves no call active behind.
* `Blind` — a computation that takes no notice of the limit.
* `AlikeUpTo` — two computations that end alike under two limits, unless the room is used up.
* `NativeUnit.IgnoresLimit` — what is asked of native units.

## Main results

* `call_withinLimit` — a call keeps to the limit.
* `Task.Fails.overflow` — an overflow reports the limit.
* `call_alikeUpTo` — a call ends alike under two limits, and with any levels beyond them.
* `limit_only_limits` — all of it, for a call from outside.
-/

namespace FrameScript

open Exec

variable {α β : Type}

/-! ## States under another limit -/

namespace Machine

/-- The state with another depth limit. -/
def withLimit (m : Machine) (n : Nat) : Machine :=
  { m with context := { m.context with maxDepth := n } }

variable (m : Machine) (n : Nat)

@[simp] theorem withLimit_frames : (m.withLimit n).context.frames = m.context.frames := rfl

@[simp] theorem withLimit_depth : (m.withLimit n).context.depth = m.context.depth := rfl

@[simp] theorem withLimit_maxDepth : (m.withLimit n).context.maxDepth = n := rfl

@[simp] theorem withLimit_failure? : (m.withLimit n).context.failure? = m.context.failure? := rfl

@[simp] theorem withLimit_heap : (m.withLimit n).heap = m.heap := rfl

@[simp] theorem withLimit_self : m.withLimit m.context.maxDepth = m := rfl

@[simp] theorem withLimit_withLimit (k : Nat) : (m.withLimit n).withLimit k = m.withLimit k := rfl

@[simp] theorem withLimit_withFrames (fs : List Frame) :
    (m.withLimit n).withFrames fs = (m.withFrames fs).withLimit n := rfl

@[simp] theorem withLimit_recorded (e : Failure) :
    (m.withLimit n).recorded e = (m.recorded e).withLimit n := by
  unfold recorded
  rw [withLimit_failure?]
  split <;> rfl

end Machine

/-! ## Keeping to the limit -/

/-- How a computation that keeps to the limit leaves the state: the limit is the same and kept to,
and unless a loop has used up its rounds as many calls are active as before. -/
structure KeptWithin (out : Except Stop α) (m m' : Machine) : Prop where
  limit : m'.context.maxDepth = m.context.maxDepth
  within : m'.context.depth ≤ m.context.maxDepth
  depth : out ≠ .error .exhausted → m'.context.depth = m.context.depth

/-- A computation that keeps to the limit if it is begun within it. -/
def WithinLimit (x : Exec α) : Prop :=
  ∀ m : Machine, m.context.depth ≤ m.context.maxDepth → KeptWithin (x.on m).1 m (x.on m).2

namespace WithinLimit

/-- A computation that changes neither the number of active calls nor the limit. -/
theorem of_anywhere {x : Exec α}
    (hdepth : ∀ m : Machine, (x.on m).2.context.depth = m.context.depth)
    (hlimit : ∀ m : Machine, (x.on m).2.context.maxDepth = m.context.maxDepth) : WithinLimit x :=
  fun m hm => ⟨hlimit m, (hdepth m).trans_le hm, fun _ => hdepth m⟩

/-- A computation that changes frames only, and not their number. -/
theorem of_frames {x : Exec α} (hx : ∀ m : Machine, ∃ fs : List Frame,
    fs.length = m.context.frames.length ∧ (x.on m).2 = m.withFrames fs) : WithinLimit x := by
  refine of_anywhere (fun m => ?_) fun m => ?_
  · obtain ⟨fs, hlength, hfs⟩ := hx m
    rw [hfs]
    exact hlength
  · obtain ⟨fs, -, hfs⟩ := hx m
    rw [hfs, Machine.withFrames_maxDepth]

theorem frame : WithinLimit frame := by
  refine of_frames fun m => ⟨m.context.frames, rfl, ?_⟩
  rw [on_frame]
  split <;> rfl

theorem modifyFrame (change : Frame → Except Fault Frame) : WithinLimit (modifyFrame change) := by
  refine of_frames fun m => ?_
  rw [on_modifyFrame]
  rcases hfs : m.context.frames with _ | ⟨f, fs⟩
  · exact ⟨[], rfl, congrArg m.withFrames hfs⟩
  · rcases hf : change f with e | g
    · exact ⟨f :: fs, rfl, by simp only [hf, ← hfs, Machine.withFrames_self]⟩
    · exact ⟨g :: fs, rfl, by simp only [hf]⟩

theorem takeTemp (index : Nat) : WithinLimit (takeTemp index) := by
  refine of_frames fun m => ?_
  rw [on_takeTemp]
  rcases hfs : m.context.frames with _ | ⟨f, fs⟩
  · exact ⟨[], rfl, congrArg m.withFrames hfs⟩
  · rcases hf : f.takeTemp index with e | ⟨v, g⟩
    · exact ⟨f :: fs, rfl, by simp only [hf, ← hfs, Machine.withFrames_self]⟩
    · exact ⟨g :: fs, rfl, by simp only [hf]⟩

theorem bind {x : Exec α} {k : α → Exec β} (hx : WithinLimit x) (hk : ∀ a, WithinLimit (k a)) :
    WithinLimit (x >>= k) := by
  intro m hm
  have hfirst := hx m hm
  rw [on_bind]
  rcases h : x.on m with ⟨s | a, m₁⟩ <;> rw [h] at hfirst
  · exact ⟨hfirst.limit, hfirst.within, fun hs => hfirst.depth fun h => by cases h; exact hs rfl⟩
  · have hdepth : m₁.context.depth = m.context.depth := hfirst.depth nofun
    have hlimit : m₁.context.maxDepth = m.context.maxDepth := hfirst.limit
    have hrest := hk a m₁ (by rw [hdepth, hlimit]; exact hm)
    exact ⟨hrest.limit.trans hlimit, hrest.within.trans_eq hlimit,
      fun hs => (hrest.depth hs).trans hdepth⟩

theorem ofExcept (r : Except Fault α) : WithinLimit (ofExcept r) := by
  cases r with
  | ok a => exact of_anywhere (fun _ => rfl) fun _ => rfl
  | error f => exact of_anywhere (fun _ => rfl) fun _ => rfl

/-- Keeping to the limit is a property that the steps of bodies have. -/
theorem closed : Closed fun _ x => WithinLimit x where
  pure _ := of_anywhere (fun _ => rfl) fun _ => rfl
  bind := bind
  fault _ := of_anywhere (fun _ => rfl) fun _ => rfl
  exhausted := of_anywhere (fun _ => rfl) fun _ => rfl
  heap := of_anywhere (fun _ => rfl) fun _ => rfl
  frame h := bind frame fun _ => h
  getSlot index := bind frame fun f => ofExcept (f.get index)
  setSlot _ _ := modifyFrame _
  setTemp _ _ := modifyFrame _
  takeTemp _ := takeTemp _
  setReturn _ _ := modifyFrame _
  newArray _ _ := of_anywhere (fun _ => rfl) fun _ => rfl
  newMap _ := of_anywhere (fun _ => rfl) fun _ => rfl
  newStruct _ _ := of_anywhere (fun _ => rfl) fun _ => rfl
  newConnector _ _ := of_anywhere (fun _ => rfl) fun _ => rfl
  newMessage _ := of_anywhere (fun _ => rfl) fun _ => rfl
  withElement _ _ _ _ := of_anywhere (fun _ => rfl) fun _ => rfl
  setEntry _ _ _ := of_anywhere (fun _ => rfl) fun _ => rfl
  withField _ _ _ := of_anywhere (fun _ => rfl) fun _ => rfl

end WithinLimit

/-! ## Taking no notice of the limit -/

/-- A computation that does the same under every limit. -/
def Blind (x : Exec α) : Prop :=
  ∀ (m : Machine) (n : Nat), x.on (m.withLimit n) = ((x.on m).1, (x.on m).2.withLimit n)

namespace Blind

theorem frame : Blind frame := by
  intro m n
  rw [on_frame, on_frame, Machine.withLimit_frames]
  split <;> rfl

theorem modifyFrame (change : Frame → Except Fault Frame) : Blind (modifyFrame change) := by
  intro m n
  rw [on_modifyFrame, on_modifyFrame, Machine.withLimit_frames]
  rcases m.context.frames with _ | ⟨f, fs⟩
  · rfl
  · rcases hf : change f with e | g <;> simp [hf]

theorem takeTemp (index : Nat) : Blind (takeTemp index) := by
  intro m n
  rw [on_takeTemp, on_takeTemp, Machine.withLimit_frames]
  rcases m.context.frames with _ | ⟨f, fs⟩
  · rfl
  · rcases hf : f.takeTemp index with e | ⟨v, g⟩ <;> simp [hf]

theorem bind {x : Exec α} {k : α → Exec β} (hx : Blind x) (hk : ∀ a, Blind (k a)) :
    Blind (x >>= k) := by
  intro m n
  rw [on_bind, on_bind, hx m n]
  rcases x.on m with ⟨s | a, m₁⟩
  · rfl
  · exact hk a m₁ n

theorem ofExcept (r : Except Fault α) : Blind (ofExcept r) := by
  cases r with
  | ok a => exact fun _ _ => rfl
  | error f => exact fun _ _ => rfl

/-- Taking no notice of the limit is a property that the steps of bodies have. -/
theorem closed : Closed fun _ x => Blind x where
  pure _ _ _ := rfl
  bind := bind
  fault _ _ _ := rfl
  exhausted _ _ := rfl
  heap _ _ := rfl
  frame h := bind frame fun _ => h
  getSlot index := bind frame fun f => ofExcept (f.get index)
  setSlot _ _ := modifyFrame _
  setTemp _ _ := modifyFrame _
  takeTemp _ := takeTemp _
  setReturn _ _ := modifyFrame _
  newArray _ _ _ _ := rfl
  newMap _ _ _ := rfl
  newStruct _ _ _ _ := rfl
  newConnector _ _ _ _ := rfl
  newMessage _ _ _ := rfl
  withElement _ _ _ _ _ _ := rfl
  setEntry _ _ _ _ _ := rfl
  withField _ _ _ _ _ := rfl

end Blind

/-! ## Native units -/

/-- What a native unit does that neither looks at the limit nor at how many calls are active: it
does the same under every limit, leaves the number of active calls as it is, and raises no overflow
of its own. -/
structure IgnoresLimit (x : Exec α) : Prop where
  blind : Blind x
  depth (m : Machine) : (x.on m).2.context.depth = m.context.depth
  noOverflow (m : Machine) (n : Nat) : (x.on m).1 ≠ .error (.failed (.fault (.stackOverflow n)))

/-- A native unit whose handler ignores the limit. -/
def NativeUnit.IgnoresLimit (unit : NativeUnit) : Prop :=
  unit.handler.Has fun _ run => FrameScript.IgnoresLimit run

/-- All native units of a program ignore the limit. -/
def Program.NativesIgnoreLimit (p : Program) : Prop :=
  ∀ name unit, p.find? name = some (.native unit) → unit.IgnoresLimit

/-- A computation that does the same under every limit leaves the limit as it is. -/
theorem Blind.limit {x : Exec α} (hx : Blind x) (m : Machine) :
    (x.on m).2.context.maxDepth = m.context.maxDepth := by
  have h := congrArg (·.2.context.maxDepth) (hx m m.context.maxDepth)
  exact h

theorem IgnoresLimit.withinLimit {x : Exec α} (hx : IgnoresLimit x) : WithinLimit x :=
  .of_anywhere hx.depth hx.blind.limit

/-- What holds of computations that ignore the limit holds of the handler of such a unit. -/
theorem NativeUnit.IgnoresLimit.has {unit : NativeUnit} (h : unit.IgnoresLimit)
    {P : (α : Type) → Exec α → Prop}
    (hP : ∀ {α : Type} {x : Exec α}, FrameScript.IgnoresLimit x → P α x) :
    unit.handler.Has P := by
  unfold NativeUnit.IgnoresLimit at h
  cases hrun : unit.handler <;> rw [hrun] at h <;> exact hP h

namespace IgnoresLimit

theorem bind {x : Exec α} {k : α → Exec β} (hx : IgnoresLimit x) (hk : ∀ a, IgnoresLimit (k a)) :
    IgnoresLimit (x >>= k) := by
  refine ⟨Blind.bind hx.blind fun a => (hk a).blind, fun m => ?_, fun m n => ?_⟩
  · have hfirst := hx.depth m
    rw [on_bind]
    rcases h : x.on m with ⟨s | a, m₁⟩ <;> rw [h] at hfirst
    · exact hfirst
    · exact ((hk a).depth m₁).trans hfirst
  · have hfirst := hx.noOverflow m n
    rw [on_bind]
    rcases h : x.on m with ⟨s | a, m₁⟩ <;> rw [h] at hfirst
    · exact fun hs => hfirst (by cases hs; rfl)
    · exact (hk a).noOverflow m₁ n

theorem pure (a : α) : IgnoresLimit (pure a) :=
  ⟨fun _ _ => rfl, fun _ => rfl, nofun⟩

theorem hostError (message : String) : IgnoresLimit (hostError message : Exec α) :=
  ⟨fun _ _ => rfl, fun _ => rfl, nofun⟩

theorem defect (d : Defect) : IgnoresLimit (fault (.analyzerDefect d) : Exec α) :=
  ⟨fun _ _ => rfl, fun _ => rfl, nofun⟩

theorem heap : IgnoresLimit heap :=
  ⟨fun _ _ => rfl, fun _ => rfl, nofun⟩

theorem make (new : Heap → Value × Heap) : IgnoresLimit (make new) :=
  ⟨fun _ _ => rfl, fun _ => rfl, nofun⟩

theorem modifyHeap (change : Heap → Heap) : IgnoresLimit (modifyHeap change) :=
  ⟨fun _ _ => rfl, fun _ => rfl, nofun⟩

theorem print (s : String) : IgnoresLimit (print s) :=
  ⟨fun _ _ => rfl, fun _ => rfl, nofun⟩

theorem property? (key : String) : IgnoresLimit (property? key) :=
  ⟨fun _ _ => rfl, fun _ => rfl, nofun⟩

theorem frame : IgnoresLimit frame where
  blind := Blind.frame
  depth m := by rw [on_frame]; split <;> rfl
  noOverflow m n := by rw [on_frame]; split <;> nofun

theorem ofExcept {r : Except Fault α} (hr : ∀ n, r ≠ .error (.stackOverflow n)) :
    IgnoresLimit (ofExcept r) := by
  cases r with
  | ok a => exact ⟨fun _ _ => rfl, fun _ => rfl, nofun⟩
  | error f => exact ⟨fun _ _ => rfl, fun _ => rfl, fun _ n h => hr n (by cases h; rfl)⟩

theorem argument (index : Nat) : IgnoresLimit (argument index) := by
  refine bind frame fun f => ofExcept fun n => ?_
  unfold Frame.argument Frame.nullableArgument Frame.get
  grind

end IgnoresLimit

/-- Ignoring the limit is a property of the steps of the standard library. -/
theorem Library.closed_ignoresLimit : Library.Closed fun _ x => IgnoresLimit x where
  pure := .pure
  bind := .bind
  hostError := .hostError
  defect := .defect
  argument := .argument
  heap := .heap
  newArray _ _ := .make _
  eraseEntry _ _ := .modifyHeap _
  print := .print
  property? := .property?

/-- Every unit of the standard library ignores the limit. -/
theorem Library.standard_ignoresLimit {key : String} {unit : NativeUnit}
    (h : (key, unit) ∈ standard.units) : unit.IgnoresLimit := by
  obtain ⟨package, hpackage, hmem⟩ := mem_standard h
  exact closed_ignoresLimit.handler hpackage hmem

/-- The native units of a loaded program ignore the limit if those of the registry do. -/
theorem Program.Linked.nativesIgnoreLimit {natives : Registry} {p : Program}
    (hp : p.Linked natives)
    (hnatives : ∀ key unit, (key, unit) ∈ natives.units → unit.IgnoresLimit) :
    p.NativesIgnoreLimit := by
  intro name unit hfound
  cases hp.comesFrom hfound with
  | registered hmem => exact hnatives _ unit hmem

/-! ## Calls keep to the limit -/

/-- A computation that keeps to the limit and ends by itself leaves the frame it was begun on. -/
theorem WithinLimit.exists_frame {run : Exec Unit} (hrun : WithinLimit run) {m m₁ : Machine}
    {g : Frame} {out : Except Stop Unit} (hroom : m.context.depth < m.context.maxDepth)
    (h : run.on (m.withFrames (g :: m.context.frames)) = (out, m₁))
    (hout : out ≠ .error .exhausted) :
    ∃ f fs, m₁.context.frames = f :: fs ∧ fs.length = m.context.depth := by
  have hbody := hrun (m.withFrames (g :: m.context.frames)) hroom
  rw [h] at hbody
  have hdepth : m₁.context.frames.length = m.context.depth + 1 := hbody.depth hout
  rcases hfs : m₁.context.frames with _ | ⟨f, fs⟩ <;> rw [hfs] at hdepth
  · cases hdepth
  · exact ⟨f, fs, rfl, Nat.succ.inj hdepth⟩

/-- Running a computation on one more frame and taking the frame away keeps to the limit. -/
theorem WithinLimit.unwinding {run : Exec Unit} (hrun : WithinLimit run) {m : Machine} (g : Frame)
    (hroom : m.context.depth < m.context.maxDepth) :
    KeptWithin ((unwinding run).on (m.withFrames (g :: m.context.frames))).1 m
      ((unwinding run).on (m.withFrames (g :: m.context.frames))).2 := by
  have hbody := hrun (m.withFrames (g :: m.context.frames)) hroom
  rcases h : run.on (m.withFrames (g :: m.context.frames)) with ⟨(e | _) | _, m₁⟩ <;>
    rw [h] at hbody
  · obtain ⟨f, fs, hfs, hlength⟩ := hrun.exists_frame hroom h nofun
    rw [on_unwinding_failed h hfs]
    refine ⟨?_, hlength.trans_le hroom.le, fun _ => hlength⟩
    exact (Machine.recorded_maxDepth m₁ e).trans hbody.limit
  · rw [on_unwinding_exhausted h]
    exact ⟨hbody.limit, hbody.within, fun h => absurd rfl h⟩
  · obtain ⟨f, fs, hfs, hlength⟩ := hrun.exists_frame hroom h nofun
    rw [on_unwinding_ok h hfs]
    exact ⟨hbody.limit, hlength.trans_le hroom.le, fun _ => hlength⟩

theorem KeptWithin.recorded {out : Except Stop α} {m : Machine}
    (hm : m.context.depth ≤ m.context.maxDepth) (e : Failure) :
    KeptWithin out m (m.recorded e) := by
  have hdepth : (m.recorded e).context.depth = m.context.depth := by
    rw [Context.depth, Machine.recorded_frames, Context.depth]
  exact ⟨Machine.recorded_maxDepth m e, hdepth.trans_le hm, fun _ => hdepth⟩

/-- A call keeps to the limit, and leaves as many calls active as there were.

**Proof sketch.** Induction on the levels left. A call that has room puts one frame on the control
stack, under which its body keeps to the limit because all its steps do and, by induction, the calls
it makes; and it takes that frame away again. -/
theorem call_withinLimit {p : Program} (hp : p.NativesIgnoreLimit) (rounds levels : Nat)
    {name : String} {unit : Callable} (hunit : p.find? name = some unit) (args : List Value) :
    WithinLimit (call p rounds levels unit args) := by
  induction levels generalizing name unit args with
  | zero =>
    intro m hm
    rw [on_call_zero]
    split <;> exact .recorded hm _
  | succ levels ih =>
    intro m hm
    rw [on_call_succ]
    split
    · exact .recorded hm _
    next g _ =>
      split
      · exact .recorded hm _
      next hroom =>
        refine WithinLimit.unwinding ?_ g (Nat.lt_of_not_le hroom)
        cases unit with
        | native u =>
          exact WithinLimit.closed.native_run .frame ((hp name u hunit).has (·.withinLimit))
        | function f =>
          exact WithinLimit.closed.run fun name unit hunit args =>
            ih (Program.find?_of_resolve hunit) args

/-! ## The states of a run -/

namespace Machine

/-- If the first state keeps to its limit, then in the second as many calls are active, under the
same limit. -/
def SameRoom (m m' : Machine) : Prop :=
  m.context.depth ≤ m.context.maxDepth →
    m'.context.maxDepth = m.context.maxDepth ∧ m'.context.depth = m.context.depth

theorem SameRoom.refl (m : Machine) : m.SameRoom m :=
  fun _ => ⟨rfl, rfl⟩

theorem SameRoom.trans {m₁ m₂ m₃ : Machine} (h : m₁.SameRoom m₂) (h' : m₂.SameRoom m₃) :
    m₁.SameRoom m₃ := by
  intro hm
  obtain ⟨hlimit, hdepth⟩ := h hm
  obtain ⟨hlimit', hdepth'⟩ := h' (by rw [hlimit, hdepth]; exact hm)
  exact ⟨hlimit'.trans hlimit, hdepth'.trans hdepth⟩

end Machine

namespace Task

variable {p : Program} {rounds : Nat}

/-- The calls on behalf of a task have as many levels left as there is room under the limit, if not
more. -/
def HasLevels (task : Task) (m : Machine) : Prop :=
  ∀ levels, task.levels? = some levels → m.context.maxDepth ≤ m.context.depth + levels

/-- A task is begun within the limit, with enough levels, on a frame unless it is a call, and calls
and runs callables of the program. -/
structure BegunWithin (p : Program) (task : Task) (m : Machine) : Prop where
  linked : task.Linked p
  within : m.context.depth ≤ m.context.maxDepth
  levels : task.HasLevels m
  frame : (∀ levels unit args, task ≠ .call levels unit args) → 0 < m.context.depth

/-- A call from outside is begun so if no more calls are active than the limit allows. -/
theorem BegunWithin.of_call {p : Program} {name : String} {unit : Callable}
    (hunit : p.find? name = some unit) (args : List Value) {m : Machine}
    (hm : m.context.depth ≤ m.context.maxDepth) :
    (Task.call m.context.room unit args).BegunWithin p m := by
  refine ⟨⟨name, hunit⟩, hm, fun levels hlevels => ?_, fun hnot => absurd rfl (hnot _ _ _)⟩
  cases hlevels
  rw [Context.room]
  omega

/-- Steps other than into a call leave the levels as they are. -/
theorem Step.levels?_eq {task₁ task₂ : Task} {m₁ m₂ : Machine}
    (h : Step p rounds task₁ m₁ task₂ m₂)
    (hnot : ∀ levels unit args, task₁ ≠ .call levels unit args)
    {levels : Nat} (hlevels : task₂.levels? = some levels) : task₁.levels? = some levels := by
  cases h with
  | call => exact absurd rfl (hnot _ _ _)
  | handled | mapped | stored => cases hlevels
  | _ => exact hlevels

variable (hp : p.NativesIgnoreLimit)

include hp

/-- What is done before a task is begun on behalf of another that is no call leaves the limit and
the number of active calls as they are. -/
theorem Step.sameRoom {task₁ task₂ : Task} {m₁ m₂ : Machine} (h : Step p rounds task₁ m₁ task₂ m₂)
    (hlinked : task₁.Linked p) (hnot : ∀ levels unit args, task₁ ≠ .call levels unit args) :
    m₁.SameRoom m₂ := by
  refine Step.leads WithinLimit.closed
    (fun name unit hunit => (hp name unit hunit).has (·.withinLimit)) hlinked
    (fun levels _ name unit hunit args => call_withinLimit hp rounds levels hunit args)
    (fun hx hon hm => ?_) Machine.SameRoom.refl Machine.SameRoom.trans h hnot
  have hkept := hx _ hm
  rw [hon] at hkept
  exact ⟨hkept.limit, hkept.depth nofun⟩

theorem Step.begunWithin {task₁ task₂ : Task} {m₁ m₂ : Machine}
    (h : Step p rounds task₁ m₁ task₂ m₂) (hbegun : task₁.BegunWithin p m₁) :
    m₂.context.maxDepth = m₁.context.maxDepth ∧ task₂.BegunWithin p m₂ := by
  by_cases hcall : ∃ levels unit args, task₁ = .call levels unit args
  · obtain ⟨levels, unit, args, rfl⟩ := hcall
    cases h with
    | call hf hroom =>
      refine ⟨rfl, hbegun.linked, hroom, fun levels hlevels => ?_, fun _ => Nat.succ_pos _⟩
      cases hlevels
      have hlevels := hbegun.levels _ rfl
      simp only [Machine.withFrames_maxDepth, Context.depth, Machine.withFrames_frames,
        List.length_cons] at hlevels ⊢
      omega
  · have hnot (levels : Nat) (unit : Callable) (args : List Value) :
        task₁ ≠ .call levels unit args := fun htask => hcall ⟨_, _, _, htask⟩
    obtain ⟨hlimit, hdepth⟩ := h.sameRoom hp hbegun.linked hnot hbegun.within
    refine ⟨hlimit, h.linked hbegun.linked, ?_, fun levels hlevels => ?_, fun _ => ?_⟩
    · rw [hlimit, hdepth]
      exact hbegun.within
    · rw [hlimit, hdepth]
      exact hbegun.levels levels (h.levels?_eq hnot hlevels)
    · rw [hdepth]
      exact hbegun.frame hnot

/-- All tasks of a run are begun within the limit of the run. -/
theorem Reaches.begunWithin {task task' : Task} {m m' : Machine}
    (h : Reaches p rounds task m task' m') (hbegun : task.BegunWithin p m) :
    m'.context.maxDepth = m.context.maxDepth ∧ task'.BegunWithin p m' := by
  refine h.invariant (I := fun task' m' =>
    m'.context.maxDepth = m.context.maxDepth ∧ task'.BegunWithin p m') ?_ ⟨rfl, hbegun⟩
  intro t₁ m₁ t₂ m₂ ⟨hlimit, hbegun⟩ hstep
  obtain ⟨hlimit', hbegun'⟩ := hstep.begunWithin hp hbegun
  exact ⟨hlimit'.trans hlimit, hbegun'⟩

/-- What is done on behalf of a task that calls and runs callables of the program keeps to the
limit. -/
theorem Linked.withinLimit {task : Task} (h : task.Linked p) : WithinLimit (task.exec p rounds) :=
  WithinLimit.closed.exec_task (fun name unit hunit => (hp name unit hunit).has (·.withinLimit)) h
    (fun levels _ _ _ hunit args => call_withinLimit hp rounds levels hunit args) .frame

/-- All states of a run keep to the limit of the run. -/
theorem Visits.within {task : Task} {m m' : Machine} (h : Visits p rounds task m m')
    (hbegun : task.BegunWithin p m) :
    m'.context.maxDepth = m.context.maxDepth ∧ m'.context.depth ≤ m.context.maxDepth := by
  cases h with
  | begun hr =>
    obtain ⟨hlimit, hbegun'⟩ := hr.begunWithin hp hbegun
    exact ⟨hlimit, hbegun'.within.trans_eq hlimit⟩
  | @ended task₁ m₁ hr =>
    obtain ⟨hlimit, hbegun'⟩ := hr.begunWithin hp hbegun
    have hexec : WithinLimit (task₁.exec p rounds) := hbegun'.linked.withinLimit hp
    have hkept := hexec m₁ hbegun'.within
    exact ⟨hkept.limit.trans hlimit, hkept.within.trans_eq hlimit⟩

/-! ## Overflows -/

/-- An overflow comes up in a call that is admitted and finds no room. -/
theorem Arises.overflow {task : Task} {m m' : Machine} {n : Nat} (hlinked : task.Linked p)
    (h : task.Arises p rounds m (.fault (.stackOverflow n)) m') :
    ∃ levels unit args g, task = .call levels unit args ∧ prepare unit args = .ok g ∧
      (levels = 0 ∨ m.context.maxDepth ≤ m.context.depth) ∧ n = m.context.depth := by
  generalize hx : Fault.stackOverflow n = f at h
  cases h.onStack (by rw [← hx]; rfl) with
  | tooDeep hg hfull =>
    cases hx
    exact ⟨_, _, _, _, rfl, hg, hfull, rfl⟩
  | frame _ _ hframe =>
    rw [← hx] at hframe
    cases hframe
  | frameGone => cases hx
  | @native _ unit _ _ _ hraises =>
    obtain ⟨name, hunit⟩ := hlinked
    refine absurd ((hp name unit hunit).has fun hignores m' hon => ?_) hraises
    rw [← hx] at hon
    exact hignores.noOverflow m n (congrArg (·.1) hon)

/-- An overflow in a run reports the limit of the run.

**Proof sketch.** It comes up in a call that is admitted and finds no room, either because there is
no room on the control stack or because the call has no levels left. Every call has as many levels
as there is room, so in both cases the control stack is full. -/
theorem Fails.overflow {task task' : Task} {m m₁ m₂ : Machine} {n : Nat}
    (hbegun : task.BegunWithin p m) (hr : Reaches p rounds task m task' m₁)
    (h : task'.Fails p rounds m₁ (.fault (.stackOverflow n)) m₂) : n = m.context.maxDepth := by
  obtain ⟨hlimit, hbegun₁⟩ := hr.begunWithin hp hbegun
  obtain ⟨task₀, m₀, m', hr₀, harises⟩ := h.arises
  obtain ⟨hlimit₀, hbegun₀⟩ := hr₀.begunWithin hp hbegun₁
  obtain ⟨levels, unit, args, g, rfl, -, hfull, rfl⟩ := harises.overflow hp hbegun₀.linked
  have hwithin := hbegun₀.within
  have hlevels := hbegun₀.levels levels rfl
  omega

end Task

/-! ## Two limits side by side -/

/-- Begun with `k` calls active under the limit `d`, the first computation ends as the second does
under the limit `n`, unless it ends for want of room. -/
def AlikeUpTo (k d n : Nat) (x y : Exec α) : Prop :=
  ∀ m : Machine, m.context.depth = k → m.context.maxDepth = d →
    (n = d ∨ ∀ j, (x.on m).1 ≠ .error (.failed (.fault (.stackOverflow j)))) →
      y.on (m.withLimit n) = ((x.on m).1, (x.on m).2.withLimit n)

namespace AlikeUpTo

variable {k d n : Nat}

theorem of_blind {x : Exec α} (hx : Blind x) : AlikeUpTo k d n x x :=
  fun m _ _ _ => hx m n

theorem bind (hkd : k ≤ d) {x y : Exec α} {f g : α → Exec β} (hwithin : WithinLimit x)
    (hxy : AlikeUpTo k d n x y) (hfg : ∀ a, AlikeUpTo k d n (f a) (g a)) :
    AlikeUpTo k d n (x >>= f) (y >>= g) := by
  intro m hk hd hend
  have hkept := hwithin m (by omega)
  have hfirst := hxy m hk hd
  rw [on_bind] at hend ⊢
  rw [on_bind]
  rcases h : x.on m with ⟨s | a, m₁⟩ <;> simp only [h] at hkept hfirst hend ⊢
  · rw [hfirst (hend.imp_right fun hs j hj => hs j (by cases hj; rfl))]
  · rw [hfirst (.inr nofun)]
    exact hfg a m₁ ((hkept.depth nofun).trans hk) (hkept.limit.trans hd) hend

/-- Keeping to the limit and ending alike under two limits is a relation that the steps of bodies
bear to themselves. -/
theorem congruence (hkd : k ≤ d) :
    Congruence fun _ x y => WithinLimit x ∧ AlikeUpTo k d n x y :=
  .of_closed (WithinLimit.closed.and Blind.closed) ⟨.frame, .frame⟩
    (fun hx => ⟨hx.1, of_blind hx.2⟩)
    fun hxy hfg => ⟨hxy.1.bind fun a => (hfg a).1, bind hkd hxy.1 hxy.2 fun a => (hfg a).2⟩

/-- Two bodies that end alike with one more call active make two calls that do. -/
theorem unwinding {run run' : Exec Unit} (hrun : WithinLimit run)
    (h : AlikeUpTo (k + 1) d n run run') {m : Machine} (hk : m.context.depth = k)
    (hd : m.context.maxDepth = d) (hkd : k < d) (g : Frame)
    (hend : n = d ∨ ∀ j, ((unwinding run).on (m.withFrames (g :: m.context.frames))).1 ≠
      .error (.failed (.fault (.stackOverflow j)))) :
    (unwinding run').on ((m.withLimit n).withFrames (g :: m.context.frames)) =
      (((unwinding run).on (m.withFrames (g :: m.context.frames))).1,
        ((unwinding run).on (m.withFrames (g :: m.context.frames))).2.withLimit n) := by
  have hroom : m.context.depth < m.context.maxDepth := by omega
  have hbody := h (m.withFrames (g :: m.context.frames)) (congrArg (· + 1) hk) hd
  rw [Machine.withLimit_withFrames]
  rcases hon : run.on (m.withFrames (g :: m.context.frames)) with ⟨(e | _) | _, m₁⟩ <;>
    rw [hon] at hbody
  · obtain ⟨f, fs, hfs, -⟩ := hrun.exists_frame hroom hon nofun
    rw [on_unwinding_failed hon hfs] at hend ⊢
    rw [on_unwinding_failed (hbody (hend.imp_right fun hs j hj => hs j (by cases hj; rfl))) hfs]
    simp
  · rw [on_unwinding_exhausted hon, on_unwinding_exhausted (hbody (.inr nofun))]
  · obtain ⟨f, fs, hfs, -⟩ := hrun.exists_frame hroom hon nofun
    rw [on_unwinding_ok hon hfs, on_unwinding_ok (hbody (.inr nofun)) hfs]
    simp

end AlikeUpTo

/-- The two bodies of one callable end alike under two limits if the calls they make do. -/
theorem dispatch_alikeUpTo {p : Program} (hp : p.NativesIgnoreLimit) {rounds rounds' : Nat}
    (hloops : ∀ name f, p.find? name = some (.function f) →
      ∀ cond body, Stmt.loop cond body ∈ statementsOf f.body → rounds = rounds')
    {k d n levels levels' : Nat} (hkd : k ≤ d)
    (hcall : ∀ name unit, p.find? name = some unit → ∀ args,
      WithinLimit (call p rounds levels unit args) ∧
        AlikeUpTo k d n (call p rounds levels unit args) (call p rounds' levels' unit args))
    {name : String} {unit : Callable} (hunit : p.find? name = some unit) :
    WithinLimit (dispatch p rounds (call p rounds levels) unit) ∧
      AlikeUpTo k d n (dispatch p rounds (call p rounds levels) unit)
        (dispatch p rounds' (call p rounds' levels') unit) := by
  have hcongr : Congruence fun _ x y => WithinLimit x ∧ AlikeUpTo k d n x y :=
    AlikeUpTo.congruence hkd
  cases unit with
  | native u =>
    refine hcongr.native_run ⟨.frame, .of_blind .frame⟩ ((hp name u hunit).has fun hx => ?_)
    exact ⟨hx.withinLimit, .of_blind hx.blind⟩
  | function f =>
    refine hcongr.run ⟨rfl, rfl⟩ (fun callee unit hresolve args =>
      hcall callee unit (Program.find?_of_resolve hresolve) args) fun cond body hmem => ?_
    obtain rfl := hloops name f hunit cond body hmem
    refine hcongr.loopsAlike ⟨?_, ?_⟩ rounds
    · exact WithinLimit.closed.exhausted
    · exact .of_blind Blind.closed.exhausted

/-- A call that is not admitted, or under the same limit finds no room, ends alike with any
levels. -/
theorem call_alike_of_full {p : Program} (rounds rounds' levels levels' : Nat) {unit : Callable}
    {args : List Value} {m : Machine} {n : Nat}
    (hfull : ∀ g, prepare unit args = .ok g → m.context.maxDepth ≤ m.context.depth)
    (hend : n = m.context.maxDepth ∨ ∀ j, ((call p rounds levels unit args).on m).1 ≠
      .error (.failed (.fault (.stackOverflow j)))) :
    (call p rounds' levels' unit args).on (m.withLimit n) =
      (((call p rounds levels unit args).on m).1,
        ((call p rounds levels unit args).on m).2.withLimit n) := by
  rcases hprepare : prepare unit args with f | g
  · rw [on_call_refused rounds levels hprepare, on_call_refused rounds' levels' hprepare,
      Machine.withLimit_recorded]
  · rw [on_call_full rounds levels hprepare (hfull g hprepare)] at hend ⊢
    obtain rfl : n = m.context.maxDepth := hend.resolve_right fun h => h _ rfl
    rw [Machine.withLimit_self, on_call_full rounds' levels' hprepare (hfull g hprepare),
      ← Machine.recorded_maxDepth m, Machine.withLimit_self]

/-- **Calls end alike under two limits**: a call that is begun with as many levels as there is room
under the limit, and that does not end for want of room, ends alike under every higher limit, with
any levels that are enough for that limit. Under the same limit any levels that are enough are
alike, and if the functions of the program have no loops then so are any rounds.

**Proof sketch.** Induction on the levels. The two calls are admitted alike, and if the first has
room then so has the second. Each runs its body with one call more active and one level less; the
bodies end alike, because their steps do and, by induction, the calls they make. -/
theorem call_alikeUpTo {p : Program} (hp : p.NativesIgnoreLimit) {rounds rounds' : Nat}
    (hloops : ∀ name f, p.find? name = some (.function f) →
      ∀ cond body, Stmt.loop cond body ∈ statementsOf f.body → rounds = rounds')
    {k d n levels levels' : Nat} (hkd : k ≤ d) (hdn : d ≤ n) (hlevels : d ≤ k + levels)
    (hlevels' : n ≤ k + levels') {name : String} {unit : Callable}
    (hunit : p.find? name = some unit) (args : List Value) :
    AlikeUpTo k d n (call p rounds levels unit args) (call p rounds' levels' unit args) := by
  induction levels generalizing k levels' name unit args with
  | zero =>
    rintro m rfl rfl hend
    exact call_alike_of_full rounds rounds' 0 levels' (fun _ _ => hlevels) hend
  | succ levels ih =>
    rintro m rfl rfl hend
    by_cases hfull : m.context.maxDepth ≤ m.context.depth
    · exact call_alike_of_full rounds rounds' _ levels' (fun _ _ => hfull) hend
    rcases hprepare : prepare unit args with f | g
    · refine call_alike_of_full rounds rounds' _ levels' (fun g hg => ?_) hend
      rw [hprepare] at hg
      cases hg
    obtain ⟨levels', rfl⟩ : ∃ l, levels' = l + 1 := Nat.exists_eq_succ_of_ne_zero (by omega)
    have hroom : m.context.depth < m.context.maxDepth := Nat.lt_of_not_le hfull
    have hcall (name : String) (unit : Callable) (hunit : p.find? name = some unit)
        (args : List Value) :
        WithinLimit (call p rounds levels unit args) ∧
          AlikeUpTo (m.context.depth + 1) m.context.maxDepth n (call p rounds levels unit args)
            (call p rounds' levels' unit args) :=
      ⟨call_withinLimit hp rounds levels hunit args,
        ih hroom (by omega) (by omega) hunit args⟩
    obtain ⟨hwithin, hbody⟩ := dispatch_alikeUpTo hp hloops hroom hcall hunit
    have hroom' : (m.withLimit n).context.depth < (m.withLimit n).context.maxDepth :=
      hroom.trans_le hdn
    rw [on_call_room rounds hprepare hroom] at hend ⊢
    rw [on_call_room rounds' hprepare hroom']
    exact AlikeUpTo.unwinding hwithin hbody rfl rfl hroom g hend

/-! ## Calls from outside -/

/-- A call from outside that does not end for want of room ends alike under every higher limit. -/
theorem callUnit_withLimit {p : Program} (hp : p.NativesIgnoreLimit) {name : String}
    {unit : Callable} (hunit : p.find? name = some unit) (args : List Value) {m m' : Machine}
    (hm : m.context.depth ≤ m.context.maxDepth) {out : Except Stop (List Value)}
    (hon : (callUnit p unit args).on m = (out, m'))
    (hout : ∀ j, out ≠ .error (.failed (.fault (.stackOverflow j)))) {n : Nat}
    (hn : m.context.maxDepth ≤ n) :
    (callUnit p unit args).on (m.withLimit n) = (out, m'.withLimit n) := by
  rw [on_callUnit] at hon ⊢
  have hlevels : m.context.maxDepth ≤ m.context.depth + m.context.room := by
    rw [Context.room]
    omega
  have hlevels' : n ≤ m.context.depth + (m.withLimit n).context.room := by
    rw [Context.room, Machine.withLimit_maxDepth, Machine.withLimit_depth]
    omega
  have halike : AlikeUpTo m.context.depth m.context.maxDepth n
      (call p maxRounds m.context.room unit args)
      (call p maxRounds (m.withLimit n).context.room unit args) :=
    call_alikeUpTo hp (fun _ _ _ _ _ _ => rfl) hm hn hlevels hlevels' hunit args
  have hends := halike m rfl rfl
  rw [hon] at hends
  exact hends (.inr hout)

/-- **The depth limit is only a limit**: let the native units of a program ignore the limit, as
those of the standard library do, and let a callable of the program be called from outside with no
more calls active than the limit allows. Then in all states of the run no more calls are active than
that, every overflow in the run reports the limit, and if the run ends otherwise than with an
overflow, it ends under every higher limit in the same way, with the same objects, output and
record.

**Proof sketch.** A call has as many levels as there is room, and this stays so along the run, so an
overflow comes up only where the control stack is full (`Task.Fails.overflow`). Under a higher limit
the call has more levels, and `call_alikeUpTo` compares the two runs (`callUnit_withLimit`). -/
theorem limit_only_limits {p : Program} (hp : p.NativesIgnoreLimit) {name : String}
    {unit : Callable} (hunit : p.find? name = some unit) (args : List Value) {m : Machine}
    (hm : m.context.depth ≤ m.context.maxDepth) :
    (∀ m₁, Task.Visits p maxRounds (.call m.context.room unit args) m m₁ →
      m₁.context.maxDepth = m.context.maxDepth ∧ m₁.context.depth ≤ m.context.maxDepth) ∧
    (∀ task m₁ m₂ n, Task.Reaches p maxRounds (.call m.context.room unit args) m task m₁ →
      task.Fails p maxRounds m₁ (.fault (.stackOverflow n)) m₂ → n = m.context.maxDepth) ∧
    (∀ out m' n, (callUnit p unit args).on m = (out, m') →
      (∀ j, out ≠ .error (.failed (.fault (.stackOverflow j)))) → m.context.maxDepth ≤ n →
        (callUnit p unit args).on (m.withLimit n) = (out, m'.withLimit n)) ∧
    ∀ key native, (key, native) ∈ Library.standard.units → native.IgnoresLimit := by
  have hbegun := Task.BegunWithin.of_call hunit args hm
  exact ⟨fun m₁ h => h.within hp hbegun, fun task m₁ m₂ n hr h => h.overflow hp hbegun hr,
    fun out m' n hon hout hn => callUnit_withLimit hp hunit args hm hon hout hn,
    fun key native => Library.standard_ignoresLimit⟩

/-- A program that counts down by calls of one function. -/
def descentSource : Source where
  functions := [{
    name := "descend"
    params := [⟨"n", .int⟩]
    returns := [.int]
    body := [
      .branch (.binary .eq (.var ⟨"n", none⟩) (.int 0)) [.result [.int 0]] [],
      .result [.call "descend" [.binary .sub (.var ⟨"n", none⟩) (.int 1)] 0]] }]

/-- Three calls deep a program ends alike under every limit from three on. -/
theorem limit_only_limits_descent :
    ∃ (p : Program) (unit : Callable) (m' : Machine),
      Program.load descentSource Library.standard = .ok p ∧ p.NativesIgnoreLimit ∧
      p.find? "descend" = some unit ∧
      (callUnit p unit [.int 2]).on { context := { maxDepth := 3 } } = (.ok [.int 0], m') ∧
      ∀ n, 3 ≤ n → (callUnit p unit [.int 2]).on { context := { maxDepth := n } } =
        (.ok [.int 0], m'.withLimit n) := by
  let start : Machine := { context := { maxDepth := 3 } }
  have hloads : Program.loadsTo descentSource Library.standard (fun p =>
      (p.find? "descend").any fun unit =>
        Exec.intOf? ((callUnit p unit [.int 2]).on start).1 == some 0) = true := by
    rw [Program.loadsTo_standard]
    decide +kernel
  obtain ⟨p, hload, htest⟩ := Program.exists_of_loadsTo hloads
  obtain ⟨unit, hunit, htest⟩ := (Option.any_eq_true _ _).mp htest
  have hp : p.NativesIgnoreLimit := (Program.load_linked hload).nativesIgnoreLimit
    fun key unit => Library.standard_ignoresLimit
  have hon := Exec.on_of_intOf? _ (beq_iff_eq.mp htest)
  exact ⟨p, unit, _, hload, hp, hunit, hon, fun n hn =>
    (limit_only_limits (m := start) hp hunit [.int 2] (Nat.zero_le 3)).2.2.1 _ _ n hon nofun hn⟩

end FrameScript
