import FrameScript.Proofs.Confined
import FrameScript.Proofs.Run

set_option autoImplicit false

/-!
# What a call leaves of the control stack

A call puts a frame on the control stack and takes it away again, however it ends, and the body
works on that frame only. So whoever calls finds the control stack as it was. A body that evaluates
a call changes its own frame on the way, but only where it stages the arguments.

## Main definitions

* `WorksOnTop` — a computation that leaves all frames but the innermost as they are.
* `NativeUnit.KeepsCallers` — native units whose handlers do.
* `Frame.AgreesOff` — frames that differ in some temporary slots only.

## Main results

* `call_keepsStack` — a call that ends leaves the control stack as it was.
* `AgreesOff.closedFor` — an expression changes its frame only where it stages arguments.
* `calls_isolated` — both together, for whole programs.
-/

namespace FrameScript

open Exec

variable {α β : Type}

/-! ## Working on the innermost frame -/

/-- A computation that, unless a loop uses up its rounds, leaves the control stack as it is. -/
def KeepsStack (x : Exec α) : Prop :=
  ∀ (m m' : Machine) (out : Except Stop α), x.on m = (out, m') → out ≠ .error .exhausted →
    m'.context.frames = m.context.frames

/-- A computation that, begun on a frame and unless a loop uses up its rounds, leaves the frames
below as they are, and of its own frame one that the relation allows. -/
def WorksOnTop (r : Frame → Frame → Prop) (x : Exec α) : Prop :=
  ∀ (m m' : Machine) (out : Except Stop α) (f : Frame) (fs : List Frame),
    m.context.frames = f :: fs → x.on m = (out, m') → out ≠ .error .exhausted →
      ∃ g, m'.context.frames = g :: fs ∧ r f g

/-- A computation confined to the innermost frame works on that frame. -/
theorem Confined.worksOnTop {x : Exec α} (hx : Confined 1 x) :
    WorksOnTop (fun _ _ => True) x := by
  intro m m' out f fs hfs hon hout
  obtain ⟨out', m₁, top, hends, h⟩ := hx m [f] (fs.map (·.unit)) rfl
  have hon' : x.on m = (out', m₁.withFrames (top ++ fs)) := by
    rw [← h fs rfl, List.singleton_append, ← hfs, Machine.withFrames_self]
  obtain ⟨rfl, rfl⟩ := Prod.mk.inj (hon.symm.trans hon')
  obtain ⟨g, rfl⟩ := List.length_eq_one_iff.mp (hends.resolve_left hout)
  exact ⟨g, rfl, trivial⟩

namespace WorksOnTop

variable {r : Frame → Frame → Prop}

section Steps

variable (hrefl : ∀ f, r f f)

include hrefl

theorem of_keepsStack {x : Exec α} (hx : KeepsStack x) : WorksOnTop r x :=
  fun m m' out f _ hfs hon hout => ⟨f, (hx m m' out hon hout).trans hfs, hrefl f⟩

/-- A computation that never changes the control stack works on the innermost frame. -/
theorem of_anywhere {x : Exec α}
    (hx : ∀ m : Machine, (x.on m).2.context.frames = m.context.frames) : WorksOnTop r x :=
  of_keepsStack hrefl fun m m' out hon _ => by simpa only [hon] using hx m

theorem modifyFrame {change : Frame → Except Fault Frame}
    (hchange : ∀ f g, change f = .ok g → r f g) : WorksOnTop r (modifyFrame change) := by
  intro m m' out f fs hfs hon _
  simp only [on_modifyFrame, hfs] at hon
  rcases hf : change f with e | g <;> simp only [hf] at hon <;> cases hon
  · exact ⟨f, hfs, hrefl f⟩
  · exact ⟨g, rfl, hchange f g hf⟩

theorem takeTemp {index : Nat}
    (hchange : ∀ f v g, f.takeTemp index = .ok (v, g) → r f g) :
    WorksOnTop r (takeTemp index) := by
  intro m m' out f fs hfs hon _
  simp only [on_takeTemp, hfs] at hon
  rcases hf : f.takeTemp index with e | ⟨v, g⟩ <;> simp only [hf] at hon <;> cases hon
  · exact ⟨f, hfs, hrefl f⟩
  · exact ⟨g, rfl, hchange f v g hf⟩

end Steps

theorem bind (htrans : ∀ f g h, r f g → r g h → r f h) {x : Exec α} {k : α → Exec β}
    (hx : WorksOnTop r x) (hk : ∀ a, WorksOnTop r (k a)) : WorksOnTop r (x >>= k) := by
  intro m m' out f fs hfs hon hout
  cases out with
  | error s =>
    rcases (bind_error m).mp hon with hon | ⟨a, m₁, hfirst, hon⟩
    · exact hx m m' (.error s) f fs hfs hon (by rintro ⟨⟩; exact hout rfl)
    · obtain ⟨g, hgs, hg⟩ := hx m m₁ (.ok a) f fs hfs hfirst (by simp)
      obtain ⟨g', hgs', hg'⟩ := hk a m₁ m' (.error s) g fs hgs hon hout
      exact ⟨g', hgs', htrans f g g' hg hg'⟩
  | ok b =>
    obtain ⟨a, m₁, hfirst, hon⟩ := (bind_ok m).mp hon
    obtain ⟨g, hgs, hg⟩ := hx m m₁ (.ok a) f fs hfs hfirst (by simp)
    obtain ⟨g', hgs', hg'⟩ := hk a m₁ m' (.ok b) g fs hgs hon hout
    exact ⟨g', hgs', htrans f g g' hg hg'⟩

/-- Working on the innermost frame is a property that the steps of expressions have, if the relation
allows what they do to the frame. -/
theorem closedFor (hrefl : ∀ f, r f f) (htrans : ∀ f g h, r f g → r g h → r f h)
    {staged : Nat → Prop}
    (hset : ∀ i, staged i → ∀ v f g, f.setTemp i v = .ok g → r f g)
    (htake : ∀ i, staged i → ∀ v f g, f.takeTemp i = .ok (v, g) → r f g) :
    ClosedFor staged fun _ x => WorksOnTop r x where
  pure _ := of_anywhere hrefl fun _ => rfl
  bind := bind htrans
  fault _ := of_anywhere hrefl fun _ => rfl
  heap := of_anywhere hrefl fun _ => rfl
  frame h := bind htrans (of_anywhere hrefl fun m => by rw [on_frame]; split <;> rfl) fun _ => h
  getSlot index := bind htrans (of_anywhere hrefl fun m => by rw [on_frame]; split <;> rfl)
    fun f => of_anywhere hrefl fun m => by rcases f.get index <;> rfl
  setTemp h v := modifyFrame hrefl fun f g hg => hset _ h v f g hg
  takeTemp h := takeTemp hrefl fun f v g hg => htake _ h v f g hg
  newArray _ _ := of_anywhere hrefl fun _ => rfl
  newMap _ := of_anywhere hrefl fun _ => rfl
  newStruct _ _ := of_anywhere hrefl fun _ => rfl
  newConnector _ _ := of_anywhere hrefl fun _ => rfl
  newMessage _ := of_anywhere hrefl fun _ => rfl

/-- Leaving the callers alone is a property that the steps of bodies have. -/
theorem closed : Closed fun _ x => WorksOnTop (fun _ _ => True) x where
  toClosedFor := closedFor (fun _ => trivial) (fun _ _ _ _ _ => trivial)
    (fun _ _ _ _ _ _ => trivial) (fun _ _ _ _ _ _ => trivial)
  exhausted := fun _ _ _ _ _ _ hon hout => by cases hon; exact absurd rfl hout
  setSlot _ _ := modifyFrame (fun _ => trivial) fun _ _ _ => trivial
  setReturn _ _ := modifyFrame (fun _ => trivial) fun _ _ _ => trivial
  withElement _ _ _ _ := of_anywhere (fun _ => trivial) fun _ => rfl
  setEntry _ _ _ := of_anywhere (fun _ => trivial) fun _ => rfl
  withField _ _ _ := of_anywhere (fun _ => trivial) fun _ => rfl

end WorksOnTop

/-! ## Native units -/

/-- A native unit whose handler leaves the frames of the callers as they are. -/
def NativeUnit.KeepsCallers (unit : NativeUnit) : Prop :=
  unit.handler.Has fun _ run => WorksOnTop (fun _ _ => True) run

/-- A callable that leaves the frames of the callers as they are, if it is a native unit. -/
def Callable.KeepsCallers : Callable → Prop
  | .function _ => True
  | .native unit => unit.KeepsCallers

/-- All native units of a program leave the frames of the callers as they are. -/
def Program.NativesKeepCallers (p : Program) : Prop :=
  ∀ name unit, p.find? name = some unit → unit.KeepsCallers

/-- Native units that work on the frames of their own calls keep those of the callers. -/
theorem NativeUnit.Confined.keepsCallers {unit : NativeUnit} (h : unit.Confined) :
    unit.KeepsCallers := by
  unfold NativeUnit.Confined at h
  unfold NativeUnit.KeepsCallers
  cases hunit : unit.handler with
  | function run => rw [hunit] at h; exact FrameScript.Confined.worksOnTop h
  | typeMapper run => rw [hunit] at h; exact FrameScript.Confined.worksOnTop h

/-- The native units of a program keep the frames of the callers if they work on their own. -/
theorem Program.NativesConfined.keepCallers {p : Program} (hp : p.NativesConfined) :
    p.NativesKeepCallers := by
  intro name unit hunit
  cases unit with
  | function f => trivial
  | native u => exact (hp name u hunit).keepsCallers

/-- A native unit leaves of the control stack what its handler does. -/
theorem NativeUnit.KeepsCallers.run {unit : NativeUnit} (hunit : unit.KeepsCallers) :
    WorksOnTop (fun _ _ => True) unit.run :=
  WorksOnTop.closed.native_run
    (.of_anywhere (fun _ => trivial) fun m => by rw [on_frame]; split <;> rfl) hunit

/-! ## Calls -/

namespace KeepsStack

theorem of_anywhere {x : Exec α}
    (hx : ∀ m : Machine, (x.on m).2.context.frames = m.context.frames) : KeepsStack x :=
  fun m m' out hon _ => by simpa only [hon] using hx m

theorem ofExcept (r : Except Fault α) : KeepsStack (ofExcept r) :=
  of_anywhere fun m => by cases r <;> rfl

theorem bind {x : Exec α} {k : α → Exec β} (hx : KeepsStack x) (hk : ∀ a, KeepsStack (k a)) :
    KeepsStack (x >>= k) := by
  intro m m' out hon hout
  rw [on_bind] at hon
  rcases hfirst : x.on m with ⟨s | a, m₁⟩ <;> rw [hfirst] at hon
  · cases hon
    exact hx m _ _ hfirst (by rintro ⟨⟩; exact hout rfl)
  · exact (hk a m₁ m' out hon hout).trans (hx m m₁ _ hfirst (by simp))

theorem recording {x : Exec α} (hx : KeepsStack x) : KeepsStack (recording x) := by
  intro m m' out hon hout
  rw [on_recording] at hon
  rcases hrun : x.on m with ⟨(e | _) | a, m₁⟩ <;> rw [hrun] at hon <;> cases hon
  · rw [Machine.recorded_frames]
    exact hx m _ _ hrun (by simp)
  · exact absurd rfl hout
  · exact hx m _ _ hrun (by simp)

/-- Running a computation on a new frame and taking the frame away leaves the control stack as it
was, whether the computation ends with a value or not. -/
theorem unwinding {run : Exec Unit} (hrun : WorksOnTop (fun _ _ => True) run) (f : Frame) :
    KeepsStack (Exec.recording (push f) >>= fun _ => FrameScript.unwinding run) := by
  intro m m' out hon hout
  rw [on_bind, on_recording, on_push] at hon
  by_cases hfull : m.context.maxDepth ≤ m.context.depth
  · rw [if_pos hfull] at hon
    cases hon
    rw [Machine.recorded_frames]
  rw [if_neg hfull] at hon
  dsimp only at hon
  rw [on_unwinding] at hon
  rcases hbody : run.on (m.withFrames (f :: m.context.frames)) with ⟨(e | _) | _, m₁⟩ <;>
    rw [hbody] at hon
  · obtain ⟨g, hgs, -⟩ := hrun _ m₁ _ f m.context.frames rfl hbody (by simp)
    simp only [hgs] at hon
    cases hon
    rfl
  · cases hon
    exact absurd rfl hout
  · obtain ⟨g, hgs, -⟩ := hrun _ m₁ _ f m.context.frames rfl hbody (by simp)
    simp only [hgs] at hon
    cases hon
    rfl

end KeepsStack

/-- **Calls keep the control stack**: whether a call ends with results or with a failure, the
control stack is afterwards what it was before.

**Proof sketch.** Induction on the levels left. The frame of the call is put on the control stack
and taken away in the call itself, and in between the body works on that frame, because all its
steps do and, by induction, the calls it makes leave it as it is. -/
theorem call_keepsStack {p : Program} (hp : p.NativesKeepCallers) (rounds levels : Nat)
    {unit : Callable} (hunit : unit.KeepsCallers) (args : List Value) :
    KeepsStack (call p rounds levels unit args) := by
  induction levels generalizing unit args with
  | zero =>
    refine .bind (.recording (.ofExcept _)) fun _ => ?_
    exact .bind (.of_anywhere fun _ => rfl) fun _ => .recording (.of_anywhere fun _ => rfl)
  | succ levels ih =>
    refine .bind (.recording (.ofExcept _)) fun f => KeepsStack.unwinding ?_ f
    cases unit with
    | native u => exact NativeUnit.KeepsCallers.run hunit
    | function f =>
      refine WorksOnTop.closed.run fun name unit hunit args => ?_
      have hcallee : unit.KeepsCallers := hp name unit (Program.find?_of_resolve hunit)
      exact .of_keepsStack (fun _ => trivial) (ih hcallee args)

/-! ## Staged arguments -/

/-- The second frame is the first except in the temporary slots of `staged`. -/
structure Frame.AgreesOff (staged : Nat → Prop) (f g : Frame) : Prop where
  unit : g.unit = f.unit
  argCount : g.argCount = f.argCount
  slots : g.slots = f.slots
  returns : g.returns = f.returns
  tempCount : g.temps.length = f.temps.length
  temps {i : Nat} (hi : ¬ staged i) : g.temps[i]? = f.temps[i]?

namespace Frame.AgreesOff

variable {staged : Nat → Prop}

theorem refl (f : Frame) : f.AgreesOff staged f :=
  ⟨rfl, rfl, rfl, rfl, rfl, fun _ => rfl⟩

theorem trans (f g h : Frame) (hfg : f.AgreesOff staged g) (hgh : g.AgreesOff staged h) :
    f.AgreesOff staged h where
  unit := hgh.unit.trans hfg.unit
  argCount := hgh.argCount.trans hfg.argCount
  slots := hgh.slots.trans hfg.slots
  returns := hgh.returns.trans hfg.returns
  tempCount := hgh.tempCount.trans hfg.tempCount
  temps hi := (hgh.temps hi).trans (hfg.temps hi)

/-- Frames that differ in one staged value. -/
theorem of_set {i : Nat} (hi : staged i) (f : Frame) (v? : Option Value) :
    f.AgreesOff staged { f with temps := f.temps.set i v? } where
  unit := rfl
  argCount := rfl
  slots := rfl
  returns := rfl
  tempCount := List.length_set
  temps hj := List.getElem?_set_ne (by rintro rfl; exact hj hi)

theorem of_setTemp {i : Nat} (hi : staged i) (v : Value) (f g : Frame)
    (h : f.setTemp i v = .ok g) : f.AgreesOff staged g := by
  unfold Frame.setTemp at h
  split at h <;> cases h
  exact of_set hi f _

theorem of_takeTemp {i : Nat} (hi : staged i) (v : Value) (f g : Frame)
    (h : f.takeTemp i = .ok (v, g)) : f.AgreesOff staged g := by
  unfold Frame.takeTemp at h
  split at h <;> cases h
  exact of_set hi f _

/-- Changing the innermost frame in the slots of `staged` only is a property that the steps of
expressions have that stage their arguments there. -/
theorem closedFor : ClosedFor staged fun _ x => WorksOnTop (Frame.AgreesOff staged) x :=
  WorksOnTop.closedFor refl trans (fun _ => of_setTemp) (fun _ => of_takeTemp)

end Frame.AgreesOff

/-! ## The standard library -/

/-- Every unit of the standard library leaves the frames of the callers as they are. -/
theorem Library.standard_keepsCallers {key : String} {unit : NativeUnit}
    (h : (key, unit) ∈ standard.units) : unit.KeepsCallers :=
  (standard_confined h).keepsCallers

/-! ## Isolation -/

/-- **Calls are isolated**: a call that ends, with results or with a failure, leaves the control
stack as it was; and a body that evaluates an expression, for its value or for all its results,
finds its own frame as it was except where the calls in the expression stage their arguments. All
this if the native units leave the frames of their callers as they are, as those of the standard
library do.

**Proof sketch.** The first part is `call_keepsStack`. The steps of an expression other than calls
touch the frame in staged values only, and the calls, by the first part, not at all. -/
theorem calls_isolated {p : Program} (hp : p.NativesKeepCallers) (rounds : Nat) :
    (∀ (levels : Nat) (unit : Callable) (args : List Value), unit.KeepsCallers →
      KeepsStack (call p rounds levels unit args)) ∧
    (∀ (s : Site) (e : Expr),
      WorksOnTop (Frame.AgreesOff (· ∈ e.staged)) (e.eval (s.code p rounds)) ∧
      WorksOnTop (Frame.AgreesOff (· ∈ e.staged)) (e.results (s.code p rounds))) ∧
    ∀ key unit, (key, unit) ∈ Library.standard.units → unit.KeepsCallers := by
  refine ⟨fun levels unit args hunit => call_keepsStack hp rounds levels hunit args,
    fun s e => ?_, fun key unit => Library.standard_keepsCallers⟩
  have hcall (name : String) (unit : Callable) (hunit : p.resolve name = .ok unit)
      (args : List Value) :
      WorksOnTop (Frame.AgreesOff (· ∈ e.staged)) ((s.code p rounds).call unit args) :=
    .of_keepsStack Frame.AgreesOff.refl
      (call_keepsStack hp rounds s.levels (hp name unit (Program.find?_of_resolve hunit)) args)
  exact ⟨Frame.AgreesOff.closedFor.eval hcall e fun _ hi => hi,
    Frame.AgreesOff.closedFor.results hcall e fun _ hi => hi⟩

/-- A program with a call inside a call, of which the inner one divides by its argument. -/
def ratioSource : Source where
  functions := [{
    name := "ratio"
    params := [⟨"n", .int⟩]
    returns := [.int]
    body := [.result [.binary .div (.int 10) (.var ⟨"n", none⟩)]] }, {
    name := "twice"
    params := [⟨"n", .int⟩]
    returns := [.int]
    body := [.result [.call "ratio" [.call "ratio" [.var ⟨"n", none⟩] 0] 0]] }]

/-- The frame of a caller that has staged a value. -/
def stagingFrame : Frame where
  unit := "host"
  argCount := 1
  slots := [.int 0]
  temps := [some (.int 7)]
  returns := [.int 1]

/-- A failure two calls deep leaves the frame of the caller as it was. -/
theorem calls_isolated_ratio :
    ∃ (p : Program) (unit : Callable) (m' : Machine),
      Program.load ratioSource Library.standard = .ok p ∧ p.NativesKeepCallers ∧
      p.find? "twice" = some unit ∧ unit.KeepsCallers ∧
      (call p 10 5 unit [.int 0]).on { context := { maxDepth := 5, frames := [stagingFrame] } } =
        (.error (.failed (.fault (.arithmetic .divisionByZero))), m') ∧
      m'.context.frames = [stagingFrame] := by
  let start : Machine := { context := { maxDepth := 5, frames := [stagingFrame] } }
  have hloads : Program.loadsTo ratioSource Library.standard (fun p =>
      (p.find? "twice").any fun unit => Exec.faultOf? ((call p 10 5 unit [.int 0]).on start).1 ==
        some (.arithmetic .divisionByZero)) = true := by
    decide +kernel
  obtain ⟨p, hload, htest⟩ := Program.exists_of_loadsTo hloads
  have hp : p.NativesKeepCallers := ((Program.load_linked hload).nativesConfined
    fun key unit => Library.standard_confined).keepCallers
  obtain ⟨unit, hunit, htest⟩ := (Option.any_eq_true _ _).mp htest
  have hkeeps : unit.KeepsCallers := hp _ unit hunit
  have hon := Exec.on_of_faultOf? _ (beq_iff_eq.mp htest)
  exact ⟨p, unit, _, hload, hp, hunit, hkeeps, hon,
    (calls_isolated hp 10).1 5 unit [.int 0] hkeeps start _ _ hon (by simp)⟩

end FrameScript
