import FrameScript.Proofs.Origins
import FrameScript.Proofs.Steps

set_option autoImplicit false

/-!
# The record of a failure

A failure is recorded by the innermost call in which it comes up, while the frame of that call is
still there; the calls around it find a record and add nothing. So the record tells of the very
failure that the run ends with, and of the calls that were active when it came up.

## Main definitions

* `SparesRecord` — a computation that records no failure if it ends with a value.
* `KeepsTrace` — a computation that leaves the active calls as they are.
* `NativeUnit.LeavesRecord`, `NativeUnit.KeepsTrace` — what is asked of native units.

## Main results

* `call_sparesRecord` — a call that ends with results records nothing.
* `call_keepsTrace` — a call leaves the active calls as they are.
* `Task.Fails.recorded` — the record of a failed run is that of the point of the failure.
-/

namespace FrameScript

open Exec

variable {α β : Type}

/-! ## Computations that leave the record alone -/

/-- A computation that records no failure if it ends with a value. -/
def SparesRecord (x : Exec α) : Prop :=
  ∀ (m m' : Machine) (a : α), x.on m = (.ok a, m') → m'.context.failure? = m.context.failure?

namespace SparesRecord

/-- A computation that never touches the record. -/
theorem of_anywhere {x : Exec α}
    (hx : ∀ m : Machine, (x.on m).2.context.failure? = m.context.failure?) : SparesRecord x :=
  fun m m' a h => by simpa only [h] using hx m

theorem bind {x : Exec α} {k : α → Exec β} (hx : SparesRecord x) (hk : ∀ a, SparesRecord (k a)) :
    SparesRecord (x >>= k) := by
  intro m m' b h
  obtain ⟨a, m₁, hfirst, h⟩ := (bind_ok m).mp h
  exact (hk a m₁ m' b h).trans (hx m m₁ a hfirst)

/-- Leaving the record alone is a property that the steps of bodies have. -/
theorem closed : Closed fun _ x => SparesRecord x where
  pure _ := of_anywhere fun _ => rfl
  bind := bind
  fault _ := of_anywhere fun _ => rfl
  exhausted := of_anywhere fun _ => rfl
  heap := of_anywhere fun _ => rfl
  frame h := bind (of_anywhere OnFrame.frame.failure?) fun _ => h
  getSlot index := of_anywhere (OnFrame.getSlot index).failure?
  setSlot index v := of_anywhere (OnFrame.setSlot index v).failure?
  setTemp _ v := of_anywhere (OnFrame.setTemp _ v).failure?
  takeTemp _ := of_anywhere (OnFrame.takeTemp _).failure?
  setReturn index v := of_anywhere (OnFrame.setReturn index v).failure?
  newArray _ _ := of_anywhere fun _ => rfl
  newMap _ := of_anywhere fun _ => rfl
  newStruct _ _ := of_anywhere fun _ => rfl
  newConnector _ _ := of_anywhere fun _ => rfl
  newMessage _ := of_anywhere fun _ => rfl
  withElement _ _ _ _ := of_anywhere fun _ => rfl
  setEntry _ _ _ := of_anywhere fun _ => rfl
  withField _ _ _ := of_anywhere fun _ => rfl

end SparesRecord

/-! ## Computations that leave the active calls alone -/

/-- A computation that, unless a loop uses up its rounds, leaves the active calls as they are. -/
def KeepsTrace (x : Exec α) : Prop :=
  ∀ (m m' : Machine) (out : Except Stop α), x.on m = (out, m') → out ≠ .error .exhausted →
    m'.context.trace = m.context.trace

namespace KeepsTrace

theorem of_anywhere {x : Exec α}
    (hx : ∀ m : Machine, (x.on m).2.context.trace = m.context.trace) : KeepsTrace x :=
  fun m m' out h _ => by simpa only [h] using hx m

theorem bind {x : Exec α} {k : α → Exec β} (hx : KeepsTrace x) (hk : ∀ a, KeepsTrace (k a)) :
    KeepsTrace (x >>= k) := by
  intro m m' out h hout
  rw [on_bind] at h
  rcases hfirst : x.on m with ⟨s | a, m₁⟩ <;> rw [hfirst] at h
  · cases h
    exact hx m _ _ hfirst (by rintro ⟨⟩; exact hout rfl)
  · exact (hk a m₁ m' out h hout).trans (hx m m₁ _ hfirst (by simp))

/-- Leaving the active calls alone is a property that the steps of bodies have. -/
theorem closed : Closed fun _ x => KeepsTrace x where
  pure _ := of_anywhere fun _ => rfl
  bind := bind
  fault _ := of_anywhere fun _ => rfl
  exhausted := of_anywhere fun _ => rfl
  heap := of_anywhere fun _ => rfl
  frame h := bind (of_anywhere OnFrame.frame.trace) fun _ => h
  getSlot index := of_anywhere (OnFrame.getSlot index).trace
  setSlot index v := of_anywhere (OnFrame.setSlot index v).trace
  setTemp _ v := of_anywhere (OnFrame.setTemp _ v).trace
  takeTemp _ := of_anywhere (OnFrame.takeTemp _).trace
  setReturn index v := of_anywhere (OnFrame.setReturn index v).trace
  newArray _ _ := of_anywhere fun _ => rfl
  newMap _ := of_anywhere fun _ => rfl
  newStruct _ _ := of_anywhere fun _ => rfl
  newConnector _ _ := of_anywhere fun _ => rfl
  newMessage _ := of_anywhere fun _ => rfl
  withElement _ _ _ _ := of_anywhere fun _ => rfl
  setEntry _ _ _ := of_anywhere fun _ => rfl
  withField _ _ _ := of_anywhere fun _ => rfl

end KeepsTrace

/-! ## Native units -/

/-- A native unit whose handler does not touch the record, however it ends. -/
def NativeUnit.LeavesRecord (unit : NativeUnit) : Prop :=
  unit.handler.Has fun _ run => ∀ m : Machine,
    (run.on m).2.context.failure? = m.context.failure?

/-- A native unit whose handler leaves the active calls as they are. -/
def NativeUnit.KeepsTrace (unit : NativeUnit) : Prop :=
  unit.handler.Has fun _ run => FrameScript.KeepsTrace run

/-- No native unit of the program touches the record. -/
def Program.NativesLeaveRecord (p : Program) : Prop :=
  ∀ name unit, p.find? name = some (.native unit) → unit.LeavesRecord

/-- All native units of the program leave the active calls as they are. -/
def Program.NativesKeepTrace (p : Program) : Prop :=
  ∀ name unit, p.find? name = some (.native unit) → unit.KeepsTrace

theorem NativeUnit.LeavesRecord.sparesRecord {unit : NativeUnit} (h : unit.LeavesRecord) :
    unit.handler.Has fun _ run => SparesRecord run := by
  unfold NativeUnit.LeavesRecord at h
  cases hrun : unit.handler <;> rw [hrun] at h <;> exact .of_anywhere h

/-! ### The standard library -/

/-- Never touching the record is a property of the steps of the standard library. -/
theorem Library.closed_leavesRecord :
    Library.Closed fun _ x => ∀ m : Machine, (x.on m).2.context.failure? = m.context.failure? where
  pure _ _ := rfl
  bind {_ _ x k} hx hk m := by
    rw [on_bind]
    rcases h : x.on m with ⟨s | a, m₁⟩
    · simpa only [h] using hx m
    · exact (hk a m₁).trans (by simpa only [h] using hx m)
  hostError _ _ := rfl
  defect _ _ := rfl
  argument index m := by
    rw [argument, on_bind, on_frame]
    rcases m.context.frames with _ | ⟨f, fs⟩
    · rfl
    · rcases hf : f.argument index <;> simp [hf]
  heap _ := rfl
  newArray _ _ _ := rfl
  eraseEntry _ _ _ := rfl
  print _ _ := rfl
  property? _ _ := rfl

/-- Leaving the active calls alone is a property of the steps of the standard library. -/
theorem Library.closed_keepsTrace : Library.Closed fun _ x => KeepsTrace x where
  pure := KeepsTrace.closed.pure
  bind := KeepsTrace.bind
  hostError _ := .of_anywhere fun _ => rfl
  defect _ := .of_anywhere fun _ => rfl
  argument _ := .bind (.of_anywhere OnFrame.frame.trace) fun _ => KeepsTrace.closed.ofExcept _
  heap := .of_anywhere fun _ => rfl
  newArray _ _ := .of_anywhere fun _ => rfl
  eraseEntry _ _ := .of_anywhere fun _ => rfl
  print _ := .of_anywhere fun _ => rfl
  property? _ := .of_anywhere fun _ => rfl

/-- The native units of a program that loads with the standard library neither touch the record nor
change the active calls. -/
theorem Program.Linked.standard_discreet {p : Program} (hp : p.Linked Library.standard) :
    p.NativesLeaveRecord ∧ p.NativesKeepTrace := by
  refine ⟨fun name unit hfound => ?_, fun name unit hfound => ?_⟩
  · obtain ⟨package, hpackage, hunit⟩ := hp.mem_packages hfound
    exact Library.closed_leavesRecord.handler hpackage hunit
  · obtain ⟨package, hpackage, hunit⟩ := hp.mem_packages hfound
    exact Library.closed_keepsTrace.handler hpackage hunit

/-! ## Calls -/

/-- A prepared frame bears the name of the callable. -/
theorem prepare_unit {unit : Callable} {args : List Value} {g : Frame}
    (h : prepare unit args = .ok g) : g.unit = unit.sig.qualifiedName := by
  unfold prepare at h
  obtain ⟨_, -, h⟩ := bind_eq_ok.mp h
  obtain ⟨_, -, h⟩ := bind_eq_ok.mp h
  dsimp only [Frame.make?] at h
  split at h <;> cases h
  rfl

section Calls

variable {p : Program}

/-- A call that ends with results records no failure.

**Proof sketch.** Induction on the levels left. A call that ends with results admits its arguments,
and its body ends with a value, so by induction nothing is recorded in it. -/
theorem call_sparesRecord (hp : p.NativesLeaveRecord) (rounds levels : Nat) {name : String}
    {unit : Callable} (hunit : p.find? name = some unit) (args : List Value) :
    SparesRecord (call p rounds levels unit args) := by
  induction levels generalizing name unit args with
  | zero =>
    intro m m' vs h
    rw [on_call_zero] at h
    split at h <;> cases h
  | succ levels ih =>
    intro m m' vs h
    have hrun : SparesRecord (dispatch p rounds (call p rounds levels) unit) := by
      cases unit with
      | native u =>
        exact SparesRecord.closed.native_run (.of_anywhere OnFrame.frame.failure?)
          (hp name u hunit).sparesRecord
      | function f =>
        exact SparesRecord.closed.run fun name unit hunit args =>
          ih (Program.find?_of_resolve hunit) args
    rw [on_call_succ] at h
    split at h
    · cases h
    next g _ =>
      split at h
      · cases h
      rw [on_unwinding] at h
      split at h
      next m₁ hbody =>
        split at h <;> cases h
        exact (hrun (m.withFrames (g :: m.context.frames)) m₁ () hbody :)
      · split at h <;> cases h
      · cases h

/-- What has run on a new frame and left the active calls as they are has a frame to take away. -/
theorem exists_frame_of_trace {m m' : Machine} {g : Frame}
    (h : m'.context.trace = (m.withFrames (g :: m.context.frames)).context.trace) :
    ∃ f fs, m'.context.frames = f :: fs ∧ f.unit = g.unit ∧
      (m'.withFrames fs).context.trace = m.context.trace := by
  have hnames : m'.context.frames.map (·.unit) = g.unit :: m.context.frames.map (·.unit) :=
    List.reverse_inj.mp h
  rcases hfs : m'.context.frames with _ | ⟨f, fs⟩
  · rw [hfs] at hnames
    cases hnames
  · rw [hfs] at hnames
    obtain ⟨hf, hrest⟩ := List.cons.inj hnames
    exact ⟨f, fs, rfl, hf, congrArg List.reverse hrest⟩

/-- A callable leaves the active calls as they are if its calls do. -/
theorem dispatch_keepsTrace_of_calls (hp : p.NativesKeepTrace) (rounds levels : Nat)
    (hcall : ∀ name unit, p.find? name = some unit → ∀ args,
      KeepsTrace (call p rounds levels unit args)) {name : String} {unit : Callable}
    (hunit : p.find? name = some unit) :
    KeepsTrace (dispatch p rounds (call p rounds levels) unit) := by
  cases unit with
  | native u =>
    exact KeepsTrace.closed.native_run (.of_anywhere OnFrame.frame.trace) (hp name u hunit)
  | function f =>
    exact KeepsTrace.closed.run fun name unit hunit args =>
      hcall name unit (Program.find?_of_resolve hunit) args

/-- A call leaves the active calls as they are.

**Proof sketch.** Induction on the levels left. The callable runs on one more frame, and by
induction that frame is the innermost again when it has run; the frame is taken away with the
call. -/
theorem call_keepsTrace (hp : p.NativesKeepTrace) (rounds levels : Nat) {name : String}
    {unit : Callable} (hunit : p.find? name = some unit) (args : List Value) :
    KeepsTrace (call p rounds levels unit args) := by
  induction levels generalizing name unit args with
  | zero =>
    intro m m' out h _
    rw [on_call_zero] at h
    split at h <;> cases h <;> rw [Machine.recorded_trace]
  | succ levels ih =>
    intro m m' out h hout
    have hrun := dispatch_keepsTrace_of_calls hp rounds levels (fun _ _ => ih) hunit
    rw [on_call_succ] at h
    split at h
    · cases h
      rw [Machine.recorded_trace]
    next g _ =>
      split at h
      · cases h
        rw [Machine.recorded_trace]
      rw [on_unwinding] at h
      split at h
      next m₁ hbody =>
        obtain ⟨f, fs, hfs, -, hrest⟩ := exists_frame_of_trace (hrun _ m₁ _ hbody nofun)
        simp only [hfs] at h
        cases h
        exact hrest
      next e m₁ hbody =>
        obtain ⟨f, fs, hfs, -, hrest⟩ := exists_frame_of_trace (hrun _ m₁ _ hbody nofun)
        simp only [hfs] at h
        cases h
        exact hrest
      · cases h
        exact absurd rfl hout

theorem dispatch_keepsTrace (hp : p.NativesKeepTrace) (rounds levels : Nat) {name : String}
    {unit : Callable} (hunit : p.find? name = some unit) :
    KeepsTrace (dispatch p rounds (call p rounds levels) unit) :=
  dispatch_keepsTrace_of_calls hp rounds levels
    (fun _ _ hunit args => call_keepsTrace hp rounds levels hunit args) hunit

end Calls

/-! ## Tasks between two states -/

/-- Nothing is recorded between two states, and in both the same calls are active. -/
structure Machine.Alike (m m' : Machine) : Prop where
  failure? : m'.context.failure? = m.context.failure?
  trace : m'.context.trace = m.context.trace

namespace Machine.Alike

theorem refl (m : Machine) : m.Alike m :=
  ⟨rfl, rfl⟩

theorem trans {m₁ m₂ m₃ : Machine} (h : m₁.Alike m₂) (h' : m₂.Alike m₃) : m₁.Alike m₃ :=
  ⟨h'.failure?.trans h.failure?, h'.trace.trans h.trace⟩

end Machine.Alike

/-- A computation that leaves the record alone if it ends with a value, and the active calls in any
case. -/
structure Discreet (x : Exec α) : Prop where
  spares : SparesRecord x
  keeps : KeepsTrace x

theorem Discreet.alike {x : Exec α} (hx : Discreet x) {m m' : Machine} {a : α}
    (h : x.on m = (.ok a, m')) : m.Alike m' :=
  ⟨hx.spares m m' a h, hx.keeps m m' _ h nofun⟩

theorem OnFrame.alike {x : Exec α} (hx : OnFrame x) {m m' : Machine} {out : Except Stop α}
    (h : x.on m = (out, m')) : m.Alike m' :=
  ⟨by simpa only [h] using hx.failure? m, by simpa only [h] using hx.trace m⟩

/-- The native units of a program neither touch the record nor change the active calls. -/
structure Program.NativesDiscreet (p : Program) : Prop where
  record : p.NativesLeaveRecord
  trace : p.NativesKeepTrace

namespace Program.NativesDiscreet

variable {p : Program} (hp : p.NativesDiscreet) {rounds : Nat} (s : Site)

include hp

/-- What holds of discreet computations by the rules of bodies holds of those of a body. -/
theorem of_closed {x : Exec α} (hx : ∀ P : (β : Type) → Exec β → Prop, Closed P →
    (∀ name unit, p.resolve name = .ok unit → ∀ args, P _ ((s.code p rounds).call unit args)) →
      P α x) : Discreet x where
  spares := hx _ SparesRecord.closed fun _ _ hunit args =>
    call_sparesRecord hp.record rounds s.levels (find?_of_resolve hunit) args
  keeps := hx _ KeepsTrace.closed fun _ _ hunit args =>
    call_keepsTrace hp.trace rounds s.levels (find?_of_resolve hunit) args

theorem eval (e : Expr) : Discreet (e.eval (s.code p rounds)) :=
  hp.of_closed s fun _ h hcall => h.eval hcall e

theorem results (e : Expr) : Discreet (e.results (s.code p rounds)) :=
  hp.of_closed s fun _ h hcall => h.results hcall e

theorem evalItems (elem : Ty) (items : List Expr) :
    Discreet (evalItems (s.code p rounds) elem items) :=
  hp.of_closed s fun _ h hcall => h.evalItems hcall elem items

theorem evalFields (decl : StructDecl) (fields : List (String × Value))
    (given : List (String × Expr)) : Discreet (evalFields (s.code p rounds) decl fields given) :=
  hp.of_closed s fun _ h hcall => h.evalFields hcall decl fields given

theorem stageArgs (stage : Nat) (args : List Expr) :
    Discreet (stageArgs (s.code p rounds) stage args) :=
  hp.of_closed s fun _ h hcall => h.stageArgs hcall stage args

theorem resultValues (values : List Expr) : Discreet (resultValues (s.code p rounds) values) :=
  hp.of_closed s fun _ h hcall => h.resultValues hcall values

theorem execBlock (ss : List Stmt) : Discreet (execBlock (s.code p rounds) ss) :=
  hp.of_closed s fun _ h hcall => h.execBlock hcall ss

/-- Handlers that end with a value are discreet. -/
theorem handler {name : String} {unit : NativeUnit}
    (hunit : p.find? name = some (.native unit)) :
    unit.handler.Has fun _ run => Discreet run := by
  have hspares := (hp.record name unit hunit).sparesRecord
  have hkeeps : unit.handler.Has fun _ run => KeepsTrace run := hp.trace name unit hunit
  cases hrun : unit.handler <;> rw [hrun] at hspares hkeeps <;> exact ⟨hspares, hkeeps⟩

end Program.NativesDiscreet

namespace Task

variable {p : Program} {rounds : Nat}

/-- The frame of a call is still there when its callable has run. -/
theorem not_frameGone (hp : p.NativesKeepTrace) {levels : Nat} {name : String} {unit : Callable}
    (hunit : p.find? name = some unit) {args : List Value} {m m' : Machine} :
    ¬ FrameGone p rounds levels unit args m m' := by
  rintro ⟨g, ending, -, hends, hending, hframes⟩
  have hkeeps := dispatch_keepsTrace hp rounds levels hunit _ _ _ hends hending
  obtain ⟨f, fs, hfs, -⟩ := exists_frame_of_trace hkeeps
  rw [hframes] at hfs
  cases hfs

variable (hp : p.NativesDiscreet)

include hp

/-- What a task does before it uses its frame leaves no record, and the active calls as they are. -/
theorem UsesFrame.alike {task : Task} {m m' : Machine} (hlinked : task.Linked p)
    (h : task.UsesFrame p rounds m m') : m.Alike m' := by
  cases h with
  | start hv => exact (hp.eval _ _).alike hv
  | result hvs => exact (hp.resultValues _ _).alike hvs
  | handled hrun hvs =>
    obtain ⟨name, hunit⟩ := hlinked
    have hhandler := hp.handler hunit
    rw [hrun] at hhandler
    exact Discreet.alike hhandler hvs
  | callArg _ hbefore hv =>
    exact ((hp.stageArgs _ _ _).alike hbefore).trans ((hp.eval _ _).alike hv)
  | callArgs _ hargs => exact (hp.stageArgs _ _ _).alike hargs
  | target htarget => exact (hp.eval _ _).alike htarget
  | actionArg htarget hstaged hbefore hw =>
    have hconnector := ((hp.eval _ _).alike htarget).trans ((OnFrame.setTemp _ _).alike hstaged)
    have hargs := ((hp.stageArgs _ _ _).alike hbefore).trans ((hp.eval _ _).alike hw)
    exact hconnector.trans hargs
  | actionArgs htarget hstaged hargs =>
    have hconnector := ((hp.eval _ _).alike htarget).trans ((OnFrame.setTemp _ _).alike hstaged)
    exact hconnector.trans ((hp.stageArgs _ _ _).alike hargs)
  | _ => exact .refl m

/-- What is done before a task is begun on behalf of another that is no call leaves no record, and
the active calls as they are. -/
theorem Step.alike {task₁ task₂ : Task} {m₁ m₂ : Machine} (h : Step p rounds task₁ m₁ task₂ m₂)
    (hlinked : task₁.Linked p) (hcall : ∀ levels unit args, task₁ ≠ .call levels unit args) :
    m₁.Alike m₂ := by
  refine Step.leads (SparesRecord.closed.and KeepsTrace.closed) (fun name unit hunit => ?_) hlinked
    (fun levels _ name unit hunit args => ?_) (fun hx hon => Discreet.alike ⟨hx.1, hx.2⟩ hon)
    Machine.Alike.refl Machine.Alike.trans h hcall
  · have hhas := hp.handler hunit
    cases hrun : unit.handler <;> rw [hrun] at hhas <;> exact ⟨hhas.spares, hhas.keeps⟩
  · exact ⟨call_sparesRecord hp.record rounds levels hunit args,
      call_keepsTrace hp.trace rounds levels hunit args⟩

/-- A failure that comes up in a task finds no more recorded than there was, and the same calls
active. -/
theorem Arises.alike {task : Task} {m m' : Machine} {x : Failure} (hlinked : task.Linked p)
    (h : task.Arises p rounds m x m') : m.Alike m' := by
  cases h with
  | frame _ huses hy h => exact (huses.alike hp hlinked).trans (hy.alike h)
  | frameGone h =>
    obtain ⟨name, hunit⟩ := hlinked
    exact absurd h (not_frameGone hp.trace hunit)
  | strayJump h => exact (hp.execBlock _ _).alike h
  | handler hrun h | mapper hrun h =>
    obtain ⟨name, hunit⟩ := hlinked
    have hleaves := hp.record name _ hunit
    have hkeeps := hp.trace name _ hunit
    unfold NativeUnit.LeavesRecord at hleaves
    unfold NativeUnit.KeepsTrace at hkeeps
    rw [hrun] at hleaves hkeeps
    exact ⟨by simpa only [h] using hleaves m, hkeeps m m' _ h nofun⟩
  | tooManyResults hrun h =>
    obtain ⟨name, hunit⟩ := hlinked
    have hhandler := hp.handler hunit
    rw [hrun] at hhandler
    exact Discreet.alike hhandler h
  | start hv | condition hv | loopCondition hv | payload hv | unary hv | cast hv =>
    exact (hp.eval _ _).alike hv
  | assignmentCount _ hvs | noValue _ hvs => exact (hp.results _ _).alike hvs
  | writeToNull hbase hkey | arrayIndex hbase hkey | elementBind hbase hkey
  | negativeIndex hbase hkey | mapKey hbase hkey | notIndexable hbase hkey | element hbase hkey =>
    exact ((hp.eval _ _).alike hbase).trans ((hp.eval _ _).alike hkey)
  | writeFieldOfNull hbase | fieldBind hbase | noStructField hbase | noField hbase | member hbase =>
    exact (hp.eval _ _).alike hbase
  | item hbefore hv =>
    exact ((hp.evalItems _ _ _).alike hbefore).trans ((hp.eval _ _).alike hv)
  | initField _ hbefore hv =>
    exact ((hp.evalFields _ _ _ _).alike hbefore).trans ((hp.eval _ _).alike hv)
  | binary hleft _ hright =>
    exact ((hp.eval _ _).alike hleft).trans ((hp.eval _ _).alike hright)
  | notConnector htarget => exact (hp.eval _ _).alike htarget
  | unresolvedAction htarget _ hstaged hargs =>
    have hconnector := ((hp.eval _ _).alike htarget).trans ((OnFrame.setTemp _ _).alike hstaged)
    exact hconnector.trans ((hp.stageArgs _ _ _).alike hargs)
  | _ => exact .refl _

/-- A failure that comes up in a call itself is that it is not admitted or finds no room. -/
theorem Arises.call_cases {levels : Nat} {unit : Callable} {args : List Value} {m m' : Machine}
    {x : Failure} (hlinked : (Task.call levels unit args).Linked p)
    (h : (Task.call levels unit args).Arises p rounds m x m') :
    (∃ f, prepare unit args = .error f ∧ x = .fault f) ∨
      ∃ g, prepare unit args = .ok g ∧ (levels = 0 ∨ m.context.maxDepth ≤ m.context.depth) ∧
        x = .fault (.stackOverflow m.context.depth) := by
  cases h with
  | frame _ huses => cases huses
  | frameGone h =>
    obtain ⟨name, hunit⟩ := hlinked
    exact absurd h (not_frameGone hp.trace hunit)
  | notAdmitted h => exact .inl ⟨_, h, rfl⟩
  | tooDeep hg hfull => exact .inr ⟨_, hg, hfull, rfl⟩

/-- **The record of a failure**: begun without a record, a run that fails has come to a point where
the failure comes up, and ends with a record of that failure that names the calls active at that
point. Only if there is no call around that point nothing is recorded, and it is there that the run
ends.

**Proof sketch.** A task that is no call and fails is the one the failure comes up in, or fails just
as a task that is begun on its behalf. A call that fails records the failure if there is no record
yet. So the innermost call records it, in the state in which the failure comes up, and the calls
around it keep that record. -/
theorem Fails.recorded {task : Task} {m m' : Machine} {x : Failure} (hlinked : task.Linked p)
    (hnone : m.context.failure? = none) (h : task.Fails p rounds m x m') :
    ∃ task₀ m₀ m₁, Reaches p rounds task m task₀ m₀ ∧ task₀.Arises p rounds m₀ x m₁ ∧
      task₀.Linked p ∧ (m'.context.failure? = some ⟨x.message, x.fault?, m₁.context.trace⟩ ∨
        m' = m₁ ∧ m₁.context.failure? = none ∧
          ∀ levels unit args, task ≠ .call levels unit args) := by
  induction task using step_induction p rounds generalizing m m' with
  | behalf task ih =>
    by_cases hcall : ∃ levels unit args, task = .call levels unit args
    · obtain ⟨levels, unit, args, rfl⟩ := hcall
      rcases call_fails_cases h with ⟨harises, rfl⟩ |
        ⟨n, m₁, m₂, g, fs, hstep, hfails, -, rfl⟩ | ⟨n, m₁, rfl, hgone, rfl⟩
      · exact ⟨_, m, m, .start, harises, hlinked, .inl (Machine.recorded_of_none x hnone)⟩
      · have hnone₁ : m₁.context.failure? = none := by
          cases hstep
          exact hnone
        obtain ⟨task₀, m₀, m₃, hr, harises, hlinked₀, hrecord⟩ :=
          ih hstep (hstep.linked hlinked) hnone₁ hfails
        refine ⟨task₀, m₀, m₃, .of_step hstep hr, harises, hlinked₀, .inl ?_⟩
        rcases hrecord with hsome | ⟨rfl, hnone₂, -⟩
        · exact Machine.recorded_of_some x hsome
        · exact Machine.recorded_of_none x hnone₂
      · obtain ⟨name, hunit⟩ := hlinked
        exact absurd hgone (not_frameGone hp.trace hunit)
    · have hcall (levels : Nat) (unit : Callable) (args : List Value) :
          task ≠ .call levels unit args := fun htask => hcall ⟨_, _, _, htask⟩
      rcases h.traced hcall with harises | ⟨task₂, m₂, hstep, hfails⟩
      · have hnone' := (harises.alike hp hlinked).failure?.trans hnone
        exact ⟨task, m, m', .start, harises, hlinked, .inr ⟨rfl, hnone', hcall⟩⟩
      · have hnone₂ := (hstep.alike hp hlinked hcall).failure?.trans hnone
        obtain ⟨task₀, m₀, m₁, hr, harises, hlinked₀, hrecord⟩ :=
          ih hstep (hstep.linked hlinked) hnone₂ hfails
        refine ⟨task₀, m₀, m₁, .of_step hstep hr, harises, hlinked₀, ?_⟩
        exact hrecord.imp_right fun ⟨hm', hnone₁, _⟩ => ⟨hm', hnone₁, hcall⟩

end Task

end FrameScript
