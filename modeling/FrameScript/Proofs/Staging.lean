import FrameScript.Proofs.Agreement
import FrameScript.Proofs.Run

set_option autoImplicit false

/-!
# Staged arguments

A call hands its callee the values its arguments have evaluated to, in order, however calls are
nested. So nothing changes if the list of these values is handed over directly, and no body ever
reads a slot that is not there or a staged value that is not.

## Main definitions

* `onFrame` — variables kept in the slots of the innermost frame.
* `Unstaged.eval`, `Unstaged.results`, `Unstaged.run`, `Unstaged.call` — runs in which the evaluated
  arguments are handed over as a list, and which are like all others otherwise.
* `SameOutcome` — two endings that agree, with states that differ in staged values only.

## Main results

* `staging_hands_over` — staged and unstaged runs agree, as do all evaluations inside them, every
  callee gets the values of its arguments, and no fault of storage comes up.
-/

namespace FrameScript

open Exec

variable {α β : Type}

/-! ## Unstaged runs -/

/-- Variables that are kept in the slots of the innermost frame, the types of which are `slots`. -/
def onFrame (slots : List Ty) : Variables Unit where
  read _ x := do
    let slot ← slotOf x.name x.slot?
    getSlot slot
  write _ x v := do
    let slot ← slotOf x.name x.slot?
    let v ← ofExcept (bindAs slots[slot]? v)
    setSlot slot v
  define _ name ty slot? v := do
    let slot ← slotOf name slot?
    let v ← ofExcept (v.bind ty)
    setSlot slot v
  enter env := env
  leave env := env

namespace Unstaged

/-- Evaluates an expression; the values of arguments are handed over as a list. -/
def eval (code : Code) (e : Expr) : Exec Value :=
  Reference.eval (onFrame code.function.layout.slots) code () e

/-- Evaluates an expression to all its values. -/
def results (code : Code) (e : Expr) : Exec (List Value) :=
  Reference.results (onFrame code.function.layout.slots) code () e

/-- Runs the body of a function on the frame of its call. -/
def run (code : Code) : Exec Unit :=
  Reference.run (onFrame code.function.layout.slots) code () code.function.body

/-- Calls a callable with a number of levels left. -/
def call (p : Program) (rounds levels : Nat) : Callable → List Value → Exec (List Value) :=
  callWith run p rounds levels

end Unstaged

/-- What an unstaged body knows besides its frame. -/
def Site.unstaged (p : Program) (rounds : Nat) (s : Site) : Code :=
  (s.code p rounds).calling (Unstaged.call p rounds s.levels)

/-! ## Outcomes -/

/-- A state without staged values. -/
def Machine.bare (m : Machine) : Machine :=
  m.withFrames (m.context.frames.map fun f => { f with temps := [] })

/-- Two endings that agree, and with a value the same state but for staged values. -/
structure SameOutcome (x y : Except Stop α × Machine) : Prop extends EndAlike x y where
  bare : ∀ a, x.1 = .ok a → x.2.bare = y.2.bare

namespace SameOutcome

variable {x y z : Except Stop α × Machine}

theorem symm (h : SameOutcome x y) : SameOutcome y x :=
  ⟨⟨h.ending.symm, h.outline.symm⟩, fun a ha => (h.bare a (h.ending.trans ha)).symm⟩

theorem trans (h : SameOutcome x y) (h' : SameOutcome y z) : SameOutcome x z :=
  ⟨⟨h.ending.trans h'.ending, h.outline.trans h'.outline⟩, fun a ha =>
    (h.bare a ha).trans (h'.bare a (h.ending.symm.trans ha))⟩

end SameOutcome

/-- States of one outline whose innermost frames differ in staged values only, and the others not at
all. -/
theorem Machine.bare_of_outline {m m' : Machine} (h : m.outline = m'.outline) {f g : Frame}
    {fs : List Frame} {base : Nat} (hm : m.context.frames = g :: fs)
    (hm' : m'.context.frames = f :: fs) (hg : g.RestagedFrom base f) : m.bare = m'.bare := by
  obtain ⟨temps, rfl, -, -⟩ := hg
  rw [eq_withFrames_of_outline h, bare, bare, hm, hm']
  rfl

/-- A pair of evaluations on one state ends alike. -/
theorem Simulates.sameOutcome {E : Stop → Prop} {f : Frame} {x y : Exec α} {base : Nat}
    (h : Simulates E f f x y (Evaluated base f f)) {m : Machine} {fs : List Frame}
    (hm : m.context.frames = f :: fs) : SameOutcome (x.on m) (y.on m) := by
  obtain ⟨m₁, m₁', hmm₁, hok | herror⟩ := h m m fs fs hm hm rfl
  · obtain ⟨a, _, g, _, hx, hy, hm₁, hm₁', rfl, hg, rfl⟩ := hok
    rw [hx, hy]
    exact ⟨⟨rfl, hmm₁⟩, fun _ _ => Machine.bare_of_outline hmm₁ hm₁ hm₁' hg⟩
  · obtain ⟨s, hx, hy, -⟩ := herror
    rw [hx, hy]
    exact ⟨⟨rfl, hmm₁⟩, fun a ha => by cases ha⟩

/-- A pair of calls ends alike, with the same state unless a loop has used up its rounds. -/
theorem CallsAlike.sameOutcome {E : Stop → Prop} {x y : Exec α} (h : CallsAlike E x y)
    (m : Machine) :
    SameOutcome (x.on m) (y.on m) ∧
      ((x.on m).1 ≠ .error .exhausted → x.on m = y.on m) := by
  obtain ⟨halike, hsame⟩ := h.endAlike m
  refine ⟨⟨halike, fun a ha => ?_⟩, hsame⟩
  rw [hsame (by rw [ha]; simp)]

/-! ## Slots on the frame -/

/-- Two frames with the same slots, which are as many as there are types. -/
def SameSlots (slots : List Ty) (f f' : Frame) : Prop :=
  f.slots = f'.slots ∧ f.slots.length = slots.length

theorem on_getSlot {m : Machine} {f : Frame} {fs : List Frame} (hm : m.context.frames = f :: fs)
    {slot : Nat} {v : Value} (hv : f.slots[slot]? = some v) :
    (getSlot slot).on m = (.ok v, m.withFrames (f :: fs)) := by
  rw [← hm, Machine.withFrames_self]
  simp only [getSlot, on_bind, on_frame, hm, Frame.get, hv, on_ofExcept_ok]

theorem on_setSlot {m : Machine} {f : Frame} {fs : List Frame} (hm : m.context.frames = f :: fs)
    {slot : Nat} (v : Value) (hslot : slot < f.slots.length) :
    (setSlot slot v).on m =
      (.ok (), m.withFrames ({ f with slots := f.slots.set slot v } :: fs)) := by
  simp only [setSlot, on_modifyFrame, hm, Frame.set, if_pos hslot]

theorem SameSlots.setSlot {E : Stop → Prop} {slots : List Ty} {f f' : Frame}
    (h : SameSlots slots f f') {slot : Nat} (hslot : slot < slots.length) (v : Value) :
    Simulates E f f' (setSlot slot v) (setSlot slot v) fun _ _ g g' =>
      g.temps = f.temps ∧ SameSlots slots g g' := by
  obtain ⟨hsame, hlength⟩ := h
  have hlt : slot < f.slots.length := by omega
  refine .steps (fun m fs hm => on_setSlot hm v hlt) (fun m fs hm => on_setSlot hm v (hsame ▸ hlt))
    rfl rfl ⟨rfl, ?_, ?_⟩
  · simp only [hsame]
  · simp only [List.length_set, hlength]

/-- Variables on the frame follow its slots. -/
theorem tracking_onFrame {E : Stop → Prop} (hE : ∀ s, s.isStorage = false → E s)
    (slots : List Ty) :
    Tracking E (onFrame slots) slots fun _ _ f f' => SameSlots slots f f' where
  staged _ h := h
  result _ h := h
  read := by
    intro _ _ f f' _ x slot h _ hslot _ hlt
    obtain ⟨hsame, hlength⟩ := h
    simp only [onFrame, slotOf, hslot, pure_bind]
    have hv : f.slots[slot]? = some f.slots[slot] := List.getElem?_eq_getElem (by omega)
    exact .steps (fun m fs hm => on_getSlot hm hv) (fun m fs hm => on_getSlot hm (hsame ▸ hv))
      rfl rfl ⟨rfl, rfl, rfl⟩
  write := by
    intro _ _ f f' _ x slot v h _ hslot _ hlt
    simp only [onFrame, slotOf, hslot, pure_bind]
    exact .ofExcept_bind hE (OfOperations.bindAs _ _).stackFree fun w _ => h.setSlot hlt w
  define := by
    intro _ _ _ f f' slot name ty v h _ hty
    simp only [onFrame, slotOf, pure_bind]
    have hlt : slot < slots.length := (List.getElem?_eq_some_iff.mp hty).1
    exact .ofExcept_bind hE (OfOperations.valueBind _ _).stackFree fun w _ => h.setSlot hlt w
  enter h := h
  leave h := h

/-! ## Bodies and calls -/

/-- A frame of the sizes of a function. -/
def Function.SizedFor (function : Function) (f : Frame) : Prop :=
  Ready (SameSlots function.layout.slots) function.layout.temps f f

theorem Function.LaidOut.sizedFor {function : Function} {decl : FunctionDecl}
    (hlaid : function.LaidOut decl) {args : List Value} {f : Frame}
    (h : prepare (.function function) args = .ok f) : function.SizedFor f := by
  obtain ⟨hslots, htemps⟩ := sizes_of_prepare hlaid.shape h
  refine ⟨⟨rfl, hslots⟩, ?_⟩
  rw [htemps, List.length_replicate]

section Program

variable {natives : Registry} {p : Program} (hp : p.Linked natives)
  (hnatives : p.NativesConfined)

include hp

/-- Bodies of a linked program end alike staged and unstaged. -/
theorem bodiesAlike_unstaged {E : Stop → Prop} (hE : ∀ s, s.isStorage = false → E s) :
    BodiesAlike E p Function.run Unstaged.run := by
  intro name f hfound call call' rounds hcall args frame hframe
  obtain ⟨decl, hlaid⟩ := hp.laidOut hfound
  let code : Code := ⟨p, f, call, rounds⟩
  have hcall : ∀ name unit, code.program.resolve name = .ok unit → ∀ args,
    CallsAlike E (code.call unit args) (call' unit args) := hcall
  exact Tracking.run_simulates hE hcall (tracking_onFrame hE f.layout.slots) _
    (Scope.below_ofParams _) hlaid.placed (hlaid.sizedFor hframe)

include hnatives

/-- Calls of a linked program end alike staged and unstaged. -/
theorem call_unstaged (rounds levels : Nat) {name : String} {unit : Callable}
    (hunit : p.find? name = some unit) (args : List Value) :
    CallsAlike p.MayEnd (call p rounds levels unit args)
      (Unstaged.call p rounds levels unit args) := by
  rw [← callWith_run]
  exact callWith_alike (fun s hs => hs) hnatives (bodiesAlike_unstaged hp fun s hs => .inl hs)
    rounds levels hunit args

end Program

/-! ## Runs -/

/-- The body runs a function of the program on a frame of its sizes. -/
structure Site.OnFrame (p : Program) (s : Site) (m : Machine) : Prop where
  found : ∃ name, p.find? name = some (.function s.function)
  top : ∃ f fs, m.context.frames = f :: fs ∧ s.function.SizedFor f

/-- The expression is placed in some scope of the function. -/
def Site.Places (s : Site) (e : Expr) : Prop :=
  ∃ (scope : Scope) (base : Nat),
    e.Placed scope.slot? s.function.layout.slots.length s.function.layout.temps base

/-- What is promised of a task when it is begun: its body runs on a frame of its sizes, and what it
is about to run is placed. -/
def Task.PlacedAt (p : Program) (m : Machine) : Task → Prop
  | .call _ unit _ => ∃ name, p.find? name = some unit
  | .dispatch _ unit => (∃ name, p.find? name = some unit) ∧
    ∃ args f fs, prepare unit args = .ok f ∧ m.context.frames = f :: fs
  | .store _ _ _ _ => True
  | .block s ss => s.OnFrame p m ∧ ∃ scope : Scope, scope.Below ∧
    BlockPlaced s.function.layout.slots s.function.layout.temps scope ss
  | .stmt s st => s.OnFrame p m ∧ ∃ scope : Scope, scope.Below ∧
    st.Placed s.function.layout.slots s.function.layout.temps scope
  | .loop s cond body _ => s.OnFrame p m ∧ s.Places cond ∧ ∃ scope : Scope, scope.Below ∧
    BlockPlaced s.function.layout.slots s.function.layout.temps scope body
  | .finish s _ _ => s.OnFrame p m
  | .write s _ target => s.OnFrame p m ∧ ∃ scope : Scope,
    target.Placed scope.slot? s.function.layout.slots.length s.function.layout.temps
  | .eval s e => s.OnFrame p m ∧ s.Places e
  | .results s e => s.OnFrame p m ∧ s.Places e

namespace Site.OnFrame

variable {p : Program} {s : Site} {m m' : Machine}

/-- The state in which a computation of a body ends with a value, if the computation is one of a
pair that keeps the sizes of the frame. -/
theorem after (h : s.OnFrame p m) {E : Stop → Prop} {x : Exec α} {y : Exec β}
    {Q : Frame → α → β → Frame → Frame → Prop}
    (hxy : ∀ f, s.function.SizedFor f → Simulates E f f x y (Q f))
    (hQ : ∀ f, s.function.SizedFor f → ∀ a b g g', Q f a b g g' → s.function.SizedFor g)
    {a : α} (hrun : x.on m = (.ok a, m')) : s.OnFrame p m' := by
  obtain ⟨f, fs, hm, hf⟩ := h.top
  obtain ⟨b, g, g', m₁', -, hg, -, -, hpost⟩ := (hxy f hf).value hm hm rfl hrun
  exact ⟨h.found, g, fs, hg, hQ f hf a b g g' hpost⟩

theorem sizedFor_of_restaged {function : Function} {f g : Frame} {base : Nat}
    (hf : function.SizedFor f) (hg : g.RestagedFrom base f) : function.SizedFor g := by
  have hlength := hg.length
  obtain ⟨temps, rfl, -, -⟩ := hg
  exact ⟨⟨rfl, hf.1.2⟩, hlength.trans hf.2⟩

/-- Behind a computation that keeps the sizes of the frame it has these sizes. -/
theorem afterSized (h : s.OnFrame p m) {E : Stop → Prop} {x : Exec α} {y : Exec β}
    (hxy : ∀ f, s.function.SizedFor f →
      Simulates E f f x y fun _ _ g _ => s.function.SizedFor g) {a : α}
    (hrun : x.on m = (.ok a, m')) : s.OnFrame p m' :=
  h.after hxy (fun _ _ _ _ _ _ hg => hg) hrun

/-- Behind an evaluation the frame has the sizes it had. -/
theorem afterEvaluated (h : s.OnFrame p m) {E : Stop → Prop} {x y : Exec α} {base : Nat}
    (hxy : ∀ f, s.function.SizedFor f → Simulates E f f x y (Evaluated base f f)) {a : α}
    (hrun : x.on m = (.ok a, m')) : s.OnFrame p m' :=
  h.after hxy (fun _ hf _ _ _ _ hpost => sizedFor_of_restaged hf hpost.2.1) hrun

/-- A value can be staged in any slot that there is. -/
theorem afterSetTemp (h : s.OnFrame p m) {index : Nat} {v : Value} {a : Unit}
    (hrun : (setTemp index v).on m = (.ok a, m')) : s.OnFrame p m' := by
  obtain ⟨f, fs, hm, hf⟩ := h.top
  simp only [setTemp, on_modifyFrame, hm, Frame.setTemp] at hrun
  by_cases hindex : index < f.temps.length
  · rw [if_pos hindex] at hrun
    cases hrun
    exact ⟨h.found, _, fs, rfl,
      sizedFor_of_restaged hf (.set f (Nat.zero_le index) (some v))⟩
  · rw [if_neg hindex] at hrun
    cases hrun

end Site.OnFrame

/-! ### Pairs inside a run -/

section Run

variable {natives : Registry} {p : Program}

theorem Program.mayEnd_of_not_isStorage (t : Stop) (ht : t.isStorage = false) : p.MayEnd t :=
  .inl ht

/-- The variables of a body are read from the slots of its frame. -/
theorem Site.mirrors (s : Site) (scope : Scope) :
    Mirrors p.MayEnd (onFrame s.function.layout.slots) () scope.slot?
      s.function.layout.slots.length (SameSlots s.function.layout.slots) :=
  Tracking.mirrors (tracking_onFrame Program.mayEnd_of_not_isStorage s.function.layout.slots)
    (show scope.bindings = [scope.bindings].flatten by simp) ()

variable (hp : p.Linked natives) (hnatives : p.NativesConfined) {rounds : Nat} {s : Site}

include hp hnatives

/-- The calls of a body end alike staged and unstaged. -/
theorem Site.callsAlike (rounds : Nat) (s : Site) (name : String) (unit : Callable)
    (hunit : (s.code p rounds).program.resolve name = .ok unit) (args : List Value) :
    CallsAlike p.MayEnd ((s.code p rounds).call unit args)
      (Unstaged.call p rounds s.levels unit args) :=
  call_unstaged hp hnatives rounds s.levels (Program.find?_of_resolve hunit) args

/-- Evaluations inside a run end alike staged and unstaged. -/
theorem Site.eval_unstaged (rounds : Nat) {e : Expr} {f : Frame} (hf : s.function.SizedFor f)
    {scope : Scope} {base : Nat}
    (he : e.Placed scope.slot? s.function.layout.slots.length s.function.layout.temps base) :
    Simulates p.MayEnd f f (e.eval (s.code p rounds)) (Unstaged.eval (s.unstaged p rounds) e)
      (Evaluated base f f) :=
  eval_simulates Program.mayEnd_of_not_isStorage (Site.callsAlike hp hnatives rounds s)
    (s.mirrors scope) e hf he

theorem Site.results_unstaged (rounds : Nat) {e : Expr} {f : Frame}
    (hf : s.function.SizedFor f) {scope : Scope} {base : Nat}
    (he : e.Placed scope.slot? s.function.layout.slots.length s.function.layout.temps base) :
    Simulates p.MayEnd f f (e.results (s.code p rounds))
      (Unstaged.results (s.unstaged p rounds) e) (Evaluated base f f) :=
  results_simulates Program.mayEnd_of_not_isStorage (Site.callsAlike hp hnatives rounds s)
    (s.mirrors scope) e hf he

/-- Statements inside a run end alike, on frames of the sizes of the function. -/
theorem Site.exec_unstaged (rounds : Nat) {st : Stmt} {f : Frame} (hf : s.function.SizedFor f)
    {scope : Scope} (hscope : scope.Below)
    (hst : st.Placed s.function.layout.slots s.function.layout.temps scope) :
    Simulates p.MayEnd f f (st.exec (s.code p rounds))
      (Reference.exec (onFrame s.function.layout.slots) (s.unstaged p rounds) () st)
      fun _ _ g _ => s.function.SizedFor g := by
  refine Simulates.weaken (Tracking.exec_simulates Program.mayEnd_of_not_isStorage
    (Site.callsAlike hp hnatives rounds s) (tracking_onFrame Program.mayEnd_of_not_isStorage _) st
    scope scope.bindings [] (by simp) hscope hst hf) fun flow r g g' hpost => ?_
  obtain ⟨-, added, hg, -⟩ := hpost
  exact ⟨⟨rfl, hg.1.2⟩, hg.2⟩

theorem Site.execBlock_unstaged (rounds : Nat) {ss : List Stmt} {f : Frame}
    (hf : s.function.SizedFor f) {scope : Scope} (hscope : scope.Below)
    (hss : BlockPlaced s.function.layout.slots s.function.layout.temps scope ss) :
    Simulates p.MayEnd f f (execBlock (s.code p rounds) ss)
      (Reference.execAll (onFrame s.function.layout.slots) (s.unstaged p rounds) () ss)
      fun _ _ g _ => s.function.SizedFor g := by
  refine Simulates.weaken (Tracking.execBlock_simulates Program.mayEnd_of_not_isStorage
    (Site.callsAlike hp hnatives rounds s) (tracking_onFrame Program.mayEnd_of_not_isStorage _) ss
    scope scope.bindings [] (by simp) hscope hss hf) fun flow r g g' hpost => ?_
  obtain ⟨-, added, hg⟩ := hpost
  exact ⟨⟨rfl, hg.1.2⟩, hg.2⟩

/-- The rounds of a loop; its condition and its body may stand in different scopes. -/
theorem Site.loop_unstaged (rounds n : Nat) {cond : Expr} {body : List Stmt} {f : Frame}
    (hf : s.function.SizedFor f) {scope scope' : Scope} {base : Nat}
    (hcond : cond.Placed scope'.slot? s.function.layout.slots.length s.function.layout.temps base)
    (hscope : scope.Below)
    (hbody : BlockPlaced s.function.layout.slots s.function.layout.temps scope body) :
    Simulates p.MayEnd f f (runLoop (cond.holds (s.code p rounds))
        (execBlock (s.code p rounds) body) n)
      (Reference.runLoop (fun env => Reference.holds (onFrame s.function.layout.slots)
          (s.unstaged p rounds) env cond)
        (fun env => do
          let (flow, env) ← Reference.execAll (onFrame s.function.layout.slots)
            (s.unstaged p rounds) ((onFrame s.function.layout.slots).enter env) body
          pure (flow, (onFrame s.function.layout.slots).leave env)) n ())
      fun _ _ g _ => s.function.SizedFor g := by
  have hcall := Site.callsAlike hp hnatives rounds s
  have hT := tracking_onFrame (Program.mayEnd_of_not_isStorage (p := p)) s.function.layout.slots
  refine Simulates.weaken (Tracking.loop_simulates Program.mayEnd_of_not_isStorage hcall hT cond
    body (show scope'.bindings = [scope'.bindings].flatten by simp) hcond (fun hg => ?_) n hf)
      fun flow r g g' hg => ⟨⟨rfl, hg.2.1.2⟩, hg.2.2⟩
  exact Tracking.block_simulates Program.mayEnd_of_not_isStorage hcall hT body scope
    [scope.bindings] (by simp) hscope hbody hg

omit hp hnatives in
theorem Site.writeResults_unstaged (index : Nat) (vs : List Value) {f : Frame}
    (hf : s.function.SizedFor f) :
    Simulates p.MayEnd f f (writeResults s.function.sig.returns index vs)
      (writeResults s.function.sig.returns index vs) fun _ _ g _ => s.function.SizedFor g := by
  have hT := tracking_onFrame (Program.mayEnd_of_not_isStorage (p := p)) s.function.layout.slots
  exact Simulates.weaken (Tracking.writeResults_simulates Program.mayEnd_of_not_isStorage hT _
    index vs [] () hf) fun _ _ g g' hg => ⟨⟨rfl, hg.1.2⟩, hg.2⟩

theorem Site.write_unstaged (rounds : Nat) {target : Target} (v : Value) {f : Frame}
    (hf : s.function.SizedFor f) {scope : Scope}
    (htarget : target.Placed scope.slot? s.function.layout.slots.length s.function.layout.temps) :
    Simulates p.MayEnd f f (target.write (s.code p rounds) v)
      (Reference.write (onFrame s.function.layout.slots) (s.unstaged p rounds) () v target)
      fun _ _ g _ => s.function.SizedFor g := by
  refine Simulates.weaken (Tracking.write_simulates Program.mayEnd_of_not_isStorage
    (Site.callsAlike hp hnatives rounds s) (tracking_onFrame Program.mayEnd_of_not_isStorage _) v
    target (show scope.bindings = [scope.bindings].flatten by simp) hf htarget)
      fun _ env g g' hg => ⟨⟨rfl, hg.1.2⟩, hg.2⟩

theorem Site.writeAll_unstaged (rounds : Nat) {targets : List Target} (vs : List Value) {f : Frame}
    (hf : s.function.SizedFor f) {scope : Scope}
    (htargets : ∀ target ∈ targets,
      target.Placed scope.slot? s.function.layout.slots.length s.function.layout.temps) :
    Simulates p.MayEnd f f (writeAll (s.code p rounds) targets vs)
      (Reference.writeAll (onFrame s.function.layout.slots) (s.unstaged p rounds) () targets vs)
      fun _ _ g _ => s.function.SizedFor g := by
  refine Simulates.weaken (Tracking.writeAll_simulates Program.mayEnd_of_not_isStorage
    (Site.callsAlike hp hnatives rounds s) (tracking_onFrame Program.mayEnd_of_not_isStorage _)
    targets vs (show scope.bindings = [scope.bindings].flatten by simp) hf htargets)
      fun _ env g g' hg => ⟨⟨rfl, hg.1.2⟩, hg.2⟩

/-- The condition of a choice or of a loop leaves the frame in its sizes. -/
theorem Site.OnFrame.afterHolds {m m' : Machine} (h : s.OnFrame p m) {cond : Expr}
    (hcond : s.Places cond) {b : Bool}
    (hrun : (cond.holds (s.code p rounds)).on m = (.ok b, m')) : s.OnFrame p m' := by
  obtain ⟨scope, base, hcond⟩ := hcond
  exact h.afterEvaluated (fun f hf => holds_simulates Program.mayEnd_of_not_isStorage
    (Site.callsAlike hp hnatives rounds s) (s.mirrors scope) cond hf hcond) hrun

theorem Site.OnFrame.afterEval {m m' : Machine} (h : s.OnFrame p m) {e : Expr}
    (he : s.Places e) {v : Value} (hrun : (e.eval (s.code p rounds)).on m = (.ok v, m')) :
    s.OnFrame p m' := by
  obtain ⟨scope, base, he⟩ := he
  exact h.afterEvaluated (fun f hf => Site.eval_unstaged hp hnatives rounds hf he) hrun

theorem Site.OnFrame.afterStageArgs {m m' : Machine} (h : s.OnFrame p m) {args : List Expr}
    {scope : Scope} {stage : Nat} (hroom : stage + args.length ≤ s.function.layout.temps)
    (hargs : StagedPlaced scope.slot? s.function.layout.slots.length s.function.layout.temps stage
      args)
    {a : Unit} (hrun : (stageArgs (s.code p rounds) stage args).on m = (.ok a, m')) :
    s.OnFrame p m' :=
  h.after (fun _ hf => stageArgs_simulates Program.mayEnd_of_not_isStorage
    (Site.callsAlike hp hnatives rounds s) (s.mirrors scope) args hf hroom hargs)
    (fun _ hf _ _ _ _ hpost => Site.OnFrame.sizedFor_of_restaged hf hpost.1) hrun

theorem Site.OnFrame.afterBlock {m m' : Machine} (h : s.OnFrame p m) {ss : List Stmt}
    {scope : Scope} (hscope : scope.Below)
    (hss : BlockPlaced s.function.layout.slots s.function.layout.temps scope ss) {flow : Flow}
    (hrun : (execBlock (s.code p rounds) ss).on m = (.ok flow, m')) : s.OnFrame p m' :=
  h.afterSized (fun _ hf => Site.execBlock_unstaged hp hnatives rounds hf hscope hss) hrun

/-! ### Steps -/

omit hp hnatives in
/-- The parts of a placed expression are placed. -/
theorem Site.Places.part {e x : Expr} (h : s.Places e) (hx : x ∈ e.parts) : s.Places x := by
  obtain ⟨scope, base, he⟩ := h
  obtain ⟨base', hx⟩ := he.part hx
  exact ⟨scope, base', hx⟩

section Steps

variable {task : Task} {m m' : Machine}

omit hnatives in
theorem Task.Step.placedAt_dispatch {levels : Nat} {unit : Callable}
    (h : (Task.dispatch levels unit).PlacedAt p m)
    (hstep : Task.Step p rounds (.dispatch levels unit) m task m') : task.PlacedAt p m' := by
  cases hstep with
  | body =>
    obtain ⟨⟨name, hfound⟩, args, f, fs, hf, hm⟩ := h
    obtain ⟨decl, hlaid⟩ := hp.laidOut hfound
    exact ⟨⟨⟨name, hfound⟩, f, fs, hm, hlaid.sizedFor hf⟩, _, Scope.below_ofParams decl.params,
      hlaid.placed⟩
  | handled | mapped => trivial

theorem Task.Step.placedAt_loop {cond : Expr} {body : List Stmt} {n : Nat}
    (h : (Task.loop s cond body n).PlacedAt p m)
    (hstep : Task.Step p rounds (.loop s cond body n) m task m') : task.PlacedAt p m' := by
  obtain ⟨hs, hcond, scope, hscope, hbody⟩ := h
  cases hstep with
  | roundCond => exact ⟨hs, hcond⟩
  | roundBody hholds => exact ⟨hs.afterHolds hp hnatives hcond hholds, scope, hscope, hbody⟩
  | round hholds hflow _ =>
    have hs' := hs.afterHolds hp hnatives hcond hholds
    exact ⟨hs'.afterBlock hp hnatives hscope hbody hflow, hcond, scope, hscope, hbody⟩

theorem Task.Step.placedAt_assign {targets : List Target} {value : Expr}
    (h : (Task.stmt s (.assign targets value)).PlacedAt p m)
    (hstep : Task.Step p rounds (.stmt s (.assign targets value)) m task m') :
    task.PlacedAt p m' := by
  obtain ⟨hs, scope, -, hst⟩ := h
  simp only [Stmt.Placed] at hst
  cases hstep with
  | assigned | assignedAll => exact ⟨hs, scope, 0, hst.2⟩
  | written hv =>
    exact ⟨hs.afterEval hp hnatives ⟨scope, 0, hst.2⟩ hv, scope, hst.1 _ List.mem_cons_self⟩
  | @writtenEach _ before after target _ vs vs' v _ _ _ _ hvalues _ _ hwritten =>
    have hs' := hs.afterEvaluated
      (fun f hf => Site.results_unstaged hp hnatives rounds hf hst.2) hvalues
    refine ⟨hs'.afterSized (fun f hf => Site.writeAll_unstaged hp hnatives rounds vs hf
      fun t hmem => hst.1 t (List.mem_append_left _ hmem)) hwritten, scope, ?_⟩
    exact hst.1 target (List.mem_append_right _ List.mem_cons_self)

theorem Task.Step.placedAt_result {values : List Expr}
    (h : (Task.stmt s (.result values)).PlacedAt p m)
    (hstep : Task.Step p rounds (.stmt s (.result values)) m task m') : task.PlacedAt p m' := by
  have hE := Program.mayEnd_of_not_isStorage (p := p)
  obtain ⟨hs, scope, -, hst⟩ := h
  have hexpr {x : Expr} (hx : x ∈ values) : s.Places x := ⟨scope, 0, hst.expr hx⟩
  simp only [Stmt.Placed] at hst
  cases hstep with
  | resultAll => exact ⟨hs, hexpr (by simp)⟩
  | @resultEach _ before after e vs _ _ _ hbefore =>
    refine ⟨hs.afterEvaluated (fun f hf => evalArgs_simulates hE
      (Site.callsAlike hp hnatives rounds s) (s.mirrors scope) before hf (eachPlaced_append hst).1)
      hbefore, hexpr (by simp)⟩
  | result hvs =>
    exact hs.afterEvaluated (fun f hf => resultValues_simulates hE
      (Site.callsAlike hp hnatives rounds s) (s.mirrors scope) values hf hst) hvs

theorem Task.Step.placedAt_stmt {st : Stmt} (h : (Task.stmt s st).PlacedAt p m)
    (hstep : Task.Step p rounds (.stmt s st) m task m') : task.PlacedAt p m' := by
  have hwhole := h
  obtain ⟨hs, scope, hscope, hst⟩ := h
  have hexpr {x : Expr} (hx : x ∈ st.exprs) : s.Places x := ⟨scope, 0, hst.expr hx⟩
  cases st with
  | assign targets value => exact placedAt_assign hp hnatives hwhole hstep
  | result values => exact placedAt_result hp hnatives hwhole hstep
  | branch cond yes no =>
    have hcond := hexpr (x := cond) (by simp [Stmt.exprs])
    simp only [Stmt.Placed] at hst
    cases hstep with
    | cond => exact ⟨hs, hcond⟩
    | @chosen _ _ _ _ b _ _ hholds =>
      refine ⟨hs.afterHolds hp hnatives hcond hholds, ?_⟩
      cases b with
      | true => exact ⟨scope, hscope, hst.2.1⟩
      | false => exact ⟨_, hscope.skip _, hst.2.2⟩
  | loop cond body =>
    simp only [Stmt.Placed] at hst
    cases hstep with
    | loop => exact ⟨hs, hexpr (by simp [Stmt.exprs]), scope, hscope, hst.2⟩
  | block body =>
    simp only [Stmt.Placed] at hst
    cases hstep with
    | inner => exact ⟨hs, scope, hscope, hst⟩
  | define name ty init? slot? =>
    cases hstep with
    | start => exact ⟨hs, hexpr (by simp [Stmt.exprs])⟩
  | run e =>
    cases hstep with
    | run => exact ⟨hs, hexpr (by simp [Stmt.exprs])⟩
  | leave | next => cases hstep

theorem Task.Step.placedAt_write {v : Value} {target : Target}
    (h : (Task.write s v target).PlacedAt p m)
    (hstep : Task.Step p rounds (.write s v target) m task m') : task.PlacedAt p m' := by
  obtain ⟨hs, scope, htarget⟩ := h
  have hpart {x : Expr} (hx : x ∈ target.parts) : s.Places x := ⟨scope, 0, htarget.part hx⟩
  cases hstep with
  | writeBase | writeStruct => exact ⟨hs, hpart (by simp [Target.parts])⟩
  | writeKey hbase =>
    exact ⟨hs.afterEval hp hnatives (hpart (by simp [Target.parts])) hbase,
      hpart (by simp [Target.parts])⟩

theorem Task.Step.placedAt_eval {e : Expr} (h : (Task.eval s e).PlacedAt p m)
    (hstep : Task.Step p rounds (.eval s e) m task m') : task.PlacedAt p m' := by
  have hE := Program.mayEnd_of_not_isStorage (p := p)
  have hcall := Site.callsAlike hp hnatives rounds s
  obtain ⟨hs, hplaces⟩ := h
  have hpart {x : Expr} (hx : x ∈ e.parts) : s.Places x := hplaces.part hx
  obtain ⟨scope, base, he⟩ := hplaces
  cases hstep with
  | values => exact ⟨hs, scope, base, he⟩
  | payload | base | field | operand | left | castOperand =>
    exact ⟨hs, hpart (by simp [Expr.parts])⟩
  | key hbefore | right hbefore =>
    exact ⟨hs.afterEval hp hnatives (hpart (by simp [Expr.parts])) hbefore,
      hpart (by simp [Expr.parts])⟩
  | @item _ elem before after x vs _ _ hbefore =>
    simp only [Expr.Placed] at he
    exact ⟨hs.afterEvaluated (fun f hf => evalItems_simulates hE hcall (s.mirrors scope) elem before
      hf (eachPlaced_append he).1) hbefore, hpart (by simp [Expr.parts])⟩
  | @entry _ before after key x vs _ _ hbefore =>
    simp only [Expr.Placed] at he
    exact ⟨hs.afterEvaluated (fun f hf => evalEntries_simulates hE hcall (s.mirrors scope) before
      hf (namedPlaced_append he).1) hbefore, hpart (by simp [Expr.parts])⟩
  | @fieldValue _ name field before after x decl vs _ _ hdecl hbefore =>
    simp only [Expr.Placed] at he
    exact ⟨hs.afterEvaluated (fun f hf => evalFields_simulates hE hcall (s.mirrors scope) decl _
      before hf (namedPlaced_append he).1) hbefore, hpart (by simp [Expr.parts])⟩
  | @connectorArg _ name before after x vs _ _ hbefore =>
    simp only [Expr.Placed] at he
    exact ⟨hs.afterEvaluated (fun f hf => evalArgs_simulates hE hcall (s.mirrors scope) before
      hf (eachPlaced_append he).1) hbefore, hpart (by simp [Expr.parts])⟩

theorem Task.Step.placedAt_results {e : Expr} (h : (Task.results s e).PlacedAt p m)
    (hstep : Task.Step p rounds (.results s e) m task m') : task.PlacedAt p m' := by
  obtain ⟨hs, hplaces⟩ := h
  have hpart {x : Expr} (hx : x ∈ e.parts) : s.Places x := hplaces.part hx
  obtain ⟨scope, base, he⟩ := hplaces
  cases hstep with
  | value => exact ⟨hs, scope, base, he⟩
  | actionTarget => exact ⟨hs, hpart (by simp [Expr.parts])⟩
  | callArg _ hbefore =>
    simp only [Expr.Placed, List.length_append, List.length_cons] at he
    exact ⟨hs.afterStageArgs hp hnatives (by omega) (stagedPlaced_append he.2.2).1 hbefore,
      hpart (by simp [Expr.parts])⟩
  | actionArg htarget _ hstaged hbefore =>
    have htarget' := hs.afterEval hp hnatives (hpart (by simp [Expr.parts])) htarget
    simp only [Expr.Placed, List.length_append, List.length_cons] at he
    exact ⟨(htarget'.afterSetTemp hstaged).afterStageArgs hp hnatives (by omega)
      (stagedPlaced_append he.2.2.2).1 hbefore, hpart (by simp [Expr.parts])⟩
  | called hunit | acted _ _ _ _ hunit => exact ⟨_, Program.find?_of_resolve hunit⟩

end Steps

/-- **Each step of a run keeps what is promised**: what a body is about to run is placed, on a frame
of the sizes of its function.

**Proof sketch.** There is one lemma for each kind of task. The parts of what is placed are placed.
A task that comes behind others is begun in the state these lead to, and expressions, statements and
calls leave the frame in its sizes. -/
theorem Task.Step.placedAt {task₁ task₂ : Task} {m₁ m₂ : Machine}
    (h : task₁.PlacedAt p m₁) (hstep : Task.Step p rounds task₁ m₁ task₂ m₂) :
    task₂.PlacedAt p m₂ := by
  cases task₁ with
  | call levels unit args =>
    cases hstep with
    | call hf hroom => exact ⟨h, _, _, _, hf, rfl⟩
  | dispatch => exact placedAt_dispatch hp h hstep
  | store =>
    cases hstep with
    | stored => trivial
  | block s ss =>
    cases hstep with
    | inBlock hbefore =>
      obtain ⟨hs, scope, hscope, hss⟩ := h
      obtain ⟨hbefore', hst⟩ := blockPlaced_append hscope hss
      exact ⟨hs.afterBlock hp hnatives hscope hbefore' hbefore, hst⟩
  | stmt => exact placedAt_stmt hp hnatives h hstep
  | loop => exact placedAt_loop hp hnatives h hstep
  | finish s index vs =>
    cases hstep with
    | @finished _ _ v w vs _ _ hw hset =>
      have hE := Program.mayEnd_of_not_isStorage (p := p)
      refine Site.OnFrame.after h (fun f _ => Simulates.setReturn hE index w)
        (fun f hf _ _ g _ hpost => ?_) hset
      obtain ⟨returns, rfl, -⟩ := hpost
      exact hf
  | write => exact placedAt_write hp hnatives h hstep
  | eval => exact placedAt_eval hp hnatives h hstep
  | results => exact placedAt_results hp hnatives h hstep

/-- What any task of a run is about to run is placed, if that of the first task is. -/
theorem Task.Reaches.placedAt {task task' : Task} {m m' : Machine} (h : task.PlacedAt p m)
    (hr : Task.Reaches p rounds task m task' m') : task'.PlacedAt p m' :=
  hr.invariant (I := fun task m => task.PlacedAt p m)
    (fun _ _ _ _ h hstep => hstep.placedAt hp hnatives h) h

/-! ### Errors -/

omit hp hnatives in
/-- Throwing away a value makes no error. -/
theorem error_of_discarded {x : Exec α} {m : Machine} {t : Stop}
    (h : (Exec.on (do let _ ← x) m).1 = .error t) : (x.on m).1 = .error t := by
  rw [on_bind] at h
  rcases hx : x.on m with ⟨t' | a, m'⟩
  · rw [hx] at h
    cases h
    rfl
  · rw [hx] at h
    cases h

/-- An error of a task is not about slots, or it comes from a handler. -/
theorem Task.PlacedAt.mayEnd {task : Task} {m : Machine} (h : task.PlacedAt p m) {t : Stop}
    (ht : ((task.exec p rounds).on m).1 = .error t) : p.MayEnd t := by
  have hE := Program.mayEnd_of_not_isStorage (p := p)
  cases task with
  | call levels unit args =>
    obtain ⟨name, hfound⟩ := h
    obtain ⟨_, _, -, r, hr, -, hmay, -⟩ :=
      call_unstaged hp hnatives rounds levels hfound args m m rfl
    have ht := error_of_discarded ht
    rw [hr] at ht
    exact hmay t ht
  | dispatch levels unit =>
    obtain ⟨⟨name, hfound⟩, args, f, fs, hf, hm⟩ := h
    cases unit with
    | native u =>
      have hunit := NativeUnit.run_error hm (argCount_le_of_prepare hf) ht
      exact hunit.imp_right fun hraises => ⟨name, u, hfound, hraises⟩
    | function function =>
      refine (bodiesAlike_unstaged hp hE name function hfound (FrameScript.call p rounds levels)
        (Unstaged.call p rounds levels) rounds (fun name unit hunit args => ?_) args f hf).error
          hm hm rfl ht
      exact call_unstaged hp hnatives rounds levels (Program.find?_of_resolve hunit) args
  | store unit index vs tys => exact .inl (storeResults_error ht)
  | block s ss =>
    obtain ⟨hs, scope, hscope, hss⟩ := h
    obtain ⟨f, fs, hm, hf⟩ := hs.top
    exact (Site.execBlock_unstaged hp hnatives rounds hf hscope hss).error hm hm rfl
      (error_of_discarded ht)
  | stmt s st =>
    obtain ⟨hs, scope, hscope, hst⟩ := h
    obtain ⟨f, fs, hm, hf⟩ := hs.top
    exact (Site.exec_unstaged hp hnatives rounds hf hscope hst).error hm hm rfl
      (error_of_discarded ht)
  | loop s cond body n =>
    obtain ⟨hs, ⟨scope', base, hcond⟩, scope, hscope, hbody⟩ := h
    obtain ⟨f, fs, hm, hf⟩ := hs.top
    exact (Site.loop_unstaged hp hnatives rounds n hf hcond hscope hbody).error hm hm rfl
      (error_of_discarded ht)
  | finish s index vs =>
    obtain ⟨f, fs, hm, hf⟩ := Site.OnFrame.top h
    exact (Site.writeResults_unstaged index vs hf).error hm hm rfl ht
  | write s v target =>
    obtain ⟨hs, scope, htarget⟩ := h
    obtain ⟨f, fs, hm, hf⟩ := hs.top
    exact (Site.write_unstaged hp hnatives rounds v hf htarget).error hm hm rfl ht
  | eval s e =>
    obtain ⟨hs, scope, base, he⟩ := h
    obtain ⟨f, fs, hm, hf⟩ := hs.top
    exact (Site.eval_unstaged hp hnatives rounds hf he).error hm hm rfl (error_of_discarded ht)
  | results s e =>
    obtain ⟨hs, scope, base, he⟩ := h
    obtain ⟨f, fs, hm, hf⟩ := hs.top
    exact (Site.results_unstaged hp hnatives rounds hf he).error hm hm rfl (error_of_discarded ht)

/-! ### What callees are handed -/

section HandedOver

variable {args : List Expr} {f f' : Frame} {scope : Scope} {stage : Nat}
  (hargs : StagedPlaced scope.slot? s.function.layout.slots.length s.function.layout.temps stage
    args)

include hargs

/-- Arguments of a call that are evaluated to a list, for comparison. -/
theorem Site.evalArgs_unstaged (rounds : Nat)
    (hf : Ready (SameSlots s.function.layout.slots) s.function.layout.temps f f') :
    Simulates p.MayEnd f f' (evalArgs (s.code p rounds) args)
      (Reference.evalArgs (onFrame s.function.layout.slots) (s.unstaged p rounds) () args)
      (Evaluated stage f f') := by
  induction args generalizing f stage with
  | nil =>
    simp only [evalArgs, Reference.evalArgs]
    exact .pure ⟨rfl, .refl stage f, rfl⟩
  | cons e es ih =>
    simp only [StagedPlaced] at hargs
    simp only [evalArgs, Reference.evalArgs]
    refine (eval_simulates Program.mayEnd_of_not_isStorage (Site.callsAlike hp hnatives rounds s)
      (s.mirrors scope) e hf hargs.1).andThen fun v g hg => ?_
    refine Simulates.andThen ?_ fun vs h _ => .pure ⟨rfl, .refl stage h, rfl⟩
    refine (ih hargs.2 ((s.mirrors (p := p) scope).ready hf hg)).weaken fun a b h h' hab => ?_
    exact ⟨hab.1, hab.2.1.weaken (Nat.le_succ stage), hab.2.2⟩

/-- What a call takes out of the frame is the list its arguments evaluate to. -/
theorem Site.takeStaged_unstaged (rounds : Nat) (hf : s.function.SizedFor f)
    (hroom : stage + args.length ≤ s.function.layout.temps) :
    Simulates p.MayEnd f f
      (do stageArgs (s.code p rounds) stage args; takeStaged stage args.length)
      (Reference.evalArgs (onFrame s.function.layout.slots) (s.unstaged p rounds) () args)
      (Evaluated stage f f) := by
  have hstaged := stageArgs_simulates Program.mayEnd_of_not_isStorage
    (Site.callsAlike hp hnatives rounds s) (s.mirrors scope) args hf hroom hargs
  rw [← bind_pure (Reference.evalArgs _ _ _ _)]
  refine hstaged.bind fun _ vs g g' hvs => ?_
  obtain ⟨hg, hcount, hvs, rfl⟩ := hvs
  rw [← bind_pure (takeStaged stage args.length)]
  exact .takeStaged_bind hcount hvs fun h hh => .pure ⟨rfl, hg.trans hh, rfl⟩

/-- What an action takes out of the frame is its connector and the list its arguments evaluate
to. -/
theorem Site.takeStaged_action_unstaged (rounds : Nat) (hf : s.function.SizedFor f)
    (target : Value) {base : Nat}
    (hstage : stage = base + 1) (hroom : base + 1 + args.length ≤ s.function.layout.temps) :
    Simulates p.MayEnd f f
      (do
        setTemp base target
        stageArgs (s.code p rounds) (base + 1) args
        takeStaged base (args.length + 1))
      (do
        let vs ← Reference.evalArgs (onFrame s.function.layout.slots) (s.unstaged p rounds) () args
        pure (target :: vs))
      (Evaluated base f f) := by
  subst hstage
  have hmirrors : Mirrors p.MayEnd (onFrame s.function.layout.slots) () scope.slot?
    s.function.layout.slots.length (SameSlots s.function.layout.slots) := s.mirrors scope
  have hlt : base < f.temps.length := by
    rw [hf.2]
    omega
  have hstaged := Simulates.setTemp_staged (v := target) hlt fun g hg =>
    stageArgs_simulates Program.mayEnd_of_not_isStorage (Site.callsAlike hp hnatives rounds s)
      hmirrors args (hmirrors.ready hf hg) hroom hargs
  rw [← bind_assoc]
  refine hstaged.bind_map (G := pure) fun _ vs g g' hvs => ?_
  obtain ⟨hg, hcount, hvs, rfl⟩ := hvs
  rw [← bind_pure (takeStaged base (args.length + 1))]
  exact .takeStaged_bind hcount hvs fun h hh => .pure ⟨rfl, hg.trans hh, rfl⟩

end HandedOver

/-- What a call takes out of the frame is what its arguments evaluate to, in the same state but for
staged values. -/
theorem Site.OnFrame.evalArgs_of_staged {m m' : Machine} (hs : s.OnFrame p m) {callee : String}
    {args : List Expr} {stage : Nat} (he : s.Places (.call callee args stage)) {vs : List Value}
    (h : Exec.on (do stageArgs (s.code p rounds) stage args; takeStaged stage args.length) m =
      (.ok vs, m')) :
    ∃ m'', (evalArgs (s.code p rounds) args).on m = (.ok vs, m'') ∧ m'.bare = m''.bare := by
  obtain ⟨scope, base, he⟩ := he
  obtain ⟨f, fs, hm, hf⟩ := hs.top
  simp only [Expr.Placed] at he
  obtain ⟨-, hroom, hargs⟩ := he
  have htaken := (Site.takeStaged_unstaged hp hnatives hargs rounds hf hroom).sameOutcome hm
  have hlist := (Site.evalArgs_unstaged hp hnatives hargs rounds hf).sameOutcome hm
  have hboth := htaken.trans hlist.symm
  rw [h] at hboth
  exact ⟨((evalArgs (s.code p rounds) args).on m).2, Prod.ext hboth.ending.symm rfl,
    hboth.bare vs rfl⟩

/-- What an action takes out of the frame is its connector and what its arguments evaluate to, in
the same state but for staged values. -/
theorem Site.OnFrame.evalArgs_of_staged_action {m m' : Machine} (hs : s.OnFrame p m)
    {target : Expr} {name : String} {args : List Expr} {stage : Nat}
    (he : s.Places (.action target name args stage)) {v : Value} {vs : List Value}
    (h : Exec.on (do
        setTemp stage v
        stageArgs (s.code p rounds) (stage + 1) args
        takeStaged stage (args.length + 1)) m = (.ok vs, m')) :
    ∃ ws m'', (evalArgs (s.code p rounds) args).on m = (.ok ws, m'') ∧ vs = v :: ws ∧
      m'.bare = m''.bare := by
  obtain ⟨scope, base, he⟩ := he
  obtain ⟨f, fs, hm, hf⟩ := hs.top
  simp only [Expr.Placed] at he
  obtain ⟨-, -, hroom, hargs⟩ := he
  have htaken :=
    (Site.takeStaged_action_unstaged hp hnatives hargs rounds hf v rfl hroom).sameOutcome hm
  have hlist := (Site.evalArgs_unstaged hp hnatives hargs rounds hf).sameOutcome hm
  rw [h] at htaken
  generalize Reference.evalArgs _ _ _ _ = x at htaken hlist
  rcases hx : x.on m with ⟨t | ws, m₂⟩
  · have hending := htaken.ending
    rw [on_bind, hx] at hending
    cases hending
  · rw [on_bind, hx] at htaken
    obtain rfl : vs = v :: ws := Except.ok.inj htaken.ending
    rw [hx] at hlist
    have hbare : m'.bare = m₂.bare := htaken.bare _ rfl
    refine ⟨ws, ((evalArgs (s.code p rounds) args).on m).2, Prod.ext hlist.ending rfl, rfl, ?_⟩
    exact hbare.trans (hlist.bare ws hlist.ending).symm

/-- **A call hands over the values of its arguments**, as they are evaluated in order. -/
theorem Task.PlacedAt.called {callee : String} {args : List Expr} {stage levels : Nat}
    {unit : Callable} {vs : List Value} {m m' : Machine}
    (h : (Task.results s (.call callee args stage)).PlacedAt p m)
    (hstep : Task.Step p rounds (.results s (.call callee args stage)) m (.call levels unit vs)
      m') :
    ∃ m'', (evalArgs (s.code p rounds) args).on m = (.ok vs, m'') ∧ m'.bare = m''.bare := by
  cases hstep with
  | called hunit hstaged hvs =>
    refine h.1.evalArgs_of_staged hp hnatives h.2 ?_
    rw [on_bind, hstaged]
    exact hvs

/-- **An action hands over its connector and the values of its arguments**, as they are evaluated in
order. -/
theorem Task.PlacedAt.acted {target : Expr} {name : String} {args : List Expr}
    {stage levels : Nat} {unit : Callable} {vs : List Value} {m m' : Machine}
    (h : (Task.results s (.action target name args stage)).PlacedAt p m)
    (hstep : Task.Step p rounds (.results s (.action target name args stage)) m
      (.call levels unit vs) m') :
    ∃ v m₁ ws m₂, (target.eval (s.code p rounds)).on m = (.ok v, m₁) ∧
      (evalArgs (s.code p rounds) args).on m₁ = (.ok ws, m₂) ∧ vs = v :: ws ∧
        m'.bare = m₂.bare := by
  have hplaces := h.2
  obtain ⟨hs, scope, base, he⟩ := h
  simp only [Expr.Placed] at he
  cases hstep with
  | @acted _ _ _ connector _ _ _ v _ _ m₁ m₂ m₃ _ htarget hconnector hset hstaged hunit hvs =>
    have hs₁ := hs.afterEval hp hnatives ⟨scope, base, he.1⟩ htarget
    have htaken : Exec.on (do
        setTemp stage v
        stageArgs (s.code p rounds) (stage + 1) args
        takeStaged stage (args.length + 1)) m₁ = (.ok vs, m') := by
      rw [on_bind, hset]
      dsimp only
      rw [on_bind, hstaged]
      exact hvs
    obtain ⟨ws, m₂, hargs, hlist, hbare⟩ :=
      hs₁.evalArgs_of_staged_action hp hnatives hplaces htaken
    exact ⟨v, m₁, ws, m₂, htarget, hargs, hlist, hbare⟩

end Run

/-! ## The standard library -/

namespace Library

/-- A computation that leaves the frames as they are, and on a frame that holds its arguments never
fails for want of a slot. -/
def ReadsArguments (x : Exec α) : Prop :=
  ∀ (m : Machine) (f : Frame) (fs : List Frame), m.context.frames = f :: fs →
    f.argCount ≤ f.slots.length →
      (x.on m).2.context.frames = f :: fs ∧ ∀ s, (x.on m).1 = .error s → s.isStorage = false

theorem readsArguments_bind {x : Exec α} {F : α → Exec β} (hx : ReadsArguments x)
    (hF : ∀ a, ReadsArguments (F a)) : ReadsArguments (x >>= F) := by
  intro m f fs hm hf
  obtain ⟨hframes, herror⟩ := hx m f fs hm hf
  rw [on_bind]
  rcases hx : x.on m with ⟨s | a, m₁⟩
  · rw [hx] at hframes herror
    refine ⟨hframes, fun s' hs' => ?_⟩
    cases hs'
    exact herror s rfl
  · rw [hx] at hframes
    exact hF a m₁ f fs hframes hf

theorem readsArguments_argument (index : Nat) : ReadsArguments (argument index) := by
  intro m f fs hm hf
  rw [on_argument_of_frames hm]
  rcases h : f.argument index with e | v
  · refine ⟨hm, fun s hs => ?_⟩
    cases hs
    unfold Frame.argument Frame.nullableArgument Frame.get at h
    by_cases hindex : index < f.argCount
    · rw [if_pos hindex, List.getElem?_eq_getElem (by omega)] at h
      dsimp only at h
      split at h <;> cases h
      rfl
    · rw [if_neg hindex] at h
      cases h
      rfl
  · exact ⟨hm, fun s hs => by cases hs⟩

/-- Reading arguments only is a property of the steps of the standard library. -/
theorem closed_readsArguments : Library.Closed fun _ x => ReadsArguments x where
  pure _ _ _ _ hm _ := ⟨hm, fun _ hs => by cases hs⟩
  bind := readsArguments_bind
  hostError _ _ _ _ hm _ := ⟨hm, fun _ hs => by cases hs; rfl⟩
  defect _ _ _ _ hm _ := ⟨hm, fun _ hs => by cases hs; rfl⟩
  argument := readsArguments_argument
  heap _ _ _ hm _ := ⟨hm, fun _ hs => by cases hs⟩
  newArray _ _ _ _ _ hm _ := ⟨hm, fun _ hs => by cases hs⟩
  eraseEntry _ _ _ _ _ hm _ := ⟨hm, fun _ hs => by cases hs⟩
  print _ _ _ _ hm _ := ⟨hm, fun _ hs => by cases hs⟩
  property? _ _ _ _ hm _ := ⟨hm, fun _ hs => by cases hs⟩

/-- No unit of the standard library fails for want of a slot. -/
theorem standard_raises {key : String} {unit : NativeUnit} (h : (key, unit) ∈ standard.units)
    {s : Stop} (hs : unit.Raises s) : s.isStorage = false := by
  obtain ⟨package, hpackage, hmem⟩ := mem_standard h
  obtain ⟨m, f, fs, hm, hf, hraises⟩ := hs
  have hreads := closed_readsArguments.handler hpackage hmem
  rcases hstorage : s.isStorage with _ | _
  · rfl
  · refine absurd ?_ hraises
    unfold Handler.Has at hreads ⊢
    split at hreads
    · intro hrun
      rw [(hreads m f fs hm hf).2 s hrun] at hstorage
      cases hstorage
    · intro hrun
      rw [(hreads m f fs hm hf).2 s hrun] at hstorage
      cases hstorage

end Library

/-- **Staging hands over the values of the arguments.** Let a program load with native units that
work on the frames of their own calls, and let any of its callables be called, with any arguments in
any state. Then the call ends as it does when evaluated arguments are handed over as a list, and
unless a loop has used up its rounds the state afterwards is the same; so does each evaluation
inside the run, with the same state but for staged values. Whenever a call or an action begins
its callee, the callee gets the list that its arguments evaluate to from where they are due, for
an action behind its connector. And a slot that is missing, empty or unknown is never complained
of, unless by the handler of a native unit.

**Proof sketch.** Laid out bodies are placed: what a call stages lies above what waits for it and
inside the frame. So a placed body ends as its unstaged run does if its callees do, and by induction
on the levels all callees do. Each step of a run leads to bodies on frames of their sizes, where the
same is said of every evaluation. -/
theorem staging_hands_over {source : Source} {natives : Registry} {p : Program}
    (hload : Program.load source natives = .ok p)
    (hnatives : ∀ key unit, (key, unit) ∈ natives.units → unit.Confined)
    {name : String} {unit : Callable} (hunit : p.find? name = some unit) (rounds levels : Nat)
    (args : List Value) (m : Machine) :
    (SameOutcome ((call p rounds levels unit args).on m)
        ((Unstaged.call p rounds levels unit args).on m) ∧
      (((call p rounds levels unit args).on m).1 ≠ .error .exhausted →
        (call p rounds levels unit args).on m = (Unstaged.call p rounds levels unit args).on m)) ∧
    (∀ s e m₁, Task.Reaches p rounds (.call levels unit args) m (.eval s e) m₁ →
      SameOutcome ((e.eval (s.code p rounds)).on m₁)
        ((Unstaged.eval (s.unstaged p rounds) e).on m₁)) ∧
    (∀ s e m₁, Task.Reaches p rounds (.call levels unit args) m (.results s e) m₁ →
      SameOutcome ((e.results (s.code p rounds)).on m₁)
        ((Unstaged.results (s.unstaged p rounds) e).on m₁)) ∧
    (∀ s callee es stage m₁ levels' unit' vs m₂,
      Task.Reaches p rounds (.call levels unit args) m (.results s (.call callee es stage)) m₁ →
      Task.Step p rounds (.results s (.call callee es stage)) m₁ (.call levels' unit' vs) m₂ →
        ∃ m₃, (evalArgs (s.code p rounds) es).on m₁ = (.ok vs, m₃) ∧ m₂.bare = m₃.bare) ∧
    (∀ s target action es stage m₁ levels' unit' vs m₂,
      Task.Reaches p rounds (.call levels unit args) m
        (.results s (.action target action es stage)) m₁ →
      Task.Step p rounds (.results s (.action target action es stage)) m₁
        (.call levels' unit' vs) m₂ →
        ∃ v m₁' ws m₃, (target.eval (s.code p rounds)).on m₁ = (.ok v, m₁') ∧
          (evalArgs (s.code p rounds) es).on m₁' = (.ok ws, m₃) ∧ vs = v :: ws ∧
            m₂.bare = m₃.bare) ∧
    ∀ task m₁ t, Task.Reaches p rounds (.call levels unit args) m task m₁ →
      ((task.exec p rounds).on m₁).1 = .error t → t.isStorage = true →
        ∃ key native, (key, native) ∈ natives.units ∧ native.Raises t := by
  have hp := Program.load_linked hload
  have hconfined := hp.nativesConfined hnatives
  have hplaced {task : Task} {m₁ : Machine}
      (hr : Task.Reaches p rounds (.call levels unit args) m task m₁) : task.PlacedAt p m₁ :=
    Task.Reaches.placedAt hp hconfined
      (show (Task.call levels unit args).PlacedAt p m from ⟨name, hunit⟩) hr
  refine ⟨(call_unstaged hp hconfined rounds levels hunit args).sameOutcome m, ?_, ?_, ?_, ?_, ?_⟩
  · intro s e m₁ hr
    obtain ⟨hs, scope, base, he⟩ := hplaced hr
    obtain ⟨f, fs, hm, hf⟩ := hs.top
    exact (Site.eval_unstaged hp hconfined rounds hf he).sameOutcome hm
  · intro s e m₁ hr
    obtain ⟨hs, scope, base, he⟩ := hplaced hr
    obtain ⟨f, fs, hm, hf⟩ := hs.top
    exact (Site.results_unstaged hp hconfined rounds hf he).sameOutcome hm
  · intro s callee es stage m₁ levels' unit' vs m₂ hr hstep
    exact (hplaced hr).called hp hconfined hstep
  · intro s target action es stage m₁ levels' unit' vs m₂ hr hstep
    exact (hplaced hr).acted hp hconfined hstep
  · intro task m₁ t hr ht hstorage
    rcases (hplaced hr).mayEnd hp hconfined ht with hfree | ⟨name, native, hfound, hraises⟩
    · rw [hfree] at hstorage
      cases hstorage
    · cases hp.comesFrom hfound with
      | registered hmem => exact ⟨_, native, hmem, hraises⟩

/-- A program with calls inside the arguments of calls. -/
def nestedSource : Source where
  functions := [
    { name := "sum"
      params := [⟨"a", .int⟩, ⟨"b", .int⟩]
      returns := [.int]
      body := [.result [.binary .add (.var ⟨"a", none⟩) (.var ⟨"b", none⟩)]] },
    { name := "main"
      params := [⟨"n", .int⟩]
      returns := [.int]
      body := [.result [.call "sum" [
        .call "sum" [.var ⟨"n", none⟩, .int 1] 0,
        .call "sum" [.int 2, .call "sum" [.var ⟨"n", none⟩, .var ⟨"n", none⟩] 0] 0] 0]] }]

/-- With the standard library this program ends as without staging, and its slots suffice. -/
theorem staging_hands_over_nested :
    ∃ (p : Program) (unit : Callable), Program.load nestedSource Library.standard = .ok p ∧
      p.find? "main" = some unit ∧
      (∀ m, SameOutcome ((call p 10 5 unit [.int 3]).on m)
        ((Unstaged.call p 10 5 unit [.int 3]).on m)) ∧
      ∀ m task m₁ t, Task.Reaches p 10 (.call 5 unit [.int 3]) m task m₁ →
        ((task.exec p 10).on m₁).1 = .error t → t.isStorage = false := by
  have hloads : Program.loadsWith nestedSource Library.standard "main" = true := by
    decide +kernel
  obtain ⟨p, unit, hload, hunit⟩ := Program.exists_of_loadsWith hloads
  have hnatives (key : String) (u : NativeUnit) (h : (key, u) ∈ Library.standard.units) :
      u.Confined := Library.standard_confined h
  have hstaging := staging_hands_over hload hnatives hunit 10 5 [.int 3]
  refine ⟨p, unit, hload, hunit, fun m => (hstaging m).1.1, fun m task m₁ t hr ht => ?_⟩
  rcases hstorage : t.isStorage with _ | _
  · rfl
  · obtain ⟨key, native, hmem, hraises⟩ := (hstaging m).2.2.2.2.2 task m₁ t hr ht hstorage
    rw [Library.standard_raises hmem hraises] at hstorage
    cases hstorage

end FrameScript
