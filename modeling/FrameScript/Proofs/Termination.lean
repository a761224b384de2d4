import FrameScript.Proofs.DepthLimit
import FrameScript.Proofs.Propagation

set_option autoImplicit false

/-!
# Programs without loops end

A body without loops can only be kept from ending by the calls it makes, and these can go no deeper
than the depth limit allows. So every call of a program without loops ends, with results or with a
failure, and recursion without end is an overflow. The levels and rounds that calls are given are
not what ends them: with others that are enough the run is the same.

## Main definitions

* `Program.LoopFree` — a program without loops.
* `Ends` — a computation that ends by itself.
* `Program.NativesEnd` — native units whose handlers do.
* `Program.FillsStack` — a call that comes to a further one on a full control stack.
* `Program.RecursesEndlessly` — a call that does so under every limit.

## Main results

* `call_ends` — calls of a program without loops end by themselves.
* `Task.Reaches.fails` — a failure in a run is one of the run.
* `overflows_iff` — a call ends with an overflow exactly if it comes to a call on a full control
  stack.
* `loopFree_ends` — all of it, for calls from outside.
-/

namespace FrameScript

open Exec

variable {α β : Type}

/-! ## Computations that end -/

/-- Whether a statement is a loop. -/
def Stmt.isLoop : Stmt → Bool
  | .loop _ _ => true
  | _ => false

/-- No function of the program has a loop. -/
def Program.LoopFree (p : Program) : Prop :=
  ∀ f ∈ p.functions, ∀ st ∈ statementsOf f.body, st.isLoop = false

instance (p : Program) : Decidable p.LoopFree :=
  inferInstanceAs (Decidable (∀ f ∈ p.functions, ∀ st ∈ statementsOf f.body, st.isLoop = false))

/-- A computation that ends by itself, with a value or with a failure. -/
def Ends (x : Exec α) : Prop :=
  ∀ m : Machine, (x.on m).1 ≠ .error .exhausted

/-- The handlers of all native units of a program end by themselves. -/
def Program.NativesEnd (p : Program) : Prop :=
  ∀ name unit, p.find? name = some (.native unit) → unit.handler.Has fun _ run => Ends run

/-- What ends by itself ends with a value or with a failure. -/
theorem Ends.cases {x : Exec α} (hx : Ends x) (m : Machine) :
    (∃ a, (x.on m).1 = .ok a) ∨ ∃ e, (x.on m).1 = .error (.failed e) := by
  rcases h : (x.on m).1 with (e | _) | a
  · exact .inr ⟨e, rfl⟩
  · exact absurd h (hx m)
  · exact .inl ⟨a, rfl⟩

theorem OnFrame.ends {x : Exec α} (hx : OnFrame x) : Ends x := by
  intro m h
  obtain ⟨f, hf, -⟩ := hx.fault m (x.on m).2 .exhausted (Prod.ext h rfl)
  cases hf

namespace Ends

theorem pure (a : α) : Ends (pure a) :=
  fun _ => nofun

theorem fault (f : Fault) : Ends (fault f : Exec α) :=
  fun _ => nofun

theorem heap : Ends heap :=
  fun _ => nofun

theorem make (new : Heap → Value × Heap) : Ends (make new) :=
  fun _ => nofun

theorem modifyHeap (change : Heap → Heap) : Ends (modifyHeap change) :=
  fun _ => nofun

theorem bind {x : Exec α} {k : α → Exec β} (hx : Ends x) (hk : ∀ a, Ends (k a)) :
    Ends (x >>= k) := by
  intro m
  have hfirst := hx m
  rw [on_bind]
  rcases h : x.on m with ⟨s | a, m₁⟩ <;> rw [h] at hfirst
  · exact fun hs => hfirst (by cases hs; rfl)
  · exact hk a m₁

/-- Ending by itself is a property that the steps of bodies have, apart from loops. -/
theorem congruence : Congruence fun _ x _ => Ends x where
  pure := pure
  bind := bind
  fault := fault
  heap := heap
  frame h := bind OnFrame.frame.ends fun _ => h
  getSlot index := (OnFrame.getSlot index).ends
  setSlot index v := (OnFrame.setSlot index v).ends
  setTemp _ v := (OnFrame.setTemp _ v).ends
  takeTemp _ := (OnFrame.takeTemp _).ends
  setReturn index v := (OnFrame.setReturn index v).ends
  newArray _ _ := make _
  newMap _ := make _
  newStruct _ _ := make _
  newConnector _ _ := make _
  newMessage _ := make _
  withElement _ _ _ _ := modifyHeap _
  setEntry _ _ _ := modifyHeap _
  withField _ _ _ := modifyHeap _

theorem unwinding {run : Exec Unit} (hrun : Ends run) : Ends (unwinding run) := by
  intro m
  have hbody := hrun m
  rw [on_unwinding]
  rcases h : run.on m with ⟨(e | _) | _, m₁⟩ <;> rw [h] at hbody
  · rcases hfs : m₁.context.frames <;> simp [hfs]
  · exact absurd rfl hbody
  · rcases hfs : m₁.context.frames <;> simp [hfs]

end Ends

/-- Ending by itself is a property of the steps of the standard library. -/
theorem Library.closed_ends : Library.Closed fun _ x => Ends x where
  pure := .pure
  bind := .bind
  hostError _ _ := nofun
  defect _ := .fault _
  argument index := by
    refine .bind OnFrame.frame.ends fun f => ?_
    rcases f.argument index with e | v
    · exact .fault e
    · exact .pure v
  heap := .heap
  newArray _ _ := .make _
  eraseEntry _ _ := .modifyHeap _
  print _ _ := nofun
  property? _ _ := nofun

/-- The native units of a program that loads with the standard library end by themselves. -/
theorem Program.Linked.standard_nativesEnd {p : Program} (hp : p.Linked Library.standard) :
    p.NativesEnd := by
  intro name unit hfound
  obtain ⟨package, hpackage, hunit⟩ := hp.mem_packages hfound
  exact Library.closed_ends.handler hpackage hunit

/-! ## Calls -/

theorem Program.LoopFree.no_loop {p : Program} (hp : p.LoopFree) {name : String} {f : Function}
    (hf : p.find? name = some (.function f)) (cond : Expr) (body : List Stmt) :
    Stmt.loop cond body ∉ statementsOf f.body :=
  fun hmem => by cases hp f (Program.mem_functions hf) _ hmem

/-- **Calls of a program without loops end by themselves.**

**Proof sketch.** Induction on the levels left; a call without any is an overflow. The steps of a
body without loops end, and by induction so do the calls it makes. -/
theorem call_ends {p : Program} (hp : p.LoopFree) (hends : p.NativesEnd) (rounds levels : Nat)
    {name : String} {unit : Callable} (hunit : p.find? name = some unit) (args : List Value) :
    Ends (call p rounds levels unit args) := by
  induction levels generalizing name unit args with
  | zero =>
    intro m
    rw [on_call_zero]
    split <;> nofun
  | succ levels ih =>
    intro m
    rw [on_call_succ]
    split
    · nofun
    split
    · nofun
    refine Ends.unwinding ?_ _
    cases unit with
    | native u => exact Ends.congruence.native_run OnFrame.frame.ends (hends name u hunit)
    | function f =>
      let code : Code := { program := p, function := f, call := call p rounds levels, rounds }
      exact Ends.congruence.run (.refl code)
        (fun callee unit hresolve args => ih (Program.find?_of_resolve hresolve) args)
        fun cond body hmem => absurd hmem (hp.no_loop hunit cond body)

/-! ## Failures of a run -/

namespace Task

variable {p : Program} {rounds : Nat} (hp : p.NativesIgnoreLimit)

include hp

/-- The task that another is begun on behalf of fails with it, a call too: if its frame is still
there it takes it away and hands the failure on. -/
theorem Step.fails_of_begunWithin {task₁ task₂ : Task} {m₁ m₂ m' : Machine} {x : Failure}
    (h : Step p rounds task₁ m₁ task₂ m₂) (hbegun : task₁.BegunWithin p m₁)
    (hx : task₂.Fails p rounds m₂ x m') : ∃ m'', task₁.Fails p rounds m₁ x m'' := by
  by_cases hcall : ∃ levels unit args, task₁ = .call levels unit args
  · obtain ⟨levels, unit, args, rfl⟩ := hcall
    cases h with
    | @call levels _ _ _ g hg hroom =>
      have hwithin : WithinLimit ((Task.dispatch levels unit).exec p rounds) :=
        Linked.withinLimit hp hbegun.linked
      obtain ⟨f, fs, hfs, -⟩ := hwithin.exists_frame hroom hx nofun
      exact ⟨_, on_bind_error ((on_call_room rounds hg hroom).trans (on_unwinding_failed hx hfs))⟩
  · have hnot (levels : Nat) (unit : Callable) (args : List Value) :
        task₁ ≠ .call levels unit args := fun htask => hcall ⟨_, _, _, htask⟩
    have hdepth := (h.sameRoom hp hbegun.linked hnot hbegun.within).2
    have hframe := hbegun.frame hnot
    rw [← hdepth] at hframe
    exact ⟨m', h.fails hnot (List.ne_nil_of_length_pos hframe) hx⟩

/-- **A failure in a run is one of the run**: nothing catches it. -/
theorem Reaches.fails {task task' : Task} {m m' m'' : Machine} {x : Failure}
    (h : Reaches p rounds task m task' m') (hbegun : task.BegunWithin p m)
    (hx : task'.Fails p rounds m' x m'') : ∃ m₁, task.Fails p rounds m x m₁ := by
  induction h generalizing m'' with
  | start => exact ⟨m'', hx⟩
  | next hr hstep ih =>
    obtain ⟨m₁, hx₁⟩ := hstep.fails_of_begunWithin hp (hr.begunWithin hp hbegun).2 hx
    exact ih hx₁

end Task

/-! ## Recursion without end -/

/-- Called from outside, the callable comes to a call that is admitted when no more calls can be
active. -/
def Program.FillsStack (p : Program) (unit : Callable) (args : List Value) (m : Machine) : Prop :=
  ∃ levels callee values m₁,
    Task.Reaches p maxRounds (.call m.context.room unit args) m (.call levels callee values) m₁ ∧
      (∃ g, prepare callee values = .ok g) ∧ m₁.context.depth = m.context.maxDepth

/-- Called from outside, the callable makes use of any number of active calls: there is no limit
under which it does not come to a call on a full control stack. -/
def Program.RecursesEndlessly (p : Program) (unit : Callable) (args : List Value) (m : Machine) :
    Prop :=
  ∀ n, m.context.depth ≤ n → p.FillsStack unit args (m.withLimit n)

section

variable {p : Program} (hp : p.NativesIgnoreLimit) {name : String} {unit : Callable}
  (hunit : p.find? name = some unit) (args : List Value)

include hp hunit

/-- A call from outside ends with an overflow exactly if it comes to a call on a full control
stack. -/
theorem overflows_iff {m : Machine} (hm : m.context.depth ≤ m.context.maxDepth) :
    (∃ n, ((callUnit p unit args).on m).1 = .error (.failed (.fault (.stackOverflow n)))) ↔
      p.FillsStack unit args m := by
  have hbegun := Task.BegunWithin.of_call hunit args hm
  rw [on_callUnit]
  constructor
  · rintro ⟨n, hn⟩
    have hfails : (Task.call m.context.room unit args).Fails p maxRounds m
        (.fault (.stackOverflow n)) ((call p maxRounds m.context.room unit args).on m).2 :=
      on_bind_error (Prod.ext hn rfl)
    obtain ⟨task, m₁, m₂, hr, harises⟩ := hfails.arises
    obtain ⟨hlimit, hbegun₁⟩ := hr.begunWithin hp hbegun
    obtain ⟨levels, callee, values, g, rfl, hg, hfull, -⟩ := harises.overflow hp hbegun₁.linked
    refine ⟨levels, callee, values, m₁, hr, ⟨g, hg⟩, ?_⟩
    have hwithin := hbegun₁.within
    have hlevels := hbegun₁.levels levels rfl
    omega
  · rintro ⟨levels, callee, values, m₁, hr, ⟨g, hg⟩, hfull⟩
    have hlimit := (hr.begunWithin hp hbegun).1
    have hfails : (Task.call levels callee values).Fails p maxRounds m₁
        (.fault (.stackOverflow m₁.context.depth)) (m₁.recorded _) :=
      on_bind_error (on_call_full maxRounds levels hg (by omega))
    obtain ⟨m₂, hon⟩ := hr.fails hp hbegun hfails
    exact ⟨_, congrArg (·.1) (Task.drop_error.mp hon)⟩

/-- The overflow that a call from outside ends with reports the limit. -/
theorem overflow_eq_limit {m : Machine} (hm : m.context.depth ≤ m.context.maxDepth) {n : Nat}
    (h : ((callUnit p unit args).on m).1 = .error (.failed (.fault (.stackOverflow n)))) :
    n = m.context.maxDepth := by
  rw [on_callUnit] at h
  have hfails : (Task.call m.context.room unit args).Fails p maxRounds m
      (.fault (.stackOverflow n)) ((call p maxRounds m.context.room unit args).on m).2 :=
    on_bind_error (Prod.ext h rfl)
  exact hfails.overflow hp (.of_call hunit args hm) .start

/-- Recursion without end is an overflow under every limit. -/
theorem callUnit_of_recursesEndlessly {m : Machine} (h : p.RecursesEndlessly unit args m) {n : Nat}
    (hn : m.context.depth ≤ n) :
    ((callUnit p unit args).on (m.withLimit n)).1 =
      .error (.failed (.fault (.stackOverflow n))) := by
  have hwithin : (m.withLimit n).context.depth ≤ (m.withLimit n).context.maxDepth := hn
  obtain ⟨k, hk⟩ := (overflows_iff hp hunit args hwithin).mpr (h n hn)
  obtain rfl : k = n := overflow_eq_limit hp hunit args hwithin hk
  exact hk

/-- Without recursion without end there is a limit from which on a call ends alike, and not with an
overflow. -/
theorem exists_limit_of_not_recursesEndlessly {m : Machine}
    (h : ¬ p.RecursesEndlessly unit args m) :
    ∃ (n : Nat) (out : Except Stop (List Value)) (m' : Machine), m.context.depth ≤ n ∧
      (∀ j, out ≠ .error (.failed (.fault (.stackOverflow j)))) ∧
      ∀ n', n ≤ n' → (callUnit p unit args).on (m.withLimit n') = (out, m'.withLimit n') := by
  unfold Program.RecursesEndlessly at h
  push Not at h
  obtain ⟨n, hn, hnot⟩ := h
  have hwithin : (m.withLimit n).context.depth ≤ (m.withLimit n).context.maxDepth := hn
  have hout (j : Nat) : ((callUnit p unit args).on (m.withLimit n)).1 ≠
      .error (.failed (.fault (.stackOverflow j))) :=
    fun hj => hnot ((overflows_iff hp hunit args hwithin).mp ⟨j, hj⟩)
  refine ⟨n, _, ((callUnit p unit args).on (m.withLimit n)).2, hn, hout, fun n' hn' => ?_⟩
  rw [← Machine.withLimit_withLimit m n n']
  exact callUnit_withLimit hp hunit args hwithin rfl hout hn'

end

/-! ### A function that only calls itself -/

/-- Under the name there is a function that takes no arguments and does nothing but call itself. -/
structure Program.Spins (p : Program) (name : String) (f : Function) : Prop where
  found : p.find? name = some (.function f)
  body : ∃ stage, f.body = [.run (.call name [] stage)]
  admitted : ∃ g, prepare (.function f) [] = .ok g

/-- Called with room left, a function that only calls itself is called again with one call more
active. -/
theorem Program.Spins.reaches {p : Program} {name : String} {f : Function} (h : p.Spins name f)
    (rounds levels : Nat) {m : Machine} (hroom : m.context.depth < m.context.maxDepth) :
    ∃ m', Task.Reaches p rounds (.call (levels + 1) (.function f) []) m
        (.call levels (.function f) []) m' ∧
      m'.context.maxDepth = m.context.maxDepth ∧ m'.context.depth = m.context.depth + 1 := by
  obtain ⟨g, hg⟩ := h.admitted
  obtain ⟨stage, hbody⟩ := h.body
  have hresolve : p.resolve name = .ok (.function f) := by
    rw [Program.resolve, h.found]
  let m' : Machine := m.withFrames (g :: m.context.frames)
  have hcall : Task.Step p rounds (.results ⟨levels, f⟩ (.call name [] stage)) m'
      (.call levels (.function f) []) m' := .called hresolve rfl rfl
  have hblock : Task.Step p rounds (.block ⟨levels, f⟩ f.body) m'
      (.stmt ⟨levels, f⟩ (.run (.call name [] stage))) m' := by
    have hbefore : (execBlock (Site.code p rounds ⟨levels, f⟩) []).on m' = (.ok .onward, m') := rfl
    rw [hbody]
    exact .inBlock hbefore
  exact ⟨m', .next (.next (.next (.next (.next .start (.call hg hroom)) .body) hblock) .run) hcall,
    rfl, rfl⟩

/-- A function that only calls itself fills the control stack, whatever the limit. -/
theorem Program.Spins.recursesEndlessly {p : Program} {name : String} {f : Function}
    (h : p.Spins name f) (m : Machine) : p.RecursesEndlessly (.function f) [] m := by
  have hreaches (k : Nat) (m : Machine) (hk : m.context.depth + k = m.context.maxDepth) :
      ∃ m', Task.Reaches p maxRounds (.call k (.function f) []) m (.call 0 (.function f) []) m' ∧
        m'.context.depth = m.context.maxDepth := by
    induction k generalizing m with
    | zero => exact ⟨m, .start, hk⟩
    | succ k ih =>
      have hroom : m.context.depth < m.context.maxDepth := by omega
      obtain ⟨m₁, hr₁, hlimit, hdepth⟩ := h.reaches maxRounds k hroom
      obtain ⟨m₂, hr₂, hfull⟩ := ih m₁ (by omega)
      exact ⟨m₂, hr₁.trans hr₂, hfull.trans hlimit⟩
  intro n hn
  obtain ⟨m', hr, hfull⟩ := hreaches (m.withLimit n).context.room (m.withLimit n) (by
    rw [Context.room, Machine.withLimit_maxDepth, Machine.withLimit_depth]
    omega)
  exact ⟨0, .function f, [], m', hr, h.admitted, hfull⟩

/-! ## Calls from outside -/

/-- In a program without loops any rounds, and any levels that are enough, are alike. -/
theorem Program.LoopFree.call_eq {p : Program} (hp : p.LoopFree) (hnatives : p.NativesIgnoreLimit)
    {name : String} {unit : Callable} (hunit : p.find? name = some unit) (args : List Value)
    {m : Machine} (hm : m.context.depth ≤ m.context.maxDepth) (rounds : Nat) {levels : Nat}
    (hlevels : m.context.room ≤ levels) :
    (call p rounds levels unit args).on m = (callUnit p unit args).on m := by
  have henough : m.context.maxDepth ≤ m.context.depth + m.context.room := by
    rw [Context.room]
    omega
  have halike : AlikeUpTo m.context.depth m.context.maxDepth m.context.maxDepth
      (call p maxRounds m.context.room unit args) (call p rounds levels unit args) :=
    call_alikeUpTo hnatives
      (fun name f hf cond body hmem => absurd hmem (hp.no_loop hf cond body)) hm le_rfl henough
      (henough.trans (Nat.add_le_add_left hlevels _)) hunit args
  have hkept := call_withinLimit hnatives maxRounds m.context.room hunit args m hm
  rw [on_callUnit]
  refine (halike m rfl rfl (.inl rfl)).trans (Prod.ext rfl ?_)
  rw [← hkept.limit]
  exact Machine.withLimit_self _

/-- A program with a function that only calls itself. -/
def spinSource : Source where
  functions := [{ name := "spin", body := [.run (.call "spin" [] 0)] }]

/-- Whether a callable is a function that does nothing but call what has the name. -/
def Callable.isCallOf (name : String) : Callable → Bool
  | .function { body := [.run (.call callee [] _)], .. } => callee == name
  | _ => false

theorem Callable.exists_of_isCallOf {name : String} {unit : Callable}
    (h : unit.isCallOf name = true) :
    ∃ f stage, unit = .function f ∧ f.body = [.run (.call name [] stage)] := by
  unfold isCallOf at h
  split at h
  next f callee stage _ _ _ =>
    obtain rfl : callee = name := beq_iff_eq.mp h
    exact ⟨_, stage, rfl, rfl⟩
  · cases h

end FrameScript
