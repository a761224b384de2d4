import FrameScript.Proofs.Closed
import FrameScript.Proofs.Discipline
import FrameScript.Proofs.Operators
import FrameScript.Proofs.Run

set_option autoImplicit false

/-!
# Computations that keep a discipline

A triple for computations: started in a state that obeys a discipline, they end in one that does,
under a heap typing that may have grown, and what they end with is as the postcondition says. The
rules follow the building blocks of bodies and of calls.

## Main definitions

* `Context.names` — the names of the active calls, the innermost first.
* `Keeps` — the triple.
* `Ensures` — what is so of all values that a computation ends with, whatever it does.

## Main results

* `Keeps.bind` — the rule of sequences.
* `Keeps.getSlot`, `Keeps.setSlot`, … — the rules of the steps on a frame.
* `Keeps.unwinding` — the rule of whole calls.
-/

namespace FrameScript

open Exec

/-- The names of the active calls, the innermost first. -/
def Context.names (c : Context) : List String :=
  c.frames.map (·.unit)

/-- From a state that obeys the discipline, with the named calls active, the computation leads to a
state that obeys it. The same calls are active then, unless a loop has used up its rounds, and a
value it ends with satisfies the postcondition. -/
def Keeps (D : Discipline) (p : Program) {α : Type} (names : List String) (t : HeapTyping)
    (x : Exec α) (post : HeapTyping → α → Prop) : Prop :=
  ∀ m : Machine, m.Obeys D p t → m.context.names = names →
    ∃ u, t ≤ u ∧ (x.on m).2.Obeys D p u ∧
      ((x.on m).1 = .error .exhausted ∨ (x.on m).2.context.names = names) ∧
      ∀ a, (x.on m).1 = .ok a → post u a

/-- From a state that obeys the discipline, with the named calls active, all values that the
computation ends with satisfy the postcondition. -/
def Ensures (D : Discipline) (p : Program) {α : Type} (names : List String) (x : Exec α)
    (post : α → Prop) : Prop :=
  ∀ (m : Machine) (t : HeapTyping), m.Obeys D p t → m.context.names = names →
    ∀ a, (x.on m).1 = .ok a → post a

namespace Keeps

variable {D : Discipline} {p : Program} {α β : Type} {names : List String} {t u : HeapTyping}

/-- What a triple says of values without their objects. -/
theorem ensures {x : Exec α} {post : α → Prop} (hx : ∀ t, Keeps D p names t x fun _ a => post a) :
    Ensures D p names x post := by
  intro m t hm hnames a ha
  obtain ⟨_, _, _, _, hpost⟩ := hx t m hm hnames
  exact hpost a ha

/-- What is so of all values of a computation may be added to a triple. -/
theorem and {x : Exec α} {q : HeapTyping → α → Prop} {post : α → Prop} (hx : Keeps D p names t x q)
    (h : Ensures D p names x post) : Keeps D p names t x fun u a => q u a ∧ post a := by
  intro m hm hnames
  obtain ⟨u, htu, hm₁, hnames₁, hq⟩ := hx m hm hnames
  exact ⟨u, htu, hm₁, hnames₁, fun a ha => ⟨hq a ha, h m t hm hnames a ha⟩⟩

/-! ## Sequences -/

theorem pure {a : α} {post : HeapTyping → α → Prop} (ha : post t a) :
    Keeps D p names t (pure a) post := by
  intro m hm hnames
  refine ⟨t, t.le_refl, hm, .inr hnames, fun b hb => ?_⟩
  cases hb
  exact ha

theorem throw (s : Stop) {post : HeapTyping → α → Prop} :
    Keeps D p names t (throw s : Exec α) post :=
  fun _ hm hnames => ⟨t, t.le_refl, hm, .inr hnames, nofun⟩

theorem fault (f : Fault) {post : HeapTyping → α → Prop} :
    Keeps D p names t (fault f : Exec α) post :=
  throw _

/-- A result that may be a fault, of which only a value matters. -/
theorem ofExcept {r : Except Fault α} {post : HeapTyping → α → Prop}
    (h : ∀ a, r = .ok a → post t a) : Keeps D p names t (ofExcept r) post := by
  cases r with
  | ok a => exact pure (h a rfl)
  | error f => exact fault f

theorem bind {x : Exec α} {f : α → Exec β} {q : HeapTyping → α → Prop}
    {post : HeapTyping → β → Prop} (hx : Keeps D p names t x q)
    (hf : ∀ u a, t ≤ u → q u a → Keeps D p names u (f a) post) :
    Keeps D p names t (x >>= f) post := by
  intro m hm hnames
  obtain ⟨u, htu, hm₁, hnames₁, hmid⟩ := hx m hm hnames
  rw [on_bind]
  rcases h : x.on m with ⟨s | a, m₁⟩
  · rw [h] at hm₁ hnames₁
    refine ⟨u, htu, hm₁, hnames₁.imp_left fun hs => ?_, nofun⟩
    cases hs
    rfl
  · rw [h] at hm₁ hnames₁ hmid
    obtain ⟨w, huw, hrest⟩ := hf u a htu (hmid a rfl) m₁ hm₁ (hnames₁.resolve_left (by simp))
    exact ⟨w, HeapTyping.le_trans htu huw, hrest⟩

theorem weaken {x : Exec α} {q post : HeapTyping → α → Prop} (hx : Keeps D p names t x q)
    (h : ∀ u a, t ≤ u → q u a → post u a) : Keeps D p names t x post := by
  intro m hm hnames
  obtain ⟨u, htu, hm₁, hnames₁, hmid⟩ := hx m hm hnames
  exact ⟨u, htu, hm₁, hnames₁, fun a ha => h u a htu (hmid a ha)⟩

/-- What follows a result that may be a fault only matters for results that are none. -/
theorem ofExcept_bind {r : Except Fault α} {f : α → Exec β} {post : HeapTyping → β → Prop}
    (h : ∀ a, r = .ok a → Keeps D p names t (f a) post) :
    Keeps D p names t (Exec.ofExcept r >>= f) post := by
  cases r with
  | ok a => exact h a rfl
  | error e => exact fault e

/-! ## Objects -/

theorem heap : Keeps D p names t heap fun u h => h.Obeys D p u := by
  intro m hm hnames
  refine ⟨t, t.le_refl, hm, .inr hnames, fun h hh => ?_⟩
  cases hh
  exact hm.heap

/-- A new object, which may extend the heap typing. -/
theorem make {new : Heap → Value × Heap}
    (h : ∀ h : Heap, h.Obeys D p t → ∃ u, t ≤ u ∧ (new h).2.Obeys D p u ∧ u.Knows (new h).1) :
    Keeps D p names t (make new) fun u v => u.Knows v ∧ ∃ h, v = (new h).1 := by
  intro m hm hnames
  obtain ⟨u, htu, hheap, hv⟩ := h m.heap hm.heap
  refine ⟨u, htu, ⟨hheap, fun f hf => (hm.frames f hf).mono htu⟩, .inr hnames, fun v hv' => ?_⟩
  cases hv'
  exact ⟨hv, m.heap, rfl⟩

theorem modifyHeap {change : Heap → Heap}
    (h : ∀ h : Heap, h.Obeys D p t → (change h).Obeys D p t) :
    Keeps D p names t (modifyHeap change) fun _ _ => True :=
  fun m hm hnames =>
    ⟨t, t.le_refl, ⟨h m.heap hm.heap, hm.frames⟩, .inr hnames, fun _ _ => trivial⟩

theorem print (s : String) : Keeps D p names t (print s) fun _ _ => True :=
  fun _ hm hnames => ⟨t, t.le_refl, ⟨hm.heap, hm.frames⟩, .inr hnames, fun _ _ => trivial⟩

theorem property? (key : String) : Keeps D p names t (property? key) fun _ _ => True :=
  fun _ hm hnames => ⟨t, t.le_refl, hm, .inr hnames, fun _ _ => trivial⟩

/-! ## The frame of the call at hand -/

section Frame

variable {c : Callable} {rest : List String}
  (hunit : Dict.find? c.sig.qualifiedName p.units = some c)

include hunit

/-- The innermost frame is one of the callable that is named first. -/
theorem exists_frame {m : Machine} (hm : m.Obeys D p t)
    (hnames : m.context.names = c.sig.qualifiedName :: rest) :
    ∃ f fs, m.context.frames = f :: fs ∧ f.ObeysAs D t c := by
  rcases hframes : m.context.frames with _ | ⟨f, fs⟩
  · simp [Context.names, hframes] at hnames
  · refine ⟨f, fs, rfl, ?_⟩
    obtain ⟨c', hc', hf⟩ := hm.frames f (by simp [hframes])
    simp only [Context.names, hframes, List.map_cons] at hnames
    rw [(List.cons.inj hnames).1, hunit] at hc'
    cases hc'
    exact hf

theorem frame : Keeps D p (c.sig.qualifiedName :: rest) t frame
    fun u f => f.ObeysAs D u c := by
  intro m hm hnames
  obtain ⟨f, fs, hframes, hf⟩ := exists_frame hunit hm hnames
  rw [on_frame, hframes]
  refine ⟨t, t.le_refl, hm, .inr hnames, fun g hg => ?_⟩
  cases hg
  exact hf

/-- A change of the innermost frame that keeps it as the discipline admits. -/
theorem modifyFrame {change : Frame → Except Fault Frame}
    (h : ∀ f g, f.ObeysAs D t c → change f = .ok g → g.ObeysAs D t c) :
    Keeps D p (c.sig.qualifiedName :: rest) t (modifyFrame change) fun _ _ => True := by
  intro m hm hnames
  obtain ⟨f, fs, hframes, hf⟩ := exists_frame hunit hm hnames
  rw [on_modifyFrame, hframes]
  rcases hc : change f with e | g
  · simp only [hc]
    exact ⟨t, t.le_refl, hm, .inr hnames, nofun⟩
  · simp only [hc]
    have hg := h f g hf hc
    refine ⟨t, t.le_refl, ⟨hm.heap, ?_⟩, .inr ?_, fun _ _ => trivial⟩
    · intro f' hf'
      rcases List.mem_cons.mp hf' with rfl | hold
      · exact ⟨c, hg.name ▸ hunit, hg⟩
      · exact hm.frames f' (by simp [hframes, hold])
    · rw [← hnames]
      simp [Context.names, hframes, hg.name, hf.name]

theorem getSlot (index : Nat) :
    Keeps D p (c.sig.qualifiedName :: rest) t (getSlot index) fun u v =>
      ∃ ty, c.slotTypes[index]? = some ty ∧ D.Places u ty v :=
  bind (frame hunit) fun _ _ _ hf => ofExcept fun _ hv => hf.get hv

theorem setSlot {index : Nat} {v : Value}
    (hv : ∀ ty, c.slotTypes[index]? = some ty → D.Places t ty v) :
    Keeps D p (c.sig.qualifiedName :: rest) t (setSlot index v) fun _ _ => True :=
  modifyFrame hunit fun _ _ hf h => hf.set hv h

theorem setReturn {index : Nat} {v : Value}
    (hv : ∀ ty, c.sig.returns[index]? = some ty → D.Places t ty v) :
    Keeps D p (c.sig.qualifiedName :: rest) t (setReturn index v) fun _ _ => True :=
  modifyFrame hunit fun _ _ hf h => hf.setReturn hv h

theorem setTemp {index : Nat} {v : Value} (hv : t.Knows v) :
    Keeps D p (c.sig.qualifiedName :: rest) t (setTemp index v) fun _ _ => True :=
  modifyFrame hunit fun _ _ hf h => hf.setTemp hv h

theorem takeTemp (index : Nat) :
    Keeps D p (c.sig.qualifiedName :: rest) t (takeTemp index) fun u v => u.Knows v := by
  intro m hm hnames
  obtain ⟨f, fs, hframes, hf⟩ := exists_frame hunit hm hnames
  rw [on_takeTemp, hframes]
  rcases hc : f.takeTemp index with e | ⟨v, g⟩
  · simp only [hc]
    exact ⟨t, t.le_refl, hm, .inr hnames, nofun⟩
  · simp only [hc]
    obtain ⟨hv, hg⟩ := hf.takeTemp hc
    refine ⟨t, t.le_refl, ⟨hm.heap, ?_⟩, .inr ?_, fun w hw => ?_⟩
    · intro f' hf'
      rcases List.mem_cons.mp hf' with rfl | hold
      · exact ⟨c, hg.name ▸ hunit, hg⟩
      · exact hm.frames f' (by simp [hframes, hold])
    · rw [← hnames]
      simp [Context.names, hframes, hg.name, hf.name]
    · cases hw
      exact hv

end Frame

/-! ## Whole calls -/

theorem recording {x : Exec α} {post : HeapTyping → α → Prop} (hx : Keeps D p names t x post) :
    Keeps D p names t (recording x) post := by
  intro m hm hnames
  obtain ⟨u, htu, hm₁, hnames₁, hpost⟩ := hx m hm hnames
  rw [on_recording]
  rcases h : x.on m with ⟨(e | _) | a, m₁⟩ <;> rw [h] at hm₁ hnames₁ hpost
  · refine ⟨u, htu, hm₁.recorded e, .inr ?_, nofun⟩
    simpa [Context.names] using hnames₁
  · exact ⟨u, htu, hm₁, .inl rfl, nofun⟩
  · exact ⟨u, htu, hm₁, hnames₁, hpost⟩

/-- The names behind the innermost one are those of the callers. -/
theorem exists_rest {m : Machine} {name : String} {names : List String}
    (h : m.context.names = name :: names) :
    ∃ f fs, m.context.frames = f :: fs ∧ fs.map (·.unit) = names := by
  rcases hframes : m.context.frames with _ | ⟨f, fs⟩
  · simp [Context.names, hframes] at h
  · simp only [Context.names, hframes, List.map_cons] at h
    exact ⟨f, fs, rfl, (List.cons.inj h).2⟩

/-- A call whose body keeps the discipline on a frame that obeys it keeps the discipline, and its
results are what the callable declares. -/
theorem unwinding {unit : Callable}
    (hunit : Dict.find? unit.sig.qualifiedName p.units = some unit) {f : Frame}
    (hf : f.ObeysAs D t unit) {run : Exec Unit}
    (hrun : Keeps D p (unit.sig.qualifiedName :: names) t run fun _ _ => True) :
    Keeps D p names t (Exec.recording (push f) >>= fun _ => unwinding run)
      fun u vs => List.Forall₂ (D.Places u) unit.sig.returns vs := by
  intro m hm hnames
  rw [on_bind, on_recording, on_push]
  by_cases hfull : m.context.maxDepth ≤ m.context.depth
  · rw [if_pos hfull]
    refine ⟨t, t.le_refl, hm.recorded _, .inr ?_, nofun⟩
    simpa [Context.names] using hnames
  · have hm₁ : (m.withFrames (f :: m.context.frames)).Obeys D p t := by
      refine ⟨hm.heap, fun g hg => ?_⟩
      rcases List.mem_cons.mp hg with rfl | hold
      · exact ⟨unit, hf.name ▸ hunit, hf⟩
      · exact hm.frames g hold
    have hnames₁ : (m.withFrames (f :: m.context.frames)).context.names =
        unit.sig.qualifiedName :: names := by
      rw [← hnames, ← hf.name]
      rfl
    obtain ⟨u, htu, hm₂, hnames₂, _⟩ := hrun _ hm₁ hnames₁
    rw [if_neg hfull]
    dsimp only
    rw [on_unwinding]
    rcases h : run.on (m.withFrames (f :: m.context.frames)) with ⟨(e | _) | _, m₂⟩ <;>
      rw [h] at hm₂ hnames₂ <;> dsimp only at hm₂ hnames₂ ⊢
    · obtain ⟨g, gs, hframes, hgs⟩ := exists_rest (hnames₂.resolve_left (by simp))
      simp only [hframes]
      refine ⟨u, htu, ⟨hm₂.heap, fun g' hg' => ?_⟩, .inr hgs, nofun⟩
      exact hm₂.frames g' (by rw [hframes]; exact List.mem_cons_of_mem _ hg')
    · exact ⟨u, htu, hm₂, .inl rfl, nofun⟩
    · have hnames₂ := hnames₂.resolve_left (by simp)
      obtain ⟨g, gs, hframes, hg⟩ := exists_frame hunit hm₂ hnames₂
      obtain ⟨g', gs', hframes', hgs⟩ := exists_rest hnames₂
      rw [hframes] at hframes'
      cases hframes'
      simp only [hframes]
      refine ⟨u, htu, ⟨hm₂.heap, fun g' hg' => ?_⟩, .inr hgs, fun vs hvs => ?_⟩
      · exact hm₂.frames g' (by rw [hframes]; exact List.mem_cons_of_mem _ hg')
      · cases hvs
        exact hg.returns

/-- The rule of calls that are admitted: what remains is the body, on a frame that obeys the
discipline. -/
theorem admitted {unit : Callable} (hunit : Dict.find? unit.sig.qualifiedName p.units = some unit)
    (hshape : unit.WellShaped) {args : List Value} (hargs : ∀ v ∈ args, t.Knows v)
    (hhands : D.HandsAll unit.sig.paramTypes args) {run : Exec Unit} (hrun : ∀ u, t ≤ u →
      Keeps D p (unit.sig.qualifiedName :: names) u run fun _ _ => True) :
    Keeps D p names t (do
      let f ← Exec.recording (Exec.ofExcept (prepare unit args))
      Exec.recording (push f)
      FrameScript.unwinding run)
      fun u vs => List.Forall₂ (D.Places u) unit.sig.returns vs := by
  refine bind (q := fun u f => f.ObeysAs D u unit) (recording (ofExcept fun f hf => ?_)) ?_
  · exact Frame.obeysAs_of_prepare hshape hargs hhands hf
  · intro u f htu hf
    exact unwinding hunit hf (hrun u htu)

/-! ## Native units -/

section Native

variable {unit : NativeUnit} {rest : List String}
  (hunit : Dict.find? unit.sig.qualifiedName p.units = some (.native unit))

include hunit

/-- An argument is what its parameter admits, and none is null. -/
theorem argument (index : Nat) :
    Keeps D p (unit.sig.qualifiedName :: rest) t (argument index) fun u v =>
      v.isNull = false ∧ ∃ ty, unit.sig.paramTypes[index]? = some ty ∧ D.Places u ty v := by
  refine bind (frame (c := .native unit) hunit) fun u f _ hf => ofExcept fun v hv => ?_
  unfold Frame.argument Frame.nullableArgument at hv
  split at hv
  next w hw =>
    split at hv
    · cases hv
    next hnull =>
      cases hv
      split at hw
      · exact ⟨by simpa using hnull, hf.get hw⟩
      · cases hw
  · cases hv

/-- Storing results that their places admit, for types that are declared from the slot on. -/
theorem storeResults {index : Nat} {vs : List Value} {tys : List Ty}
    (htys : tys <+: unit.sig.returns.drop index)
    (hvs : ∀ pair ∈ vs.zip tys, ∀ v, nativeResult unit pair.2 pair.1 = .ok v →
      D.Places t pair.2 v) :
    Keeps D p (unit.sig.qualifiedName :: rest) t (storeResults unit index vs tys)
      fun _ _ => True := by
  induction vs generalizing t index tys with
  | nil => exact pure trivial
  | cons v vs ih =>
    obtain _ | ⟨ty, tys⟩ := tys
    · exact pure trivial
    · obtain ⟨hty, htys⟩ := cons_prefix_drop htys
      refine ofExcept_bind fun w hw => bind
        (setReturn (c := .native unit) hunit fun ty' hty' => ?_) ?_
      · obtain rfl : ty' = ty := Option.some.inj (hty'.symm.trans hty)
        exact hvs (v, ty') List.mem_cons_self w hw
      · intro u _ htu _
        exact ih htys fun pair hpair w hw =>
          (hvs pair (List.mem_cons_of_mem _ hpair) w hw).mono htu

end Native

end Keeps

/-- The handler of a native unit keeps the discipline on a frame of the unit, and the results it
hands over are ones that their places admit. -/
def NativeUnit.Keeps (D : Discipline) (p : Program) (unit : NativeUnit) : Prop :=
  Dict.find? unit.sig.qualifiedName p.units = some (.native unit) →
  ∀ (rest : List String) (t : HeapTyping), match unit.handler with
    | .function run => FrameScript.Keeps D p (unit.sig.qualifiedName :: rest) t run
      fun u vs => ∀ pair ∈ vs.zip unit.sig.returns, ∀ v,
        nativeResult unit pair.2 pair.1 = .ok v → D.Places u pair.2 v
    | .typeMapper run => FrameScript.Keeps D p (unit.sig.qualifiedName :: rest) t run
      fun u v => ∀ ty ∈ unit.sig.returns.head?, ∀ w, nativeResult unit ty v = .ok w →
        D.Places u ty w

namespace Keeps

variable {D : Discipline} {p : Program} {rest : List String} {t : HeapTyping}

/-- A native unit keeps the discipline if its handler does. -/
theorem native_run {unit : NativeUnit}
    (hunit : Dict.find? unit.sig.qualifiedName p.units = some (.native unit))
    (hkeeps : unit.Keeps D p) :
    Keeps D p (unit.sig.qualifiedName :: rest) t unit.run fun _ _ => True := by
  specialize hkeeps hunit rest t
  unfold NativeUnit.run
  split <;> rename_i run heq <;> simp only [heq] at hkeeps
  · refine bind hkeeps fun u vs _ hvs => bind (frame (c := .native unit) hunit) ?_
    intro w f huw _
    split
    · exact fault _
    · exact storeResults hunit (List.prefix_refl _) fun pair hpair v hv =>
        (hvs pair hpair v hv).mono huw
  · refine bind hkeeps fun u v _ hv => ?_
    split
    next ty tys htys =>
      refine ofExcept_bind fun w hw => setReturn (c := .native unit) hunit fun ty' hty' => ?_
      have hty : unit.sig.returns[0]? = some ty := by rw [htys]; rfl
      obtain rfl : ty' = ty := Option.some.inj (hty'.symm.trans hty)
      exact hv ty' (by rw [htys]; rfl) w hw
    · exact pure trivial

end Keeps

/-! ## Bodies -/

/-- A body under way in a program: its function is one of the program, and the calls it makes with
what callers may hand over keep the discipline and return what the callee declares. -/
structure Code.Keeps (D : Discipline) (p : Program) (code : Code) : Prop where
  program : code.program = p
  function : Dict.find? (Callable.function code.function).sig.qualifiedName p.units =
    some (.function code.function)
  call : ∀ name unit, p.resolve name = .ok unit → ∀ names t args, (∀ v ∈ args, t.Knows v) →
    D.HandsAll unit.sig.paramTypes args → FrameScript.Keeps D p names t (code.call unit args)
      fun u vs => List.Forall₂ (D.Places u) unit.sig.returns vs

namespace Keeps

variable {D : Discipline} {p : Program} {code : Code} (hcode : code.Keeps D p) {rest : List String}

include hcode

/-- Staged values are known when they are taken out. -/
theorem takeTemps (stage count : Nat) (t : HeapTyping) :
    Keeps D p (code.function.sig.qualifiedName :: rest) t (takeTemps stage count)
      fun u vs => ∀ v ∈ vs, u.Knows v := by
  induction count generalizing stage t with
  | zero => exact pure (by simp)
  | succ count ih =>
    refine bind (takeTemp hcode.function stage) fun u v _ hv => ?_
    refine bind (ih (stage + 1) u) fun w vs huw hvs => pure fun v' hv' => ?_
    rcases List.mem_cons.mp hv' with rfl | hmem
    · exact hv.mono huw
    · exact hvs v' hmem

theorem takeStaged (stage count : Nat) (t : HeapTyping) :
    Keeps D p (code.function.sig.qualifiedName :: rest) t (takeStaged stage count)
      fun u vs => ∀ v ∈ vs, u.Knows v :=
  bind (frame hcode.function) fun u _ _ _ => takeTemps hcode stage count u

/-- A call of staged values returns what the callee declares, if callers may hand them over. -/
theorem called {name : String} {unit : Callable} (hunit : p.resolve name = .ok unit)
    {staging : Exec Unit} (stage count : Nat) (t : HeapTyping)
    (hstaging : Keeps D p (code.function.sig.qualifiedName :: rest) t staging fun _ _ => True)
    (hhands : Ensures D p (code.function.sig.qualifiedName :: rest)
      (do staging; FrameScript.takeStaged stage count) (D.HandsAll unit.sig.paramTypes)) :
    Keeps D p (code.function.sig.qualifiedName :: rest) t
      (do staging; let args ← FrameScript.takeStaged stage count; code.call unit args)
      fun u vs => List.Forall₂ (D.Places u) unit.sig.returns vs := by
  rw [← bind_assoc]
  have htaken := (bind hstaging fun u _ _ _ => takeStaged hcode stage count u).and hhands
  exact bind htaken fun u args _ hargs => hcode.call name unit hunit _ u args hargs.1 hargs.2

end Keeps

section Reading

variable {D : Discipline} {p : Program} {t : HeapTyping} {h : Heap}

/-- What is read from an array may be held in it; what is read from a map is known; and what is
read from a document is a document or the null of its type. -/
theorem element_places (hh : h.Obeys D p t) {base : Expr} {container key v : Value}
    (hcontainer : t.Knows container) (hv : element h base container key = .ok v) :
    (∃ elem id, container = .array elem id ∧ D.Places t elem v) ∨
      (∃ id, container = .map id ∧ t.Knows v) ∨
      (∃ doc, container = .json doc ∧ v = documentPart doc key) := by
  unfold element at hv
  split at hv
  · cases hv
  next elem id =>
    obtain ⟨index, _, hv⟩ := bind_eq_ok.mp hv
    unfold Heap.element at hv
    split at hv
    · split at hv
      next w hw =>
        cases hv
        exact .inl ⟨elem, id, rfl, hh.array id elem hcontainer v (Array.mem_of_getElem? hw)⟩
      · cases hv
    · cases hv
  next id =>
    obtain ⟨name, _, hv⟩ := bind_eq_ok.mp hv
    split at hv
    next w hw =>
      cases hv
      exact .inr (.inl ⟨id, rfl, hh.map id _ (Dict.mem_of_find? hw)⟩)
    · cases hv
  next doc =>
    cases hv
    exact .inr (.inr ⟨doc, rfl, rfl⟩)
  · cases hv

theorem knows_documentPart (doc : Json) (key : Value) : t.Knows (documentPart doc key) := by
  unfold documentPart
  dsimp only
  split <;> trivial

/-- What a field read of a struct yields may be held in the field; of a connector, it is what the
connector was built from; and of a document, a document or the null of its type. -/
theorem fieldOf_places (hh : h.Obeys D p t) {base : Expr} {target v : Value} {name : String}
    (htarget : t.Knows target) (hv : fieldOf p h base target name = .ok v) :
    (∃ struct id decl ty, target = .struct struct id ∧ p.struct? struct = some decl ∧
      decl.fieldType? name = some ty ∧ D.Places t ty v) ∨
    (∃ connector id i, target = .connector connector id ∧
      ((p.connectorParams? connector).getD []).findIdx? (·.name == name) = some i ∧
      (h.connector id)[i]? = some v ∧ D.Arguments p t connector (h.connector id)) ∨
    (∃ doc, target = .json doc ∧ v = documentPart doc (.str name)) := by
  unfold fieldOf at hv
  split at hv
  · cases hv
  next struct id =>
    split at hv
    next w hw =>
      cases hv
      obtain ⟨decl, hdecl, hfields⟩ := hh.struct id struct htarget
      obtain ⟨ty, hty, hplaces⟩ := Heap.places_of_field? hfields hw
      exact .inl ⟨struct, id, decl, ty, rfl, hdecl, hty, hplaces⟩
    · cases hv
  next connector id =>
    unfold connectorField at hv
    split at hv
    · cases hv
    next i hi =>
      split at hv
      next w hw =>
        cases hv
        exact .inr (.inl ⟨connector, id, i, rfl, hi, hw, hh.connector id connector htarget⟩)
      · cases hv
  next doc =>
    cases hv
    exact .inr (.inr ⟨doc, rfl, rfl⟩)
  · cases hv

/-- What is read from a container is known. -/
theorem knows_of_element (hh : h.Obeys D p t) {base : Expr} {container key v : Value}
    (hcontainer : t.Knows container) (hv : element h base container key = .ok v) : t.Knows v := by
  obtain ⟨elem, id, _, hplaces⟩ | ⟨id, _, hknows⟩ | ⟨doc, _, rfl⟩ :=
    element_places hh hcontainer hv
  · exact hplaces.knows
  · exact hknows
  · exact knows_documentPart doc key

/-- What a field read yields is known. -/
theorem knows_of_fieldOf (hh : h.Obeys D p t) {base : Expr} {target v : Value} {name : String}
    (htarget : t.Knows target) (hv : fieldOf p h base target name = .ok v) : t.Knows v := by
  obtain ⟨_, _, _, ty, _, _, _, hplaces⟩ | ⟨_, id, i, _, _, hi, hargs⟩ | ⟨doc, _, rfl⟩ :=
    fieldOf_places hh htarget hv
  · exact hplaces.knows
  · exact hargs.knows v (List.mem_of_getElem? hi)
  · exact knows_documentPart doc _

theorem knows_of_shortCircuit? {op : BinaryOp} {l v : Value}
    (h : shortCircuit? op l = some v) : t.Knows v := by
  unfold shortCircuit? at h
  split at h <;> cases h <;> trivial

end Reading

namespace HeapTyping

variable {t : HeapTyping}

/-- A converted value refers to nothing that the value did not refer to. -/
theorem Knows.cast {v w : Value} {target : Ty} (hv : t.Knows v) (h : v.cast target = .ok w) :
    t.Knows w := by
  unfold Value.cast at h
  split at h
  · cases h
    trivial
  · cases h
    trivial
  · cases h
  · cases h
    trivial
  · split at h
    · cases h
      trivial
    · cases h
  · split at h
    · cases h
      exact hv
    · cases h

/-- Numbers, truth values and texts refer to nothing. -/
theorem knows_of_isValueType {v : Value} (h : v.ty.isValueType = true) : t.Knows v := by
  cases v with
  | array elem id => cases h
  | struct name id => cases h
  | connector name id => cases h
  | _ => trivial

end HeapTyping

/-! ## The standard library -/

namespace Library

open Keeps

variable {D : Discipline} {p : Program} {t : HeapTyping} {unit : NativeUnit} {rest : List String}

/-- A value that is there and of an accepted type may be held, and is handed over as it is. -/
theorem places_of_nativeResult {ty : Ty} {v w : Value} (hknows : t.Knows v)
    (hnull : v.isNull = false) (hty : ty.accepts v.ty = true)
    (h : nativeResult unit ty v = .ok w) : D.Places t ty w := by
  unfold nativeResult at h
  split at h
  · cases h
  · cases h
    exact ⟨hknows.declaredAs ty,
      D.admits ty v (by simp [refused?, hnull, hty]) (D.handsPresent ty v hnull)⟩

/-- The rule of handlers that end with one value of the one declared type. -/
theorem keeps_single {ty : Ty} (hreturns : unit.sig.returns = [ty]) {names : List String}
    {v : Value} (hknows : t.Knows v) (hnull : v.isNull = false) (hty : ty.accepts v.ty = true) :
    Keeps D p names t (pure [v]) fun u vs => ∀ pair ∈ vs.zip unit.sig.returns, ∀ w,
      nativeResult unit pair.2 pair.1 = .ok w → D.Places u pair.2 w := by
  refine Keeps.pure fun pair hpair w hw => ?_
  rw [hreturns] at hpair
  obtain rfl := List.mem_singleton.mp hpair
  exact places_of_nativeResult hknows hnull hty hw

/-- The rule of handlers that end without a value. -/
theorem keeps_none {names : List String} :
    Keeps D p names t (pure []) fun u vs => ∀ pair ∈ vs.zip unit.sig.returns, ∀ w,
      nativeResult unit pair.2 pair.1 = .ok w → D.Places u pair.2 w :=
  Keeps.pure nofun

/-- The rule of type mappers that end with a value of the declared type. -/
theorem keeps_mapped {ty : Ty} (hreturns : unit.sig.returns = [ty]) {names : List String}
    {v : Value} (hknows : t.Knows v) (hnull : v.isNull = false) (hty : ty.accepts v.ty = true) :
    Keeps D p names t (pure v) fun u v => ∀ ty ∈ unit.sig.returns.head?, ∀ w,
      nativeResult unit ty v = .ok w → D.Places u ty w := by
  refine Keeps.pure fun ty' hty' w hw => ?_
  rw [hreturns] at hty'
  cases hty'
  exact places_of_nativeResult hknows hnull hty hw

section Arguments

variable (hunit : Dict.find? unit.sig.qualifiedName p.units = some (.native unit))

include hunit

theorem keeps_argumentAs {α : Type} (read : Value → Option α) (ty : Ty) (index : Nat) :
    Keeps D p (unit.sig.qualifiedName :: rest) t (argumentAs read ty index) fun _ _ => True := by
  refine bind (argument hunit index) fun u v _ _ => ?_
  split
  · exact Keeps.pure trivial
  · exact fault _

theorem keeps_mapArgument (index : Nat) :
    Keeps D p (unit.sig.qualifiedName :: rest) t (mapArgument index) fun _ _ => True := by
  refine bind (argument hunit index) fun u v _ _ => ?_
  split
  · exact Keeps.pure trivial
  · exact throw _

end Arguments

theorem strings_keep (hmem : unit ∈ strings.units) : unit.Keeps D p := by
  simp only [strings, List.mem_cons, List.not_mem_nil, or_false] at hmem
  intro hunit rest t
  rcases hmem with rfl | rfl | rfl | rfl | rfl | rfl | rfl
  · exact bind (keeps_argumentAs hunit _ _ 0) fun u _ _ _ => keeps_single rfl trivial rfl rfl
  · exact bind (keeps_argumentAs hunit _ _ 0) fun u _ _ _ => keeps_single rfl trivial rfl rfl
  · exact bind (keeps_argumentAs hunit _ _ 0) fun u _ _ _ => keeps_single rfl trivial rfl rfl
  · exact bind (keeps_argumentAs hunit _ _ 0) fun u _ _ _ => keeps_single rfl trivial rfl rfl
  · exact bind (keeps_argumentAs hunit _ _ 0) fun u _ _ _ => keeps_single rfl trivial rfl rfl
  · exact bind (keeps_argumentAs hunit _ _ 0) fun u _ _ _ => keeps_single rfl trivial rfl rfl
  · refine bind (keeps_argumentAs hunit _ _ 0) fun u _ _ _ => ?_
    exact bind (keeps_argumentAs hunit _ _ 1) fun w _ _ _ => keeps_single rfl trivial rfl rfl

theorem arrays_keep (hmem : unit ∈ arrays.units) : unit.Keeps D p := by
  simp only [arrays, List.mem_cons, List.not_mem_nil, or_false] at hmem
  intro hunit rest t
  subst hmem
  refine bind (argument hunit 0) fun u v _ _ => ?_
  split
  · exact bind heap fun w h _ _ => keeps_single rfl trivial rfl rfl
  · exact throw _

theorem maps_keep (hmem : unit ∈ maps.units) : unit.Keeps D p := by
  simp only [maps, List.mem_cons, List.not_mem_nil, or_false] at hmem
  intro hunit rest t
  rcases hmem with rfl | rfl | rfl
  · refine bind (keeps_mapArgument hunit 0) fun u id _ _ => bind heap fun w h _ _ => ?_
    have hkeys : ∀ v ∈ ((Dict.keys (h.map id)).map Value.str).toArray, D.Places w .string v := by
      intro v hv
      simp only [List.mem_toArray, List.mem_map] at hv
      obtain ⟨key, _, rfl⟩ := hv
      exact ⟨trivial, D.admits .string (.str key) rfl (D.handsPresent .string (.str key) rfl)⟩
    refine bind (make fun h hh => hh.newArray hkeys) fun w v _ hv => ?_
    obtain ⟨hknows, h, rfl⟩ := hv
    exact keeps_single rfl hknows rfl rfl
  · refine bind (keeps_mapArgument hunit 0) fun u id _ _ => ?_
    refine bind (keeps_argumentAs hunit _ _ 1) fun u key _ _ => bind heap fun w h _ _ => ?_
    exact keeps_single rfl trivial rfl rfl
  · refine bind (keeps_mapArgument hunit 0) fun u id _ _ => ?_
    refine bind (keeps_argumentAs hunit _ _ 1) fun u key _ _ => ?_
    exact bind (modifyHeap fun h hh => hh.setMap fun entry hentry =>
      .inl (Dict.mem_of_mem_erase hentry)) fun w _ _ _ => keeps_none

theorem system_keep (hmem : unit ∈ system.units) : unit.Keeps D p := by
  simp only [system, List.mem_cons, List.not_mem_nil, or_false] at hmem
  intro hunit rest t
  rcases hmem with rfl | rfl | rfl
  · refine bind (keeps_argumentAs hunit _ _ 0) fun u _ _ _ => ?_
    exact bind (print _) fun w _ _ _ => keeps_none
  · refine bind (keeps_argumentAs hunit _ _ 0) fun u _ _ _ => ?_
    exact bind (print _) fun w _ _ _ => keeps_none
  · refine bind (keeps_argumentAs hunit _ _ 0) fun u _ _ _ => ?_
    exact bind (property? _) fun w _ _ _ => keeps_single rfl trivial rfl rfl

theorem convertors_keep (hmem : unit ∈ convertors.units) : unit.Keeps D p := by
  simp only [convertors, List.mem_cons, List.not_mem_nil, or_false] at hmem
  intro hunit rest t
  rcases hmem with rfl | rfl | rfl | rfl
  · refine bind (argument hunit 0) fun u v _ _ => ?_
    split
    · exact keeps_mapped rfl trivial rfl rfl
    · exact throw _
  · refine bind (argument hunit 0) fun u v _ _ => ?_
    split
    · exact keeps_mapped rfl trivial rfl rfl
    · exact throw _
  · refine bind (keeps_argumentAs hunit _ _ 0) fun u s _ _ => ?_
    split
    · exact keeps_mapped rfl trivial rfl rfl
    · exact throw _
  · refine bind (keeps_argumentAs hunit _ _ 0) fun u s _ _ => ?_
    exact keeps_mapped rfl trivial rfl rfl

/-- **The standard library keeps every discipline**: its units hand over values of the types they
declare, none of which is null, and store nothing else. -/
theorem keeps {package : NativePackage} (hpackage : package ∈ packages)
    (hmem : unit ∈ package.units) : unit.Keeps D p := by
  simp only [packages, List.mem_cons, List.not_mem_nil, or_false] at hpackage
  rcases hpackage with rfl | rfl | rfl | rfl | rfl
  · exact strings_keep hmem
  · exact arrays_keep hmem
  · exact maps_keep hmem
  · exact system_keep hmem
  · exact convertors_keep hmem

end Library

/-! ## Runs -/

/-- What is known of a program and a registry for a discipline: the program is linked with the
registry, the native units keep the discipline, and so do the bodies that run in it. -/
structure Discipline.Governs (D : Discipline) (natives : Registry) (p : Program) : Prop where
  linked : p.Linked natives
  natives : ∀ key u, (key, u) ∈ natives.units → u.Keeps D p
  bodies : ∀ (s : Site) (rounds : Nat) name, p.find? name = some (.function s.function) →
    (s.code p rounds).Keeps D p → ∀ rest t,
      Keeps D p (s.function.sig.qualifiedName :: rest) t (Function.run (s.code p rounds))
        fun _ _ => True

namespace Discipline.Governs

variable {D : Discipline} {natives : Registry} {p : Program} (hD : D.Governs natives p)
  {rounds : Nat}

include hD

/-- What a name means is stored under its qualified name. -/
theorem find? {name : String} {unit : Callable} (h : p.find? name = some unit) :
    Dict.find? unit.sig.qualifiedName p.units = some unit :=
  hD.linked.find?_qualifiedName h

/-- A native unit of the program keeps the discipline. -/
theorem native_keeps {name : String} {u : NativeUnit} (h : p.find? name = some (.native u)) :
    u.Keeps D p := by
  cases hD.linked.comesFrom h with
  | registered hmem => exact hD.natives _ u hmem

/-- A body keeps the discipline if the calls it makes do. -/
theorem code_keeps {code : Code} {name : String} (hcode : code.program = p)
    (hf : p.find? name = some (.function code.function))
    (hcall : ∀ name unit, p.find? name = some unit → ∀ names t args, (∀ v ∈ args, t.Knows v) →
      D.HandsAll unit.sig.paramTypes args → Keeps D p names t (code.call unit args)
        fun u vs => List.Forall₂ (D.Places u) unit.sig.returns vs) :
    code.Keeps D p where
  program := hcode
  function := hD.find? hf
  call name unit hunit := hcall name unit (Program.find?_of_resolve hunit)

/-- Running a callable on a frame keeps the discipline if the calls it makes do. -/
theorem dispatch {levels : Nat}
    (hcall : ∀ name unit, p.find? name = some unit → ∀ names t args, (∀ v ∈ args, t.Knows v) →
      D.HandsAll unit.sig.paramTypes args → Keeps D p names t (call p rounds levels unit args)
        fun u vs => List.Forall₂ (D.Places u) unit.sig.returns vs)
    {name : String} {unit : Callable} (hunit : p.find? name = some unit) (rest : List String)
    (t : HeapTyping) :
    Keeps D p (unit.sig.qualifiedName :: rest) t (dispatch p rounds (call p rounds levels) unit)
      fun _ _ => True := by
  cases unit with
  | native u => exact Keeps.native_run (hD.find? hunit) (hD.native_keeps hunit)
  | function f =>
    exact hD.bodies ⟨levels, f⟩ rounds name hunit (hD.code_keeps rfl hunit hcall) rest t

/-- **Calls keep the discipline**, and their results are what the callable declares, if callers may
hand over the arguments.

**Proof sketch.** Induction on the levels left. An admitted call starts on a frame that obeys the
discipline, and its body makes calls with one level less. -/
theorem call (levels : Nat) {name : String} {unit : Callable} (hunit : p.find? name = some unit)
    (names : List String) (t : HeapTyping) (args : List Value) (hargs : ∀ v ∈ args, t.Knows v)
    (hhands : D.HandsAll unit.sig.paramTypes args) :
    Keeps D p names t (call p rounds levels unit args)
      fun u vs => List.Forall₂ (D.Places u) unit.sig.returns vs := by
  induction levels generalizing name unit names t args with
  | zero =>
    refine Keeps.bind (q := fun _ _ => True) (.recording (.ofExcept fun _ _ => trivial)) ?_
    intro u f _ _ m hm hnames
    simp only [on_bind, on_context, on_recording, on_fault]
    refine ⟨u, u.le_refl, hm.recorded _, .inr ?_, nofun⟩
    simpa [Context.names] using hnames
  | succ levels ih =>
    refine Keeps.admitted (hD.find? hunit) (hD.linked.wellShaped hunit) hargs hhands fun u _ => ?_
    exact hD.dispatch (fun name unit hunit => ih hunit) hunit names u

end Discipline.Governs

end FrameScript
