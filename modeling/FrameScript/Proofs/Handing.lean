import FrameScript.Proofs.Preservation
import FrameScript.Proofs.Staging

set_option autoImplicit false

/-!
# What calls hand over

A discipline may ask something of the values that callers hand over. A body stages the values of the
arguments on its frame before it calls, and what it takes out again are the values that were staged:
the frames of a run have the sizes of their functions, and everything that is written in a function
is placed. So it is enough that the values of the arguments are such that callers may hand them
over.

## Main definitions

* `Judgement.SoundOnCalls` — the rules of what calls hand over.

## Main results

* `Function.LaidOut.places` — the expressions of a laid out function are placed.
* `Machine.Obeys.onFrame` — bodies under way run on frames of their sizes.
* `Site.handsOver` — bodies hand over what callers may if the values of their arguments are such.
-/

namespace FrameScript

open Exec

/-! ## Placed functions -/

section Statements

variable {slots : List Ty} {temps : Nat} {scope : Scope}

theorem blockPlaced_mem {ss : List Stmt} (hscope : scope.Below)
    (h : BlockPlaced slots temps scope ss) {s : Stmt} (hs : s ∈ ss) :
    ∃ scope' : Scope, scope'.Below ∧ s.Placed slots temps scope' := by
  obtain ⟨before, after, rfl⟩ := List.append_of_mem hs
  exact (blockPlaced_append hscope h).2

/-- The statements inside a placed statement are placed, each in a scope of its own. -/
theorem Stmt.Placed.inner {s s' : Stmt} (hscope : scope.Below) (h : s.Placed slots temps scope)
    (hs : s' ∈ s.inner) : ∃ scope' : Scope, scope'.Below ∧ s'.Placed slots temps scope' := by
  cases s with
  | branch cond yes no =>
    simp only [Stmt.Placed] at h
    rcases List.mem_append.mp hs with hs | hs
    · exact blockPlaced_mem hscope h.2.1 hs
    · exact blockPlaced_mem (hscope.skip _) h.2.2 hs
  | loop cond body =>
    simp only [Stmt.Placed] at h
    exact blockPlaced_mem hscope h.2 hs
  | block body =>
    simp only [Stmt.Placed] at h
    exact blockPlaced_mem hscope h hs
  | _ => cases hs

/-- **The expressions of a laid out function are placed** in some scope of it. -/
theorem Function.LaidOut.places {f : Function} {decl : FunctionDecl} (hf : f.LaidOut decl)
    {e : Expr} (he : e ∈ f.exprs) : ∃ (scope : Scope) (base : Nat),
      e.Placed scope.slot? f.layout.slots.length f.layout.temps base := by
  have hstmts : ∀ s ∈ statementsOf f.body, ∃ scope : Scope, scope.Below ∧
      s.Placed f.layout.slots f.layout.temps scope :=
    forall_statementsOf (fun _ ⟨_, hscope, hs⟩ _ hinner => hs.inner hscope hinner)
      fun _ hs => blockPlaced_mem (Scope.below_ofParams decl.params) hf.placed hs
  refine Function.forall_exprs (P := fun e => ∃ (scope : Scope) (base : Nat),
    e.Placed scope.slot? f.layout.slots.length f.layout.temps base) ?_ ?_ e he
  · rintro e ⟨scope, _, he⟩ x hx
    exact ⟨scope, he.part hx⟩
  · intro top htop
    obtain ⟨s, hs, htop⟩ := List.mem_flatMap.mp htop
    obtain ⟨scope, -, hs⟩ := hstmts s hs
    exact ⟨scope, 0, hs.expr htop⟩

end Statements

/-! ## Frames of a run -/

/-- In a state that obeys a discipline bodies run on frames of their sizes. -/
theorem Machine.Obeys.onFrame {D : Discipline} {natives : Registry} {p : Program}
    (hp : p.Linked natives) {t : HeapTyping} {m : Machine} (hm : m.Obeys D p t) {s : Site}
    (hs : s.Under p m.context.names) : s.OnFrame p m := by
  obtain ⟨name, hfound⟩ := hs.found
  obtain ⟨rest, hrest⟩ := hs.top
  obtain ⟨f, fs, hframes, hf⟩ := Keeps.exists_frame (hp.find?_qualifiedName hfound) hm hrest
  obtain ⟨decl, hlaid⟩ := hp.laidOut hfound
  have hroom := hf.room
  rw [hlaid.shape] at hroom
  obtain ⟨-, htemps⟩ := Prod.mk.inj (Except.ok.inj hroom)
  exact ⟨⟨name, hfound⟩, f, fs, hframes, ⟨rfl, hf.slots.length_eq.symm⟩, htemps.symm⟩

/-! ## Calls -/

/-- The rules of what calls hand over. -/
structure Judgement.SoundOnCalls (J : Judgement) (D : Discipline) (p : Program) : Prop where
  called : ∀ {callee args stage unit vs}, J.Admits (.call callee args stage) →
    p.resolve callee = .ok unit → List.Forall₂ J.Yields args vs →
    D.HandsAll unit.sig.paramTypes vs
  acted : ∀ {target name args stage connector id unit vs},
    J.Admits (.action target name args stage) → J.Yields target (.connector connector id) →
    p.resolve (connector ++ "." ++ name) = .ok unit → List.Forall₂ J.Yields args vs →
    D.HandsAll unit.sig.paramTypes (.connector connector id :: vs)

/-- **Bodies hand over what callers may** if the values of their arguments are such that callers may
hand them over. -/
theorem Site.handsOver {D : Discipline} {J : Judgement} {natives : Registry} {p : Program}
    (hp : p.Linked natives) (hnatives : p.NativesConfined) {s : Site} {name : String}
    (hfound : p.find? name = some (.function s.function))
    (htext : ∀ e, J.Admits e → e ∈ s.function.exprs) (hJ : J.SoundOnCalls D p) (rounds : Nat) :
    (s.code p rounds).HandsOver D J p := by
  have hplaces {e : Expr} (he : J.Admits e) : s.Places e := by
    obtain ⟨decl, hlaid⟩ := hp.laidOut hfound
    exact hlaid.places (htext e he)
  have honFrame {m : Machine} {t : HeapTyping} {rest : List String} (hm : m.Obeys D p t)
      (hnames : m.context.names = s.function.sig.qualifiedName :: rest) : s.OnFrame p m :=
    hm.onFrame hp ⟨⟨name, hfound⟩, rest, hnames⟩
  constructor
  · intro callee args stage unit rest he hunit hyields m t hm hnames vs hvs
    obtain ⟨m'', hargs, -⟩ := (honFrame hm hnames).evalArgs_of_staged hp hnatives (hplaces he)
      (Prod.ext hvs rfl)
    exact hJ.called he hunit (hyields m t hm hnames vs (by rw [hargs]))
  · intro target name args stage connector id unit rest he htarget hunit hyields m t hm hnames vs
      hvs
    obtain ⟨ws, m'', hargs, rfl, -⟩ := (honFrame hm hnames).evalArgs_of_staged_action hp hnatives
      (hplaces he) (Prod.ext hvs rfl)
    exact hJ.acted he htarget hunit (hyields m t hm hnames ws (by rw [hargs]))

end FrameScript
