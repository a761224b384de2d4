import FrameScript.Proofs.Bodies
import FrameScript.Proofs.Inputs

set_option autoImplicit false

/-!
# Preservation

A discipline with a sound judgement on every function of a program is kept in every state of every
run. What is known of a task when it is begun follows from what was known of the task on whose
behalf it is begun, so the tasks of a run are all begun well if the run itself is.

## Main definitions

* `Discipline.Judges` — a discipline with a sound judgement on every function of a program.
* `Task.BegunWell` — a task that is begun in a state that obeys the discipline, with everything
  about it that the judgement asks for.
* `Machine.Mentions` — the values that occur somewhere in a state.

## Main results

* `Task.Step.keeps` — each step of a run begins its task well.
* `Task.Visits.obeys` — every state of a run obeys the discipline.
-/

namespace FrameScript

open Exec Keeps

/-! ## Judged programs -/

/-- A discipline and judgements on the functions of a program: the program is linked with the
registry, the native units keep the discipline, the judgement on each function is sound, and the
bodies hand over what callers may. -/
structure Discipline.Judges (D : Discipline) (J : Function → Judgement) (natives : Registry)
    (p : Program) : Prop where
  linked : p.Linked natives
  natives : ∀ key u, (key, u) ∈ natives.units → u.Keeps D p
  sound : ∀ name f, p.find? name = some (.function f) → (J f).Sound D p f
  handsOver : ∀ (s : Site) (rounds : Nat) name, p.find? name = some (.function s.function) →
    (s.code p rounds).HandsOver D (J s.function) p

/-- A discipline governs the programs it judges. -/
theorem Discipline.Judges.governs {D : Discipline} {J : Function → Judgement} {natives : Registry}
    {p : Program} (h : D.Judges J natives p) : D.Governs natives p where
  linked := h.linked
  natives := h.natives
  bodies s rounds name hfound hcode _ t :=
    run_keeps ⟨hcode, h.handsOver s rounds name hfound⟩ (h.sound name s.function hfound) t

/-! ## Tasks -/

/-- Lists that are related item by item are so in front of a place and behind it. -/
theorem forall₂_append {α β : Type} {R : α → β → Prop} {as as' : List α} {bs bs' : List β}
    (h : List.Forall₂ R (as ++ as') (bs ++ bs')) (hlen : as.length = bs.length) :
    List.Forall₂ R as bs ∧ List.Forall₂ R as' bs' := by
  induction as generalizing bs with
  | nil =>
    obtain rfl := List.length_eq_zero_iff.mp hlen.symm
    exact ⟨.nil, h⟩
  | cons a as ih =>
    obtain _ | ⟨b, bs⟩ := bs
    · cases hlen
    · obtain ⟨hab, hrest⟩ := List.forall₂_cons.mp h
      obtain ⟨hfront, hback⟩ := ih hrest (by simpa using hlen)
      exact ⟨.cons hab hfront, hback⟩

/-- The body runs a function of the program on the innermost frame. -/
structure Site.Under (p : Program) (names : List String) (s : Site) : Prop where
  found : ∃ name, p.find? name = some (.function s.function)
  top : ∃ rest, names = s.function.sig.qualifiedName :: rest

/-- What is known of a task when it is begun: what it works on refers to objects as what they are,
and the judgement on the body under way lets it stand there. -/
def Task.KnownIn (D : Discipline) (J : Function → Judgement) (p : Program) (t : HeapTyping)
    (names : List String) : Task → Prop
  | .call _ unit args => (∃ name, p.find? name = some unit) ∧ (∀ v ∈ args, t.Knows v) ∧
    D.HandsAll unit.sig.paramTypes args
  | .dispatch _ unit => (∃ name, p.find? name = some unit) ∧
    ∃ rest, names = unit.sig.qualifiedName :: rest
  | .store unit index vs tys => (∃ name, p.find? name = some (.native unit)) ∧
    (∃ rest, names = unit.sig.qualifiedName :: rest) ∧ tys <+: unit.sig.returns.drop index ∧
      ∀ pair ∈ vs.zip tys, ∀ v, nativeResult unit pair.2 pair.1 = .ok v → D.Places t pair.2 v
  | .block s ss => s.Under p names ∧ ∀ st ∈ ss, (J s.function).Runs st
  | .stmt s st => s.Under p names ∧ (J s.function).Runs st
  | .loop s cond body _ => s.Under p names ∧ (J s.function).Admits cond ∧
    ∀ st ∈ body, (J s.function).Runs st
  | .finish s index vs => s.Under p names ∧ (∀ v ∈ vs, t.Knows v) ∧
    D.BindsAll (s.function.sig.returns.drop index) vs
  | .write s v target => s.Under p names ∧ t.Knows v ∧ (J s.function).Takes target v
  | .eval s e => s.Under p names ∧ (J s.function).Admits e
  | .results s e => s.Under p names ∧ (J s.function).Admits e

/-- A task is begun in a state that obeys the discipline, with all that is known of it. -/
def Task.BegunWell (D : Discipline) (J : Function → Judgement) (p : Program) (task : Task)
    (m : Machine) : Prop :=
  ∃ t, m.Obeys D p t ∧ task.KnownIn D J p t m.context.names

/-- A call from outside, with values read from documents at any types, is begun well if callers may
hand over the values. -/
theorem Task.begunWell_of_inputs {D : Discipline} {J : Function → Judgement} {e : Engine}
    {inputs : List (Json × Ty)} {args : List Value} {heap : Heap}
    (hread : (e.program.readInputs inputs).run {} = .ok (args, heap)) {name : String}
    {unit : Callable} (hunit : e.program.find? name = some unit)
    (hhands : D.HandsAll unit.sig.paramTypes args) (properties : Dict String) (levels : Nat) :
    (Task.call levels unit args).BegunWell D J e.program (e.machine heap properties) := by
  obtain ⟨t, hheap, hargs⟩ := Program.readInputs_obeys (D := D) hread
  exact ⟨t, ⟨hheap, by simp [Engine.machine]⟩, ⟨name, hunit⟩, hargs, hhands⟩

section Run

variable {D : Discipline} {J : Function → Judgement} {natives : Registry} {p : Program}
  (hD : D.Judges J natives p) {rounds : Nat}

include hD

/-- The bodies of a run keep the discipline. -/
theorem Site.code_keeps (rounds : Nat) {s : Site} {names : List String} (hs : s.Under p names) :
    (s.code p rounds).KeepsBy D (J s.function) p := by
  obtain ⟨name, hfound⟩ := hs.found
  exact ⟨hD.governs.code_keeps rfl hfound fun _ _ hunit => hD.governs.call s.levels hunit,
    hD.handsOver s rounds name hfound⟩

/-- The judgement on the body under way is sound. -/
theorem Site.Under.sound {s : Site} {names : List String} (hs : s.Under p names) :
    (J s.function).Sound D p s.function := by
  obtain ⟨name, hfound⟩ := hs.found
  exact hD.sound name _ hfound

omit hD in
/-- The state in which a computation of a body ends with a value. -/
theorem Site.Under.after {s : Site} {m m' : Machine} {t : HeapTyping} {α : Type} {x : Exec α}
    {a : α} {post : HeapTyping → α → Prop} (hs : s.Under p m.context.names)
    (hm : m.Obeys D p t)
    (hx : ∀ rest, Keeps D p (s.function.sig.qualifiedName :: rest) t x post)
    (hrun : x.on m = (.ok a, m')) :
    ∃ u, t ≤ u ∧ m'.Obeys D p u ∧ s.Under p m'.context.names ∧ post u a := by
  obtain ⟨rest, hrest⟩ := hs.top
  obtain ⟨u, htu, hm', hnames, hpost⟩ := hx rest m hm hrest
  rw [hrun] at hm' hnames hpost
  refine ⟨u, htu, hm', ⟨hs.found, rest, hnames.resolve_left (by simp)⟩, hpost a rfl⟩

omit hD in
/-- An expression that is due behind a computation that keeps the discipline is begun well. -/
theorem Site.Under.evalBegun {s : Site} {m m' : Machine} {t : HeapTyping} {α : Type} {x : Exec α}
    {a : α} {post : HeapTyping → α → Prop} {e : Expr} (hs : s.Under p m.context.names)
    (hm : m.Obeys D p t) (he : (J s.function).Admits e)
    (hx : ∀ rest, Keeps D p (s.function.sig.qualifiedName :: rest) t x post)
    (hrun : x.on m = (.ok a, m')) : (Task.eval s e).BegunWell D J p m' := by
  obtain ⟨u, _, hm', hs', _⟩ := hs.after hm hx hrun
  exact ⟨u, hm', hs', he⟩

/-! ### Behind other computations -/

section Behind

variable {s : Site} {m m' : Machine} {t : HeapTyping} (hs : s.Under p m.context.names)
  (hm : m.Obeys D p t)

include hs hm

/-- An expression that is evaluated has a value that the judgement knows of. -/
theorem Site.Under.afterEval {e : Expr} {v : Value} (he : (J s.function).Admits e)
    (hv : (e.eval (s.code p rounds)).on m = (.ok v, m')) :
    ∃ u, t ≤ u ∧ m'.Obeys D p u ∧ s.Under p m'.context.names ∧ u.Knows v ∧
      (J s.function).Yields e v := by
  obtain ⟨u, htu, hm', hs', hpost⟩ := hs.after hm
    (fun _ => eval_keeps (Site.code_keeps hD rounds hs) (hs.sound hD).exprs e he t) hv
  exact ⟨u, htu, hm', hs', hpost⟩

/-- An expression that is evaluated for all its values has values that the judgement knows of. -/
theorem Site.Under.afterResults {e : Expr} {vs : List Value} (he : (J s.function).Admits e)
    (hvs : (e.results (s.code p rounds)).on m = (.ok vs, m')) :
    ∃ u, t ≤ u ∧ m'.Obeys D p u ∧ s.Under p m'.context.names ∧ (∀ v ∈ vs, u.Knows v) ∧
      (J s.function).YieldsAll e vs := by
  obtain ⟨u, htu, hm', hs', hpost⟩ := hs.after hm
    (fun _ => results_keeps (Site.code_keeps hD rounds hs) (hs.sound hD).exprs e he t) hvs
  exact ⟨u, htu, hm', hs', hpost⟩

/-- Expressions that are evaluated one after the other have values that the judgement knows of. -/
theorem Site.Under.afterArgs {args : List Expr} {vs : List Value}
    (hargs : ∀ e ∈ args, (J s.function).Admits e)
    (hvs : (evalArgs (s.code p rounds) args).on m = (.ok vs, m')) :
    ∃ u, t ≤ u ∧ m'.Obeys D p u ∧ s.Under p m'.context.names ∧ (∀ v ∈ vs, u.Knows v) ∧
      List.Forall₂ (J s.function).Yields args vs := by
  obtain ⟨u, htu, hm', hs', hpost⟩ := hs.after hm
    (fun _ => evalArgs_keeps (Site.code_keeps hD rounds hs) (hs.sound hD).exprs args hargs t) hvs
  exact ⟨u, htu, hm', hs', hpost⟩

/-- Arguments are staged. -/
theorem Site.Under.afterStageArgs {stage : Nat} {args : List Expr}
    (hargs : ∀ e ∈ args, (J s.function).Admits e)
    (hstaged : (stageArgs (s.code p rounds) stage args).on m = (.ok (), m')) :
    ∃ u, t ≤ u ∧ m'.Obeys D p u ∧ s.Under p m'.context.names := by
  obtain ⟨u, htu, hm', hs', -⟩ := hs.after hm (fun _ => stageArgs_keeps
    (Site.code_keeps hD rounds hs) (hs.sound hD).exprs stage args hargs t) hstaged
  exact ⟨u, htu, hm', hs'⟩

/-- A value that is known is staged. -/
theorem Site.Under.afterSetTemp {index : Nat} {v : Value} (hv : t.Knows v)
    (hstaged : (Exec.setTemp index v).on m = (.ok (), m')) :
    ∃ u, t ≤ u ∧ m'.Obeys D p u ∧ s.Under p m'.context.names := by
  have hfunction := (Site.code_keeps hD 0 hs).function
  obtain ⟨u, htu, hm', hs', -⟩ := hs.after hm (fun _ => setTemp hfunction hv) hstaged
  exact ⟨u, htu, hm', hs'⟩

/-- Values that were staged are taken for a call. -/
theorem Site.Under.afterTakeStaged {stage count : Nat} {vs : List Value}
    (hvs : (takeStaged stage count).on m = (.ok vs, m')) :
    ∃ u, m'.Obeys D p u ∧ ∀ v ∈ vs, u.Knows v := by
  have hcode := (Site.code_keeps hD 0 hs).toKeeps
  obtain ⟨u, -, hm', -, hknows⟩ :=
    hs.after hm (fun _ => Keeps.takeStaged hcode stage count t) hvs
  exact ⟨u, hm', hknows⟩

/-- A condition is evaluated. -/
theorem Site.Under.afterHolds {cond : Expr} {b : Bool} (hcond : (J s.function).Admits cond)
    (hb : (cond.holds (s.code p rounds)).on m = (.ok b, m')) :
    ∃ u, t ≤ u ∧ m'.Obeys D p u ∧ s.Under p m'.context.names := by
  obtain ⟨u, htu, hm', hs', -⟩ := hs.after hm (fun _ => holds_keeps
    (Site.code_keeps hD rounds hs) (hs.sound hD).exprs cond hcond t) hb
  exact ⟨u, htu, hm', hs'⟩

/-- A block is run. -/
theorem Site.Under.afterBlock {ss : List Stmt} {flow : Flow}
    (hss : ∀ st ∈ ss, (J s.function).Runs st)
    (hflow : (execBlock (s.code p rounds) ss).on m = (.ok flow, m')) :
    ∃ u, t ≤ u ∧ m'.Obeys D p u ∧ s.Under p m'.context.names := by
  obtain ⟨u, htu, hm', hs', -⟩ := hs.after hm (fun _ => execBlock_keeps
    (Site.code_keeps hD rounds hs) (hs.sound hD) ss hss t) hflow
  exact ⟨u, htu, hm', hs'⟩

end Behind

/-! ### Steps of calls -/

section Steps

variable {task : Task} {m m' : Machine}

theorem Task.Step.keeps_call {levels : Nat} {unit : Callable} {args : List Value}
    (h : (Task.call levels unit args).BegunWell D J p m)
    (hstep : Task.Step p rounds (.call levels unit args) m task m') : task.BegunWell D J p m' := by
  obtain ⟨t, hm, ⟨name, hfound⟩, hargs, hhands⟩ := h
  cases hstep with
  | call hf hroom =>
    have hunit := hD.linked.find?_qualifiedName hfound
    have hframe : Frame.ObeysAs D t _ _ :=
      Frame.obeysAs_of_prepare (hD.linked.wellShaped hfound) hargs hhands hf
    refine ⟨t, ⟨hm.heap, fun g hg => ?_⟩, ⟨name, hfound⟩, m.context.names, ?_⟩
    · rcases List.mem_cons.mp hg with rfl | hold
      · exact ⟨_, hframe.name ▸ hunit, hframe⟩
      · exact hm.frames g hold
    · rw [← hframe.name]
      rfl

theorem Task.Step.keeps_dispatch {levels : Nat} {unit : Callable}
    (h : (Task.dispatch levels unit).BegunWell D J p m)
    (hstep : Task.Step p rounds (.dispatch levels unit) m task m') : task.BegunWell D J p m' := by
  obtain ⟨t, hm, ⟨name, hfound⟩, rest, hrest⟩ := h
  cases hstep with
  | body =>
    exact ⟨t, hm, ⟨⟨name, hfound⟩, rest, hrest⟩, (hD.sound name _ hfound).stmts.body⟩
  | @handled _ unit run vs _ _ _ _ hrun hvs _ _ =>
    have hkeeps := hD.governs.native_keeps hfound (hD.governs.find? hfound) rest t
    simp only [hrun] at hkeeps
    obtain ⟨u, -, hm', hnames, hpost⟩ := hkeeps m hm hrest
    rw [hvs] at hm' hnames hpost
    exact ⟨u, hm', ⟨name, hfound⟩, ⟨rest, hnames.resolve_left (by simp)⟩, List.prefix_refl _,
      hpost vs rfl⟩
  | @mapped _ unit run v ty tys _ _ hrun hv htys =>
    have hkeeps := hD.governs.native_keeps hfound (hD.governs.find? hfound) rest t
    simp only [hrun] at hkeeps
    obtain ⟨u, -, hm', hnames, hpost⟩ := hkeeps m hm hrest
    rw [hv] at hm' hnames hpost
    refine ⟨u, hm', ⟨name, hfound⟩, ⟨rest, hnames.resolve_left (by simp)⟩, ?_, ?_⟩
    · rw [htys]
      exact ⟨tys, rfl⟩
    · intro pair hpair w hw
      obtain rfl := List.mem_singleton.mp hpair
      exact hpost v rfl ty (by rw [htys]; rfl) w hw

theorem Task.Step.keeps_store {unit : NativeUnit} {index : Nat} {vs : List Value} {tys : List Ty}
    (h : (Task.store unit index vs tys).BegunWell D J p m)
    (hstep : Task.Step p rounds (.store unit index vs tys) m task m') : task.BegunWell D J p m' := by
  obtain ⟨t, hm, ⟨name, hfound⟩, ⟨rest, hrest⟩, htys, hvs⟩ := h
  cases hstep with
  | @stored _ _ v w vs ty tys _ _ hw hset =>
    obtain ⟨hty, htys'⟩ := cons_prefix_drop htys
    have hset' : Keeps D p (unit.sig.qualifiedName :: rest) t
        (Exec.setReturn index w) fun _ _ => True := by
      refine setReturn (c := .native unit) (hD.linked.find?_qualifiedName hfound) fun ty' hty' => ?_
      obtain rfl : ty' = ty := Option.some.inj (hty'.symm.trans hty)
      exact hvs (v, ty') List.mem_cons_self w hw
    obtain ⟨u, htu, hm', hnames, -⟩ := hset' m hm hrest
    rw [hset] at hm' hnames
    refine ⟨u, hm', ⟨name, hfound⟩, ⟨rest, hnames.resolve_left (by simp)⟩, htys', ?_⟩
    exact fun pair hpair x hx => (hvs pair (List.mem_cons_of_mem _ hpair) x hx).mono htu

/-! ### Steps of bodies -/

theorem Task.Step.keeps_block {s : Site} {ss : List Stmt}
    (h : (Task.block s ss).BegunWell D J p m)
    (hstep : Task.Step p rounds (.block s ss) m task m') : task.BegunWell D J p m' := by
  obtain ⟨t, hm, hs, hss⟩ := h
  cases hstep with
  | @inBlock _ before after st _ _ hbefore =>
    obtain ⟨u, -, hm', hs'⟩ :=
      hs.afterBlock hD hm (fun st hst => hss st (List.mem_append_left _ hst)) hbefore
    exact ⟨u, hm', hs', hss st (by simp)⟩

theorem Task.Step.keeps_loop {s : Site} {cond : Expr} {body : List Stmt} {n : Nat}
    (h : (Task.loop s cond body n).BegunWell D J p m)
    (hstep : Task.Step p rounds (.loop s cond body n) m task m') : task.BegunWell D J p m' := by
  obtain ⟨t, hm, hs, hcond, hbody⟩ := h
  cases hstep with
  | roundCond => exact ⟨t, hm, hs, hcond⟩
  | roundBody hholds =>
    obtain ⟨u, -, hm', hs'⟩ := hs.afterHolds hD hm hcond hholds
    exact ⟨u, hm', hs', hbody⟩
  | round hholds hflow _ =>
    obtain ⟨u, -, hm₁, hs₁⟩ := hs.afterHolds hD hm hcond hholds
    obtain ⟨w, -, hm₂, hs₂⟩ := hs₁.afterBlock hD hm₁ hbody hflow
    exact ⟨w, hm₂, hs₂, hcond, hbody⟩

theorem Task.Step.keeps_finish {s : Site} {index : Nat} {vs : List Value}
    (h : (Task.finish s index vs).BegunWell D J p m)
    (hstep : Task.Step p rounds (.finish s index vs) m task m') : task.BegunWell D J p m' := by
  obtain ⟨t, hm, hs, hvs, hbinds⟩ := h
  cases hstep with
  | @finished _ _ v w vs _ _ hw hset =>
    have hfunction := (Site.code_keeps hD rounds hs).function
    have hplaces := Discipline.places_of_bindAs (hvs v List.mem_cons_self) hbinds.first hw
    obtain ⟨u, htu, hm', hs', -⟩ := hs.after hm (fun _ => setReturn hfunction hplaces.2) hset
    exact ⟨u, hm', hs', fun x hx => (hvs x (List.mem_cons_of_mem _ hx)).mono htu, hbinds.rest⟩

/-- The values of an assignment to several targets go to targets that take them. -/
theorem Task.Step.keeps_assign {s : Site} {targets : List Target} {value : Expr}
    (h : (Task.stmt s (.assign targets value)).BegunWell D J p m)
    (hstep : Task.Step p rounds (.stmt s (.assign targets value)) m task m') :
    task.BegunWell D J p m' := by
  obtain ⟨t, hm, hs, hst⟩ := h
  have hJ := hs.sound hD
  have hvalue : (J s.function).Admits value := hJ.stmts.expr hst (by simp [Stmt.exprs])
  cases hstep with
  | assigned | assignedAll => exact ⟨t, hm, hs, hvalue⟩
  | written hv =>
    obtain ⟨u, -, hm', hs', hknows, hyields⟩ := hs.afterEval hD hm hvalue hv
    exact ⟨u, hm', hs', hknows, hJ.stmts.assigned hst hyields⟩
  | @writtenEach _ before after target _ vs vs' v _ _ _ htargets hvalues hlen hlen' hwritten =>
    obtain ⟨u, -, hm₁, hs₁, hknows, hyields⟩ := hs.afterResults hD hm hvalue hvalues
    have htakes : List.Forall₂ (J s.function).Takes (before ++ target :: after)
        (vs ++ v :: vs') :=
      hJ.stmts.assignedAll hst htargets hyields (by simp [hlen, hlen'])
    obtain ⟨hbefore, hrest⟩ := forall₂_append htakes hlen
    obtain ⟨w, huw, hm₂, hs₂, -⟩ := hs₁.after hm₁ (fun _ =>
      writeAll_keeps (Site.code_keeps hD rounds hs) hJ before u
        (fun x hx => hknows x (List.mem_append_left _ hx)) hbefore) hwritten
    exact ⟨w, hm₂, hs₂, (hknows v (by simp)).mono huw, (List.forall₂_cons.mp hrest).1⟩

/-- The values of a result are those that the function declares. -/
theorem Task.Step.keeps_result {s : Site} {values : List Expr}
    (h : (Task.stmt s (.result values)).BegunWell D J p m)
    (hstep : Task.Step p rounds (.stmt s (.result values)) m task m') :
    task.BegunWell D J p m' := by
  obtain ⟨t, hm, hs, hst⟩ := h
  have hJ := hs.sound hD
  have hvalues : ∀ e ∈ values, (J s.function).Admits e := fun e he => hJ.stmts.expr hst he
  cases hstep with
  | resultAll => exact ⟨t, hm, hs, hvalues _ (by simp)⟩
  | resultEach _ hbefore =>
    obtain ⟨u, -, hm', hs', -⟩ :=
      hs.afterArgs hD hm (fun x hx => hvalues x (List.mem_append_left _ hx)) hbefore
    exact ⟨u, hm', hs', hvalues _ (by simp)⟩
  | result hvs =>
    obtain ⟨u, -, hm', hs', hvs'⟩ := hs.after hm (fun _ =>
      resultValues_keeps (Site.code_keeps hD rounds hs) hJ values hst t) hvs
    exact ⟨u, hm', hs', hvs'⟩

theorem Task.Step.keeps_stmt {s : Site} {st : Stmt} (h : (Task.stmt s st).BegunWell D J p m)
    (hstep : Task.Step p rounds (.stmt s st) m task m') : task.BegunWell D J p m' := by
  have hwhole := h
  obtain ⟨t, hm, hs, hst⟩ := h
  have hJ := (hs.sound hD).stmts
  have hexpr {e : Expr} (he : e ∈ st.exprs) : (J s.function).Admits e := hJ.expr hst he
  cases st with
  | assign targets value => exact keeps_assign hD hwhole hstep
  | result values => exact keeps_result hD hwhole hstep
  | branch cond yes no =>
    have hcond := hexpr (e := cond) (by simp [Stmt.exprs])
    cases hstep with
    | cond => exact ⟨t, hm, hs, hcond⟩
    | @chosen _ _ _ _ b _ _ hholds =>
      obtain ⟨u, -, hm', hs'⟩ := hs.afterHolds hD hm hcond hholds
      refine ⟨u, hm', hs', fun st hmem => hJ.inner hst ?_⟩
      cases b with
      | true => exact List.mem_append_left _ hmem
      | false => exact List.mem_append_right _ hmem
  | define name ty init? slot? =>
    cases hstep with
    | start => exact ⟨t, hm, hs, hexpr (by simp [Stmt.exprs])⟩
  | loop cond body =>
    cases hstep with
    | loop => exact ⟨t, hm, hs, hexpr (by simp [Stmt.exprs]), fun st hmem => hJ.inner hst hmem⟩
  | run e =>
    cases hstep with
    | run => exact ⟨t, hm, hs, hexpr (by simp [Stmt.exprs])⟩
  | block body =>
    cases hstep with
    | inner => exact ⟨t, hm, hs, fun st hmem => hJ.inner hst hmem⟩
  | leave | next => cases hstep

theorem Task.Step.keeps_write {s : Site} {v : Value} {target : Target}
    (h : (Task.write s v target).BegunWell D J p m)
    (hstep : Task.Step p rounds (.write s v target) m task m') : task.BegunWell D J p m' := by
  obtain ⟨t, hm, hs, -, htakes⟩ := h
  have hpart {e : Expr} (he : e ∈ target.parts) : (J s.function).Admits e :=
    (hs.sound hD).targets.target htakes he
  cases hstep with
  | writeBase | writeStruct => exact ⟨t, hm, hs, hpart (by simp [Target.parts])⟩
  | writeKey hbase =>
    obtain ⟨u, -, hm', hs', -⟩ := hs.afterEval hD hm (hpart (by simp [Target.parts])) hbase
    exact ⟨u, hm', hs', hpart (by simp [Target.parts])⟩

/-! ### Steps of expressions -/

theorem Task.Step.keeps_eval {s : Site} {e : Expr} (h : (Task.eval s e).BegunWell D J p m)
    (hstep : Task.Step p rounds (.eval s e) m task m') : task.BegunWell D J p m' := by
  obtain ⟨t, hm, hs, he⟩ := h
  have hJ := (hs.sound hD).exprs
  have hcode := Site.code_keeps hD rounds hs
  have hpart {x : Expr} (hx : x ∈ e.parts) : (J s.function).Admits x := hJ.part he hx
  cases hstep with
  | values => exact ⟨t, hm, hs, he⟩
  | payload | base | field | operand | left | castOperand =>
    exact ⟨t, hm, hs, hpart (by simp [Expr.parts])⟩
  | key hbefore | right hbefore =>
    obtain ⟨u, -, hm', hs', -⟩ := hs.afterEval hD hm (hpart (by simp [Expr.parts])) hbefore
    exact ⟨u, hm', hs', hpart (by simp [Expr.parts])⟩
  | @item _ elem before after x _ _ _ hbefore =>
    have hitems : ∀ y ∈ before ++ x :: after, (J s.function).Admits y ∧
        ∀ v, (J s.function).Yields y v → D.Binds elem v :=
      fun y hy => ⟨hpart hy, fun v hv => hJ.item he hy hv⟩
    exact hs.evalBegun hm (hitems x (by simp)).1 (fun _ => evalItems_keeps hcode hJ elem before
      (fun y hy => hitems y (List.mem_append_left _ hy)) t) hbefore
  | @entry _ before after key x _ _ _ hbefore =>
    have hentries : ∀ entry ∈ before ++ (key, x) :: after, (J s.function).Admits entry.2 :=
      fun entry hentry => hpart (List.mem_map_of_mem hentry)
    exact hs.evalBegun hm (hentries (key, x) (by simp)) (fun _ => evalEntries_keeps hcode hJ before
      (fun y hy => hentries y (List.mem_append_left _ hy)) t) hbefore
  | @fieldValue _ name field before after x decl _ _ _ hdecl hbefore =>
    have hfields : ∀ entry ∈ before ++ (field, x) :: after, (J s.function).Admits entry.2 ∧
        ∀ ty v, decl.fieldType? entry.1 = some ty → (J s.function).Yields entry.2 v →
          D.Binds ty v :=
      fun entry hentry => ⟨hpart (List.mem_map_of_mem hentry),
        fun ty v hty hv => hJ.given he hentry hdecl hty hv⟩
    exact hs.evalBegun hm (hfields (field, x) (by simp)).1 (fun _ =>
      evalFields_keeps hcode hJ decl _ before (fun y hy => hfields y (List.mem_append_left _ hy)) t
        (D.fieldsOf_default t decl)) hbefore
  | @connectorArg _ name before after x _ _ _ hbefore =>
    have hargs : ∀ y ∈ before ++ x :: after, (J s.function).Admits y := fun y hy => hpart hy
    exact hs.evalBegun hm (hargs x (by simp)) (fun _ => evalArgs_keeps hcode hJ before
      (fun y hy => hargs y (List.mem_append_left _ hy)) t) hbefore

/-- A call that is begun for a call in a body gets values that callers may hand over. -/
theorem Task.Step.keeps_results {s : Site} {e : Expr} (h : (Task.results s e).BegunWell D J p m)
    (hstep : Task.Step p rounds (.results s e) m task m') : task.BegunWell D J p m' := by
  obtain ⟨t, hm, hs, he⟩ := h
  have hJ := (hs.sound hD).exprs
  have hcode := Site.code_keeps hD rounds hs
  have hpart {x : Expr} (hx : x ∈ e.parts) : (J s.function).Admits x := hJ.part he hx
  cases hstep with
  | value => exact ⟨t, hm, hs, he⟩
  | callArg _ hbefore =>
    obtain ⟨u, -, hm', hs'⟩ := hs.afterStageArgs hD hm
      (fun x hx => hpart (List.mem_append_left _ hx)) hbefore
    exact ⟨u, hm', hs', hpart (by simp [Expr.parts])⟩
  | @called _ callee args stage unit vs _ _ _ hunit hargs hvs =>
    have hparts : ∀ x ∈ args, (J s.function).Admits x := fun x hx => hpart hx
    obtain ⟨u, -, hm₁, hs₁⟩ := hs.afterStageArgs hD hm hparts hargs
    obtain ⟨w, hm₂, hknows⟩ := hs₁.afterTakeStaged hD hm₁ hvs
    obtain ⟨rest, hrest⟩ := hs.top
    have hhands := hcode.called he hunit (evalArgs_yields hcode hJ args hparts) m t hm hrest vs
      (by rw [on_bind, hargs]; simp only [hvs])
    exact ⟨w, hm₂, ⟨callee, Program.find?_of_resolve hunit⟩, hknows, hhands⟩
  | actionTarget => exact ⟨t, hm, hs, hpart (by simp [Expr.parts])⟩
  | @actionArg _ target name _ before after x stage v _ _ _ _ htarget _ hstaged hbefore =>
    obtain ⟨u, -, hm₁, hs₁, hknows, -⟩ :=
      hs.afterEval hD hm (hpart (by simp [Expr.parts])) htarget
    obtain ⟨w, -, hm₂, hs₂⟩ := hs₁.afterSetTemp hD hm₁ hknows hstaged
    obtain ⟨w', -, hm₃, hs₃⟩ := hs₂.afterStageArgs hD hm₂
      (fun y hy => hpart (List.mem_cons_of_mem _ (List.mem_append_left _ hy))) hbefore
    exact ⟨w', hm₃, hs₃, hpart (by simp [Expr.parts])⟩
  | @acted _ target name connector args stage unit v vs _ _ _ _ _ htarget hconnector hstaged hargs
      hunit hvs =>
    have hparts : ∀ x ∈ args, (J s.function).Admits x :=
      fun x hx => hpart (List.mem_cons_of_mem _ hx)
    obtain ⟨u, -, hm₁, hs₁, hknows, hyields⟩ :=
      hs.afterEval hD hm (hpart (by simp [Expr.parts])) htarget
    obtain ⟨w, -, hm₂, hs₂⟩ := hs₁.afterSetTemp hD hm₁ hknows hstaged
    obtain ⟨w', -, hm₃, hs₃⟩ := hs₂.afterStageArgs hD hm₂ hparts hargs
    obtain ⟨w'', hm₄, hvs'⟩ := hs₃.afterTakeStaged hD hm₃ hvs
    obtain ⟨id, rfl⟩ := exists_of_connectorName hconnector
    obtain ⟨rest, hrest⟩ := hs₁.top
    have hhands := hcode.acted he hyields hunit (evalArgs_yields hcode hJ args hparts) _ u hm₁
      hrest vs (by simp only [on_bind, hstaged, hargs, hvs])
    exact ⟨w'', hm₄, ⟨_, Program.find?_of_resolve hunit⟩, hvs', hhands⟩

end Steps

/-! ### Runs -/

/-- **Each step of a run begins its task well.**

**Proof sketch.** There is one lemma for each kind of task. A task that is begun at once is begun in
the same state. One that comes behind others is begun in the state these lead to, which obeys the
discipline by what was shown of expressions, statements and calls. -/
theorem Task.Step.keeps {task₁ task₂ : Task} {m₁ m₂ : Machine}
    (h : task₁.BegunWell D J p m₁) (hstep : Task.Step p rounds task₁ m₁ task₂ m₂) :
    task₂.BegunWell D J p m₂ := by
  cases task₁ with
  | call => exact keeps_call hD h hstep
  | dispatch => exact keeps_dispatch hD h hstep
  | store => exact keeps_store hD h hstep
  | block => exact keeps_block hD h hstep
  | stmt => exact keeps_stmt hD h hstep
  | loop => exact keeps_loop hD h hstep
  | finish => exact keeps_finish hD h hstep
  | write => exact keeps_write hD h hstep
  | eval => exact keeps_eval hD h hstep
  | results => exact keeps_results hD h hstep

/-- The computation of a task keeps the discipline. -/
theorem Task.KnownIn.exec_keeps (rounds : Nat) {task : Task} {t : HeapTyping} {names : List String}
    (h : task.KnownIn D J p t names) :
    Keeps D p names t (task.exec p rounds) fun _ _ => True := by
  cases task with
  | call levels unit args =>
    obtain ⟨⟨name, hfound⟩, hargs, hhands⟩ := h
    exact bind (hD.governs.call levels hfound names t args hargs hhands)
      fun _ _ _ _ => Keeps.pure trivial
  | dispatch levels unit =>
    obtain ⟨⟨name, hfound⟩, rest, rfl⟩ := h
    exact hD.governs.dispatch (fun _ _ hunit => hD.governs.call levels hunit) hfound rest t
  | store unit index vs tys =>
    obtain ⟨⟨name, hfound⟩, ⟨rest, rfl⟩, htys, hvs⟩ := h
    exact Keeps.storeResults (hD.governs.find? hfound) htys hvs
  | block s ss =>
    obtain ⟨hs, hss⟩ := h
    obtain ⟨rest, rfl⟩ := hs.top
    exact bind (execBlock_keeps (Site.code_keeps hD rounds hs) (hs.sound hD) ss hss t)
      fun _ _ _ _ => Keeps.pure trivial
  | stmt s st =>
    obtain ⟨hs, hst⟩ := h
    obtain ⟨rest, rfl⟩ := hs.top
    exact bind (FrameScript.exec_keeps (Site.code_keeps hD rounds hs) (hs.sound hD) st hst t)
      fun _ _ _ _ => Keeps.pure trivial
  | loop s cond body n =>
    obtain ⟨hs, hcond, hbody⟩ := h
    obtain ⟨rest, rfl⟩ := hs.top
    have hcode := Site.code_keeps hD rounds hs
    have hJ := hs.sound hD
    exact bind (Keeps.runLoop (fun t => holds_keeps hcode hJ.exprs cond hcond t)
      (fun t => execBlock_keeps hcode hJ body hbody t) n t) fun _ _ _ _ => Keeps.pure trivial
  | finish s index vs =>
    obtain ⟨hs, hvs, hbinds⟩ := h
    obtain ⟨rest, rfl⟩ := hs.top
    exact writeResults_keeps (Site.code_keeps hD rounds hs) (hs.sound hD) index t hvs hbinds
  | write s v target =>
    obtain ⟨hs, hv, htakes⟩ := h
    obtain ⟨rest, rfl⟩ := hs.top
    exact write_keeps (Site.code_keeps hD rounds hs) (hs.sound hD) target t hv htakes
  | eval s e =>
    obtain ⟨hs, he⟩ := h
    obtain ⟨rest, rfl⟩ := hs.top
    exact bind (eval_keeps (Site.code_keeps hD rounds hs) (hs.sound hD).exprs e he t)
      fun _ _ _ _ => Keeps.pure trivial
  | results s e =>
    obtain ⟨hs, he⟩ := h
    obtain ⟨rest, rfl⟩ := hs.top
    exact bind (results_keeps (Site.code_keeps hD rounds hs) (hs.sound hD).exprs e he t)
      fun _ _ _ _ => Keeps.pure trivial

/-- The tasks of a run that is begun well are begun well. -/
theorem Task.Reaches.begunWell {task task' : Task} {m m' : Machine}
    (h : task.BegunWell D J p m) (hr : Task.Reaches p rounds task m task' m') :
    task'.BegunWell D J p m' :=
  hr.invariant (fun _ _ _ _ hbegun hstep => Task.Step.keeps hD hbegun hstep) h

/-- Every state of a run that is begun well obeys the discipline. -/
theorem Task.Visits.obeys {task : Task} {m m' : Machine} (h : task.BegunWell D J p m)
    (hvisits : Task.Visits p rounds task m m') : ∃ t, m'.Obeys D p t := by
  cases hvisits with
  | begun hr =>
    obtain ⟨t, hm, _⟩ := hr.begunWell hD h
    exact ⟨t, hm⟩
  | ended hr =>
    obtain ⟨t, hm, hknown⟩ := hr.begunWell hD h
    obtain ⟨u, _, hm', _⟩ := Task.KnownIn.exec_keeps hD rounds hknown _ hm rfl
    exact ⟨u, hm'⟩

/-- A call of a run that ends with values ends with what its callee declares. -/
theorem Task.BegunWell.returns {levels : Nat} {unit : Callable} {args vs : List Value}
    {m m' : Machine} (h : (Task.call levels unit args).BegunWell D J p m)
    (hrun : (FrameScript.call p rounds levels unit args).on m = (.ok vs, m')) :
    List.Forall₂ D.Holds unit.sig.returns vs := by
  obtain ⟨t, hm, ⟨name, hfound⟩, hargs, hhands⟩ := h
  obtain ⟨u, _, _, _, hpost⟩ := hD.governs.call levels hfound _ t args hargs hhands m hm rfl
  exact (hpost vs (by rw [hrun])).imp fun _ _ h => h.holds

end Run

/-! ## References in a state -/

/-- A value that occurs somewhere in a state: in a frame, or inside an object. -/
inductive Machine.Mentions (m : Machine) : Value → Prop
  /-- An argument or a variable. -/
  | slot {f : Frame} {v : Value} (hf : f ∈ m.context.frames) (hv : v ∈ f.slots) : Mentions m v
  /-- A result. -/
  | result {f : Frame} {v : Value} (hf : f ∈ m.context.frames) (hv : v ∈ f.returns) : Mentions m v
  /-- A staged value. -/
  | staged {f : Frame} {v : Value} (hf : f ∈ m.context.frames) (hv : some v ∈ f.temps) :
    Mentions m v
  /-- An element of an array that occurs itself. -/
  | element {elem : Ty} {id : Nat} {v : Value} (h : Mentions m (.array elem id))
    (hv : v ∈ m.heap.array id) : Mentions m v
  /-- A value in a map. -/
  | entry {id : Nat} {key : String} {v : Value} (h : Mentions m (.map id))
    (hv : (key, v) ∈ m.heap.map id) : Mentions m v
  /-- A field of a struct. -/
  | field {name : String} {id : Nat} {field : String} {v : Value}
    (h : Mentions m (.struct name id)) (hv : (field, v) ∈ m.heap.struct id) : Mentions m v
  /-- What a connector is built from. -/
  | argument {name : String} {id : Nat} {v : Value} (h : Mentions m (.connector name id))
    (hv : v ∈ m.heap.connector id) : Mentions m v

/-- What occurs in a state that obeys a discipline is known. -/
theorem Machine.Mentions.knows {D : Discipline} {p : Program} {t : HeapTyping} {m : Machine}
    (hm : m.Obeys D p t) {v : Value} (h : m.Mentions v) : t.Knows v := by
  induction h with
  | slot hf hv =>
    obtain ⟨unit, _, hf⟩ := hm.frames _ hf
    obtain ⟨ty, hplaces⟩ := forall₂_right_mem hf.slots hv
    exact hplaces.knows
  | result hf hv =>
    obtain ⟨unit, _, hf⟩ := hm.frames _ hf
    obtain ⟨ty, hplaces⟩ := forall₂_right_mem hf.returns hv
    exact hplaces.knows
  | staged hf hv =>
    obtain ⟨unit, _, hf⟩ := hm.frames _ hf
    exact hf.temps _ hv
  | element _ hv ih => exact (hm.heap.array _ _ ih _ hv).knows
  | entry _ hv _ => exact hm.heap.map _ _ hv
  | field _ hv ih =>
    obtain ⟨decl, _, hfields⟩ := hm.heap.struct _ _ ih
    obtain ⟨param, _, hplaces⟩ := forall₂_right_mem hfields hv
    exact hplaces.knows
  | argument _ hv ih => exact (hm.heap.connector _ _ ih).knows _ hv

end FrameScript
