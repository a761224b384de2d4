import FrameScript.Proofs.Origins

set_option autoImplicit false

/-!
# Failures end what is around them

No statement and no expression catches a failure. So a task that is begun on behalf of another and
fails makes the other fail too, in the same way. This is the converse of `Task.Fails.traced`, by
which a failure comes from such a task if it does not come up in the task itself.

## Main results

* `Task.Step.fails` — a failure on behalf of a task is one of the task.
-/

namespace FrameScript

open Exec

/-! ## Lists -/

section Lists

variable {code : Code} {m m₁ m' : Machine} {t : Stop}

theorem evalArgs_of_error {before after : List Expr} {e : Expr} {vs : List Value}
    (hbefore : (evalArgs code before).on m = (.ok vs, m₁))
    (he : (e.eval code).on m₁ = (.error t, m')) :
    (evalArgs code (before ++ e :: after)).on m = (.error t, m') := by
  induction before generalizing m vs with
  | nil =>
    cases hbefore
    exact on_bind_error he
  | cons first before ih =>
    obtain ⟨v, m₂, hfirst, hrest⟩ := (bind_ok m).mp hbefore
    obtain ⟨ws, m₃, hrest, h⟩ := (bind_ok m₂).mp hrest
    cases h
    exact (on_bind_ok hfirst).trans (on_bind_error (ih hrest))

theorem evalEntries_of_error {before after : List (String × Expr)} {key : String} {e : Expr}
    {vs : List (String × Value)} (hbefore : (evalEntries code before).on m = (.ok vs, m₁))
    (he : (e.eval code).on m₁ = (.error t, m')) :
    (evalEntries code (before ++ (key, e) :: after)).on m = (.error t, m') := by
  induction before generalizing m vs with
  | nil =>
    cases hbefore
    exact on_bind_error he
  | cons first before ih =>
    obtain ⟨v, m₂, hfirst, hrest⟩ := (bind_ok m).mp hbefore
    obtain ⟨ws, m₃, hrest, h⟩ := (bind_ok m₂).mp hrest
    cases h
    exact (on_bind_ok hfirst).trans (on_bind_error (ih hrest))

theorem evalItems_of_error {elem : Ty} {before after : List Expr} {e : Expr} {vs : List Value}
    (hbefore : (evalItems code elem before).on m = (.ok vs, m₁))
    (he : (e.eval code).on m₁ = (.error t, m')) :
    (evalItems code elem (before ++ e :: after)).on m = (.error t, m') := by
  induction before generalizing m vs with
  | nil =>
    cases hbefore
    exact on_bind_error he
  | cons first before ih =>
    obtain ⟨v, m₂, hfirst, hrest⟩ := (bind_ok m).mp hbefore
    obtain ⟨w, m₃, hbind, hrest⟩ := (bind_ok m₂).mp hrest
    obtain ⟨ws, m₄, hrest, h⟩ := (bind_ok m₃).mp hrest
    cases h
    exact (on_bind_ok hfirst).trans ((on_bind_ok hbind).trans (on_bind_error (ih hrest)))

theorem evalFields_of_error {decl : StructDecl} {fields vs : List (String × Value)}
    {before after : List (String × Expr)} {name : String} {e : Expr}
    (hbefore : (evalFields code decl fields before).on m = (.ok vs, m₁))
    (he : (e.eval code).on m₁ = (.error t, m')) :
    (evalFields code decl fields (before ++ (name, e) :: after)).on m = (.error t, m') := by
  induction before generalizing m fields with
  | nil =>
    cases hbefore
    exact on_bind_error he
  | cons first before ih =>
    obtain ⟨v, m₂, hfirst, hrest⟩ := (bind_ok m).mp hbefore
    obtain ⟨fields', m₃, hinit, hrest⟩ := (bind_ok m₂).mp hrest
    exact (on_bind_ok hfirst).trans ((on_bind_ok hinit).trans (ih hrest))

theorem stageArgs_of_error {stage : Nat} {before after : List Expr} {e : Expr}
    (hbefore : (stageArgs code stage before).on m = (.ok (), m₁))
    (he : (e.eval code).on m₁ = (.error t, m')) :
    (stageArgs code stage (before ++ e :: after)).on m = (.error t, m') := by
  induction before generalizing m stage with
  | nil =>
    cases hbefore
    exact on_bind_error he
  | cons first before ih =>
    obtain ⟨v, m₂, hfirst, hrest⟩ := (bind_ok m).mp hbefore
    obtain ⟨_, m₃, hstaged, hrest⟩ := (bind_ok m₂).mp hrest
    exact (on_bind_ok hfirst).trans ((on_bind_ok hstaged).trans (ih hrest))

theorem writeAll_of_error {before after : List Target} {target : Target} {vs ws : List Value}
    {v : Value} (hlen : before.length = vs.length)
    (hbefore : (writeAll code before vs).on m = (.ok (), m₁))
    (hw : (target.write code v).on m₁ = (.error t, m')) :
    (writeAll code (before ++ target :: after) (vs ++ v :: ws)).on m = (.error t, m') := by
  induction before generalizing m vs with
  | nil =>
    obtain rfl : vs = [] := List.length_eq_zero_iff.mp hlen.symm
    cases hbefore
    exact on_bind_error hw
  | cons first before ih =>
    obtain _ | ⟨u, vs⟩ := vs
    · cases hlen
    obtain ⟨_, m₂, hfirst, hrest⟩ := (bind_ok m).mp hbefore
    exact (on_bind_ok hfirst).trans (ih (Nat.succ.inj hlen) hrest)

theorem execBlock_of_error {before after : List Stmt} {st : Stmt}
    (hbefore : (execBlock code before).on m = (.ok .onward, m₁))
    (hst : (st.exec code).on m₁ = (.error t, m')) :
    (execBlock code (before ++ st :: after)).on m = (.error t, m') := by
  induction before generalizing m with
  | nil =>
    cases hbefore
    exact on_bind_error hst
  | cons first before ih =>
    obtain ⟨flow, m₂, hfirst, hrest⟩ := (bind_ok m).mp hbefore
    cases flow with
    | onward => exact (on_bind_ok hfirst).trans (ih hrest)
    | _ => cases hrest

end Lists

/-! ## Steps -/

namespace Task

variable {p : Program} {rounds : Nat}

theorem handled_fails {levels : Nat} {unit : NativeUnit} {run : Exec (List Value)}
    {vs : List Value} {f : Frame} {fs : List Frame} {m m₁ m' : Machine} {x : Failure}
    (hrun : unit.handler = .function run) (hvs : run.on m = (.ok vs, m₁))
    (hf : m₁.context.frames = f :: fs) (hcount : vs.length ≤ f.returns.length)
    (hx : (Task.store unit 0 vs unit.sig.returns).Fails p rounds m₁ x m') :
    (Task.dispatch levels (.native unit)).Fails p rounds m x m' := by
  have hframe : Exec.frame.on m₁ = (.ok f, m₁) := by rw [on_frame, hf]
  change unit.run.on m = _
  rw [NativeUnit.run, hrun]
  refine (on_bind_ok hvs).trans ((on_bind_ok hframe).trans ?_)
  rw [if_neg (Nat.not_lt.mpr hcount)]
  exact hx

theorem mapped_fails {levels : Nat} {unit : NativeUnit} {run : Exec Value} {v : Value} {ty : Ty}
    {tys : List Ty} {m m₁ m' : Machine} {x : Failure} (hrun : unit.handler = .typeMapper run)
    (hv : run.on m = (.ok v, m₁)) (htys : unit.sig.returns = ty :: tys)
    (hx : (Task.store unit 0 [v] [ty]).Fails p rounds m₁ x m') :
    (Task.dispatch levels (.native unit)).Fails p rounds m x m' := by
  change unit.run.on m = _
  rw [NativeUnit.run, hrun]
  refine (on_bind_ok hv).trans ?_
  rw [htys]
  rcases (bind_error m₁).mp hx with h | ⟨w, m₂, hw, h⟩
  · exact on_bind_error h
  rcases (bind_error m₂).mp h with h | ⟨_, _, _, h⟩
  · exact (on_bind_ok hw).trans h
  · cases h

theorem assign_of_many {code : Code} {targets : List Target} {value : Expr}
    (h : targets.length ≠ 1) :
    assign code targets value = (do
      let vs ← value.results code
      if vs.length != targets.length then
        fault (.analyzerDefect (.assignmentCount targets.length vs.length))
      else writeAll code targets vs) :=
  match targets, h with
  | [], _ => rfl
  | [_], h => absurd rfl h
  | _ :: _ :: _, _ => rfl

theorem resultValues_of_single {code : Code} {value : Expr} {ty ty' : Ty} {tys : List Ty}
    (h : code.function.sig.returns = ty :: ty' :: tys) :
    resultValues code [value] = value.results code := by
  unfold resultValues
  rw [h]

theorem resultValues_of_each {code : Code} {values : List Expr}
    (h : values.length = 1 → code.function.sig.returns.length < 2) :
    resultValues code values = evalArgs code values := by
  rcases resultValues_cases code values with ⟨value, _, _, _, rfl, hreturns, _⟩ | ⟨_, heq⟩
  · have hlt := h rfl
    rw [hreturns] at hlt
    simp only [List.length_cons] at hlt
    omega
  · exact heq

theorem results_of_value {code : Code} {e : Expr} (h : e.isCall = false) :
    e.results code = (do let v ← e.eval code; pure [v]) := by
  cases e <;> first | rfl | cases h

theorem eval_of_call {code : Code} {e : Expr} (h : e.isCall = true) :
    e.eval code = (do let vs ← e.results code; firstResult vs) := by
  cases e with
  | call => rfl
  | action => simp only [Expr.eval, Expr.results, bind_assoc]
  | _ => cases h

/-- **A failure on behalf of a task is one of the task**, unless the task is a call, which takes its
frame away first. -/
theorem Step.fails {task₁ task₂ : Task} {m₁ m₂ m' : Machine} {x : Failure}
    (h : Step p rounds task₁ m₁ task₂ m₂)
    (hnot : ∀ levels unit args, task₁ ≠ .call levels unit args)
    (hframe : m₂.context.frames ≠ []) (hx : task₂.Fails p rounds m₂ x m') :
    task₁.Fails p rounds m₁ x m' := by
  have hdrop {α : Type} {y : Exec α} {m : Machine}
      (h : (do let _ ← y : Exec Unit).on m = (.error (.failed x), m')) :
      y.on m = (.error (.failed x), m') := drop_error.mp h
  have hholds {s : Site} {cond : Expr} {m : Machine}
      (h : (Task.eval s cond).Fails p rounds m x m') :
      (cond.holds (s.code p rounds)).on m = (.error (.failed x), m') := on_bind_error (hdrop h)
  cases h with
  | call => exact absurd rfl (hnot _ _ _)
  | body => exact on_bind_error (hdrop hx)
  | handled hrun hvs hf hcount => exact handled_fails hrun hvs hf hcount hx
  | mapped hrun hv htys => exact mapped_fails hrun hv htys hx
  | stored hw hset =>
    exact (on_ofExcept_bind hw _).trans ((on_bind_ok hset).trans hx)
  | inBlock hbefore => exact drop_error.mpr (execBlock_of_error hbefore (hdrop hx))
  | start => exact drop_error.mpr (on_bind_error (hdrop hx))
  | assigned => exact drop_error.mpr (on_bind_error (on_bind_error (hdrop hx)))
  | written hv => exact drop_error.mpr (on_bind_error ((on_bind_ok hv).trans hx))
  | assignedAll htargets =>
    refine drop_error.mpr (on_bind_error ?_)
    rw [assign_of_many htargets]
    exact on_bind_error (hdrop hx)
  | writtenEach htargets hvalues hlen hlen' hwritten =>
    refine drop_error.mpr (on_bind_error ?_)
    rw [assign_of_many htargets, on_bind_ok hvalues, if_neg (by simp [hlen, hlen'])]
    exact writeAll_of_error hlen hwritten hx
  | cond => exact drop_error.mpr (on_bind_error (hholds hx))
  | @chosen _ _ _ _ b _ _ hcond =>
    refine drop_error.mpr ((on_bind_ok hcond).trans ?_)
    cases b <;> exact hdrop hx
  | loop => exact hx
  | roundCond => exact drop_error.mpr (on_bind_error (hholds hx))
  | roundBody hcond =>
    exact drop_error.mpr ((on_bind_ok hcond).trans (on_bind_error (hdrop hx)))
  | round hcond hbody hflow =>
    refine drop_error.mpr ((on_bind_ok hcond).trans ((on_bind_ok hbody).trans ?_))
    rcases hflow with rfl | rfl <;> exact hdrop hx
  | resultAll htys =>
    refine drop_error.mpr (on_bind_error ?_)
    rw [resultValues_of_single htys]
    exact hdrop hx
  | resultEach hone hbefore =>
    refine drop_error.mpr (on_bind_error ?_)
    rw [resultValues_of_each hone]
    exact evalArgs_of_error hbefore (hdrop hx)
  | result hvs =>
    obtain ⟨f, fs, hfs⟩ := List.exists_cons_of_ne_nil hframe
    have hon : Exec.frame.on m₂ = (.ok f, m₂) := by rw [on_frame, hfs]
    exact drop_error.mpr ((on_bind_ok hvs).trans ((on_bind_ok hon).trans (on_bind_error hx)))
  | finished hw hset =>
    exact (on_ofExcept_bind hw _).trans ((on_bind_ok hset).trans hx)
  | run => exact drop_error.mpr (on_bind_error (hdrop hx))
  | inner => exact hx
  | writeBase | writeStruct => exact on_bind_error (hdrop hx)
  | writeKey hbase => exact (on_bind_ok hbase).trans (on_bind_error (hdrop hx))
  | value he =>
    refine drop_error.mpr ?_
    rw [results_of_value he]
    exact on_bind_error (hdrop hx)
  | values he =>
    refine drop_error.mpr ?_
    rw [eval_of_call he]
    exact on_bind_error (hdrop hx)
  | callArg hunit hbefore =>
    refine drop_error.mpr ((on_ofExcept_bind hunit _).trans (on_bind_error ?_))
    exact stageArgs_of_error hbefore (hdrop hx)
  | called hunit hargs hvs =>
    refine drop_error.mpr ((on_ofExcept_bind hunit _).trans ((on_bind_ok hargs).trans ?_))
    exact (on_bind_ok hvs).trans (hdrop hx)
  | actionTarget => exact drop_error.mpr (on_bind_error (hdrop hx))
  | actionArg htarget hconnector hstaged hbefore =>
    refine drop_error.mpr ((on_bind_ok htarget).trans ((on_ofExcept_bind hconnector _).trans ?_))
    exact (on_bind_ok hstaged).trans (on_bind_error (stageArgs_of_error hbefore (hdrop hx)))
  | acted htarget hconnector hstaged hargs hunit hvs =>
    refine drop_error.mpr ((on_bind_ok htarget).trans ((on_ofExcept_bind hconnector _).trans ?_))
    refine (on_bind_ok hstaged).trans ((on_bind_ok hargs).trans ?_)
    exact (on_ofExcept_bind hunit _).trans ((on_bind_ok hvs).trans (hdrop hx))
  | item hbefore => exact drop_error.mpr (on_bind_error (evalItems_of_error hbefore (hdrop hx)))
  | entry hbefore => exact drop_error.mpr (on_bind_error (evalEntries_of_error hbefore (hdrop hx)))
  | fieldValue hdecl hbefore =>
    refine drop_error.mpr ?_
    simp only [Expr.eval, Site.code, hdecl]
    exact on_bind_error (evalFields_of_error hbefore (hdrop hx))
  | connectorArg hbefore =>
    exact drop_error.mpr (on_bind_error (evalArgs_of_error hbefore (hdrop hx)))
  | payload | base | field | operand | left | castOperand =>
    exact drop_error.mpr (on_bind_error (hdrop hx))
  | key hbase => exact drop_error.mpr ((on_bind_ok hbase).trans (on_bind_error (hdrop hx)))
  | right hleft hopen =>
    refine drop_error.mpr ((on_bind_ok hleft).trans ?_)
    rw [hopen]
    exact on_bind_error (hdrop hx)

end Task

end FrameScript
