import FrameScript.Proofs.Results

set_option autoImplicit false

/-!
# Forwarding calls

A function that only hands its parameters on to a callee with the same types ends as the callee
does. On the way the arguments are bound twice, staged in between, and checked twice, and the
results are bound twice; none of this changes anything the second time. What is left of the detour
is one active call, so the callee finds the room it has under a limit that is lower by one.

## Main definitions

* `forwardingCall`, `FunctionDecl.Forwards` — declarations that only hand on their parameters.
* `Program.Forwards` — a function of a program that does so, and its callee.

## Main results

* `prepare_declared` — arguments that are bound already make the same frame.
* `callNamed_variables` — handing on variables hands on the values of their slots.
* `forwarding_endsAlike` — a forwarding function ends as its callee does under a lower limit.
* `forwarding_differs` — where the two can be told apart.
-/

namespace FrameScript

open Exec

/-! ## Binding twice -/

/-- Storing a value under the type it has been stored as leaves it as it is. -/
theorem Value.declaredAs_declaredAs (ty : Ty) (v : Value) :
    (v.declaredAs ty).declaredAs ty = v.declaredAs ty := by
  cases ty with
  | ref r => cases r <;> cases v <;> rfl
  | _ => rfl

/-- An argument that is taken is taken again once it is stored as its parameter. -/
theorem refused?_declaredAs {ty : Ty} {v : Value} (h : refused? ty v = none) :
    refused? ty (v.declaredAs ty) = none := by
  cases ty with
  | ref r =>
    cases r <;> cases v <;> exact h
  | _ => exact h

/-- Arguments are admitted exactly if no parameter refuses its own. -/
theorem checkArguments_eq_ok {sig : Signature} {args : List Value} :
    checkArguments sig args = .ok () ↔
      List.Forall₂ (fun ty v => refused? ty v = none) sig.paramTypes args := by
  refine ⟨fun h => ?_, fun h => ?_⟩
  · have hlen := length_of_checkArguments h
    rw [checkArguments, if_neg (by simpa using hlen)] at h
    exact forall₂_of_checkTypes hlen h
  · have hlen : args.length = sig.params.length := by
      rw [← h.length_eq, Signature.paramTypes, List.length_map]
    rw [checkArguments, if_neg (by simpa using hlen)]
    exact checkTypes_eq_ok h

/-- The arguments as they are stored in slots of the given types. -/
def declaredArgs (tys : List Ty) (args : List Value) : List Value :=
  (args.zip tys).map fun (v, ty) => v.declaredAs ty

theorem length_declaredArgs {tys : List Ty} {args : List Value} (h : args.length = tys.length) :
    (declaredArgs tys args).length = args.length := by
  rw [declaredArgs, List.length_map, List.length_zip, h, Nat.min_self]

/-- Storing arguments that are stored already changes nothing. -/
theorem declaredArgs_declaredArgs {tys : List Ty} {args : List Value}
    (h : args.length = tys.length) (extra : List Ty) :
    declaredArgs (tys ++ extra) (declaredArgs tys args) = declaredArgs (tys ++ extra) args := by
  induction tys generalizing args with
  | nil =>
    obtain rfl := List.length_eq_zero_iff.mp h
    rfl
  | cons ty tys ih =>
    obtain _ | ⟨v, args⟩ := args
    · cases h
    · exact congrArg₂ List.cons (Value.declaredAs_declaredAs ty v) (ih (Nat.succ.inj h))

/-- Arguments that are taken are taken again once they are stored. -/
theorem forall₂_declaredArgs {tys : List Ty} {args : List Value}
    (h : List.Forall₂ (fun ty v => refused? ty v = none) tys args) :
    List.Forall₂ (fun ty v => refused? ty v = none) tys (declaredArgs tys args) := by
  induction h with
  | nil => exact .nil
  | cons hfirst _ ih => exact .cons (refused?_declaredAs hfirst) ih

/-- The frame that admitted arguments make. -/
theorem prepare_of_checkArguments {unit : Callable} (hunit : unit.WellShaped) {args : List Value}
    (h : checkArguments unit.sig args = .ok ()) :
    ∃ temps, unit.shape = .ok (unit.slotTypes, temps) ∧ prepare unit args = .ok {
      unit := unit.sig.qualifiedName
      argCount := args.length
      slots := declaredArgs unit.slotTypes args ++
        (unit.slotTypes.drop args.length).map Ty.default
      temps := List.replicate temps none
      returns := unit.sig.returns.map Ty.default } := by
  rcases hprepare : prepare unit args with e | f
  · rw [prepare_eq_error hunit, h] at hprepare
    cases hprepare
  · obtain ⟨-, temps, hshape, rfl⟩ := prepare_ok hunit hprepare
    exact ⟨temps, hshape, rfl⟩

/-- Arguments that are stored as the parameters already make the same frame. -/
theorem prepare_declared {unit : Callable} (hunit : unit.WellShaped) {args : List Value}
    (h : checkArguments unit.sig args = .ok ()) :
    prepare unit (declaredArgs unit.sig.paramTypes args) = prepare unit args := by
  have hargs := checkArguments_eq_ok.mp h
  have hlen : args.length = unit.sig.paramTypes.length := hargs.length_eq.symm
  obtain ⟨temps, hshape, hprepare⟩ := prepare_of_checkArguments hunit h
  obtain ⟨temps', hshape', hprepare'⟩ := prepare_of_checkArguments hunit
    (checkArguments_eq_ok.mpr (forall₂_declaredArgs hargs))
  obtain ⟨extra, hextra⟩ := hunit.params
  rw [hshape] at hshape'
  cases hshape'
  rw [hprepare, hprepare', length_declaredArgs hlen, ← hextra, declaredArgs_declaredArgs hlen]

/-- A call sees of its arguments only the frame that they make. -/
theorem call_congr {unit : Callable} {args args' : List Value}
    (h : prepare unit args = prepare unit args') (p : Program) (rounds levels : Nat) :
    call p rounds levels unit args = call p rounds levels unit args' := by
  cases levels <;> simp only [call, h]

/-! ## Handing on variables -/

section Variables

variable (code : Code) {slot? : String → Option Nat} {f : Frame} {fs : List Frame}

/-- Staging variables stages the values of their slots. -/
theorem stageArgs_variables {slots : List Value} {params : List Param} {vs : List Value}
    (hslots : List.Forall₂ (fun (q : Param) v => ∃ slot, slot? q.name = some slot ∧
      slots[slot]? = some v) params vs) (hf : f.slots = slots)
    (ts : List (Option Value)) (htemps : f.temps = ts ++ List.replicate params.length none)
    (stage : Nat) (hstage : ts.length = stage) {m : Machine} (hm : m.context.frames = f :: fs) :
    (stageArgs code stage (params.map fun q => .var ⟨q.name, slot? q.name⟩)).on m =
      (.ok (), m.withFrames ({ f with temps := ts ++ vs.map some } :: fs)) := by
  induction hslots generalizing ts stage m f with
  | nil =>
    have hsame : { f with temps := ts ++ [] } = f := by
      rw [show ts ++ [] = f.temps from htemps.symm]
    rw [List.map_nil, List.map_nil, hsame, ← hm, stageArgs]
    rfl
  | @cons q v params vs hfirst hrest ih =>
    obtain ⟨slot, hslot, hv⟩ := hfirst
    let g : Frame := { f with temps := (ts ++ [some v]) ++ List.replicate params.length none }
    have heval : (Expr.eval code (.var ⟨q.name, slot? q.name⟩)).on m = (.ok v, m) := by
      simp [Expr.eval, hslot, slotOf, getSlot, on_bind, on_frame, hm, Frame.get, hf, hv]
    have hset : (setTemp stage v).on m = (.ok (), m.withFrames (g :: fs)) := by
      rw [setTemp, on_modifyFrame, hm]
      simp [Frame.setTemp, htemps, ← hstage, List.replicate_succ, g]
    have hg : (m.withFrames (g :: fs)).context.frames = g :: fs := rfl
    have hslots : g.slots = slots := hf
    have hrun := ih hslots (ts ++ [some v]) rfl (stage + 1) (by simp [hstage]) hg
    rw [List.map_cons, stageArgs, on_bind_ok heval, on_bind_ok hset, hrun]
    simp [g]

/-- Taking staged values out leaves their slots empty. -/
theorem takeTemps_staged {vs : List Value} (ts : List (Option Value))
    (htemps : f.temps = ts ++ vs.map some) (stage : Nat) (hstage : ts.length = stage) {m : Machine}
    (hm : m.context.frames = f :: fs) :
    (takeTemps stage vs.length).on m = (.ok vs, m.withFrames
      ({ f with temps := ts ++ List.replicate vs.length none } :: fs)) := by
  induction vs generalizing ts stage m f with
  | nil =>
    have hsame : { f with temps := ts ++ [] } = f := by
      rw [show ts ++ [] = f.temps from htemps.symm]
    rw [List.length_nil, List.replicate_zero, hsame, ← hm]
    rfl
  | cons v vs ih =>
    let g : Frame := { f with temps := (ts ++ [none]) ++ vs.map some }
    have htake : (takeTemp stage).on m = (.ok v, m.withFrames (g :: fs)) := by
      rw [on_takeTemp, hm]
      simp [Frame.takeTemp, htemps, ← hstage, g]
    have hg : (m.withFrames (g :: fs)).context.frames = g :: fs := rfl
    have hrun := ih (ts ++ [none]) rfl (stage + 1) (by simp [hstage]) hg
    rw [List.length_cons, takeTemps, on_bind_ok htake, on_bind_ok hrun]
    simp [List.replicate_succ, g]

/-- **Handing on variables hands on the values of their slots**, and leaves the frame as it was. -/
theorem callNamed_variables {callee : String} {unit : Callable}
    (hunit : code.program.resolve callee = .ok unit) {params : List Param} {vs : List Value}
    (hslots : List.Forall₂ (fun (q : Param) v => ∃ slot, slot? q.name = some slot ∧
      f.slots[slot]? = some v) params vs)
    (htemps : f.temps = List.replicate params.length none) {m : Machine}
    (hm : m.context.frames = f :: fs) :
    (callNamed code callee 0 params.length
        (stageArgs code 0 (params.map fun q => .var ⟨q.name, slot? q.name⟩))).on m =
      (code.call unit vs).on m := by
  let g : Frame := { f with temps := vs.map some }
  have hstaged := stageArgs_variables code hslots rfl [] htemps 0 rfl hm
  have htaken : (takeStaged 0 params.length).on (m.withFrames (g :: fs)) = (.ok vs, m) := by
    have hframe : frame.on (m.withFrames (g :: fs)) = (.ok g, m.withFrames (g :: fs)) := rfl
    have hg : (m.withFrames (g :: fs)).context.frames = g :: fs := rfl
    rw [takeStaged, on_bind_ok hframe, hslots.length_eq, takeTemps_staged [] rfl 0 rfl hg]
    have hempty : { g with temps := [] ++ List.replicate vs.length none } = f := by
      rw [List.nil_append, ← hslots.length_eq, ← htemps]
    rw [hempty, Machine.withFrames_withFrames, ← hm, Machine.withFrames_self]
  rw [callNamed, on_ofExcept_bind hunit, on_bind_ok hstaged]
  exact on_bind_ok htaken

end Variables

/-! ## Writing results that are held as declared -/

/-- Values that are held as declared are written as they are. -/
theorem writeResults_held {tys : List Ty} (index : Nat) {vs : List Value}
    (hvs : List.Forall₂ (fun ty v => v.HeldAs ty) (tys.drop index) vs) {f : Frame}
    (hlen : f.returns.length = tys.length) {m : Machine} {fs : List Frame}
    (hm : m.context.frames = f :: fs) :
    (writeResults tys index vs).on m =
      (.ok (), m.withFrames ({ f with returns := f.returns.take index ++ vs } :: fs)) := by
  induction vs generalizing index f m with
  | nil =>
    have hdone : f.returns.length ≤ index := by
      rw [hlen, ← List.drop_eq_nil_iff, ← List.forall₂_nil_right_iff.mp hvs]
    have hsame : { f with returns := f.returns.take index ++ [] } = f := by
      rw [List.append_nil, List.take_of_length_le hdone]
    rw [hsame, ← hm]
    rfl
  | cons v vs ih =>
    obtain ⟨ty, rest, hv, hvs, hrest⟩ := List.forall₂_cons_right_iff.mp hvs
    obtain ⟨hty, -⟩ := cons_prefix_drop ⟨[], (List.append_nil _).trans hrest.symm⟩
    have hindex : index < f.returns.length := by
      rw [hlen]
      exact (List.getElem?_eq_some_iff.mp hty).1
    let g : Frame := { f with returns := f.returns.set index v }
    have hset : (setReturn index v).on m = (.ok (), m.withFrames (g :: fs)) :=
      on_setReturn hm hindex v
    have hbind : bindAs tys[index]? v = .ok v := by
      rw [hty]
      exact hv.bind_eq
    have hg : (m.withFrames (g :: fs)).context.frames = g :: fs := rfl
    have hrun := ih (index + 1) (by rw [← List.drop_drop, hrest]; exact hvs)
      (by simpa [g] using hlen) hg
    have htake : g.returns.take (index + 1) = f.returns.take index ++ [v] := by
      rw [List.take_add_one, List.take_set_of_le (Nat.le_refl _), List.getElem?_set_self hindex]
      rfl
    rw [writeResults, on_ofExcept_bind hbind, on_bind_ok hset, hrun, htake]
    simp [g]

/-! ## Forwarding declarations -/

/-- The call that hands on parameters as they come. -/
def forwardingCall (callee : String) (params : List Param) : Expr :=
  .call callee (params.map fun q => .var ⟨q.name, none⟩) 0

/-- A declaration whose body hands its parameters on to a callee and does nothing else. -/
inductive FunctionDecl.Forwards (decl : FunctionDecl) (callee : String) : Prop
  /-- It passes back what the callee returns. -/
  | result (hreturns : decl.returns ≠ [])
    (hbody : decl.body = [.result [forwardingCall callee decl.params]])
  /-- The callee returns nothing. -/
  | run (hreturns : decl.returns = [])
    (hbody : decl.body = [.run (forwardingCall callee decl.params)])

/-- A function of the program whose declaration forwards to a callable with the same types of
parameters and results. -/
structure Program.Forwards (p : Program) (w : Function) (unit : Callable) : Prop where
  found : ∃ name, p.find? name = some (.function w)
  declared : ∃ (decl : FunctionDecl) (callee : String), decl.build p.package = .ok w ∧
    decl.Forwards callee ∧ p.resolve callee = .ok unit
  params : w.sig.paramTypes = unit.sig.paramTypes
  returns : w.sig.returns = unit.sig.returns

theorem layoutStaged_variables (slot? : String → Option Nat) (base : Nat) (params : List Param) :
    layoutStaged slot? base (params.map fun q => .var ⟨q.name, none⟩) =
      params.map fun q => .var ⟨q.name, slot? q.name⟩ := by
  induction params generalizing base with
  | nil => rfl
  | cons q params ih =>
    rw [List.map_cons, layoutStaged, ih (base + 1), List.map_cons, Expr.layout]

/-- The call that a forwarding body of a function makes, once its parameters have slots. -/
def handingOn (code : Code) (callee : String) (decl : FunctionDecl) : Exec (List Value) :=
  callNamed code callee 0 decl.params.length (stageArgs code 0 (decl.params.map fun q =>
    .var ⟨q.name, (Scope.ofParams decl.params).slot? q.name⟩))

theorem results_handingOn (code : Code) (callee : String) (decl : FunctionDecl) :
    ((forwardingCall callee decl.params).layout (Scope.ofParams decl.params).slot? 0).results code =
      handingOn code callee decl := by
  rw [forwardingCall, Expr.layout, layoutStaged_variables, Expr.results, List.length_map]
  rfl

theorem eval_handingOn (code : Code) (callee : String) (decl : FunctionDecl) :
    ((forwardingCall callee decl.params).layout (Scope.ofParams decl.params).slot? 0).eval code =
      handingOn code callee decl >>= firstResult := by
  rw [forwardingCall, Expr.layout, layoutStaged_variables, Expr.eval, List.length_map]
  rfl

/-- A forwarding function makes its call, and stores the values the call ends with as they are if
these are held as declared. -/
theorem run_forwards (code : Code) {callee : String} {decl : FunctionDecl}
    (hlaid : code.function.LaidOut decl) (hforwards : decl.Forwards callee) :
    ∃ finish : List Value → Exec Unit,
      Function.run code = handingOn code callee decl >>= finish ∧
      ∀ (vs : List Value) (m : Machine) (f : Frame) (fs : List Frame),
        List.Forall₂ (fun ty v => v.HeldAs ty) decl.returns vs → m.context.frames = f :: fs →
          f.returns.length = decl.returns.length →
            (finish vs).on m = (.ok (), m.withFrames ({ f with returns := vs } :: fs)) := by
  have hframe {m : Machine} {f : Frame} {fs : List Frame} (hm : m.context.frames = f :: fs) :
      frame.on m = (.ok f, m) := by
    rw [on_frame, hm]
  cases hforwards with
  | run hreturns hbody =>
    refine ⟨fun _ => pure (), ?_, fun vs m f fs hvs hm hlen => ?_⟩
    · rw [Function.run, hlaid.body, hbody]
      simp only [layoutBlock, Stmt.layout, execBlock, Stmt.exec, results_handingOn, bind_assoc,
        pure_bind]
    · rw [hreturns] at hvs hlen
      obtain rfl := List.forall₂_nil_left_iff.mp hvs
      rw [← List.length_eq_zero_iff.mp hlen, ← hm]
      rfl
  | result hreturns hbody =>
    let store (vs : List Value) : Exec Unit := do
      let _ ← frame
      writeResults decl.returns 0 vs
      pure ()
    have hstore (vs : List Value) (m : Machine) (f : Frame) (fs : List Frame)
        (hvs : List.Forall₂ (fun ty v => v.HeldAs ty) decl.returns vs)
        (hm : m.context.frames = f :: fs) (hlen : f.returns.length = decl.returns.length) :
        (store vs).on m = (.ok (), m.withFrames ({ f with returns := vs } :: fs)) := by
      rw [on_bind_ok (hframe hm), on_bind_ok (writeResults_held 0 hvs hlen hm)]
      rfl
    have hrun : Function.run code =
        resultValues code [(forwardingCall callee decl.params).layout
          (Scope.ofParams decl.params).slot? 0] >>= store := by
      rw [Function.run, hlaid.body, hbody]
      simp only [layoutBlock, Stmt.layout, execBlock, Stmt.exec, List.map_cons, List.map_nil,
        hlaid.returns, bind_assoc, pure_bind, store]
    rcases hdecl : decl.returns with _ | ⟨ty, _ | ⟨ty', tys⟩⟩
    · exact absurd hdecl hreturns
    · refine ⟨fun vs => firstResult vs >>= fun v => store [v], ?_, fun vs m f fs hvs hm hlen => ?_⟩
      · rw [hrun]
        unfold resultValues
        rw [hlaid.returns, hdecl]
        simp only [evalArgs, eval_handingOn, bind_assoc, pure_bind]
      · obtain ⟨v, _, hv, hvs', rfl⟩ := List.forall₂_cons_left_iff.mp hvs
        obtain rfl := List.forall₂_nil_left_iff.mp hvs'
        rw [← hdecl] at hvs hlen
        exact hstore [v] m f fs hvs hm hlen
    · refine ⟨store, ?_, hdecl ▸ hstore⟩
      rw [hrun]
      unfold resultValues
      rw [hlaid.returns, hdecl]
      exact congrArg (· >>= store) (results_handingOn code callee decl)

/-! ## The frame of a forwarding function -/

namespace Scope

theorem slot?_define (scope : Scope) (name other : String) :
    (scope.define name).slot? other =
      if name == other then some scope.next else scope.slot? other := by
  unfold slot? define
  rw [List.find?_cons]
  split <;> simp_all

/-- Parameters of other names do not hide a binding. -/
theorem slot?_foldl_define (params : List Param) (scope : Scope) {name : String}
    (h : ∀ q ∈ params, q.name ≠ name) :
    (params.foldl (fun scope q => scope.define q.name) scope).slot? name = scope.slot? name := by
  induction params generalizing scope with
  | nil => rfl
  | cons q params ih =>
    obtain ⟨hfirst, hrest⟩ := List.forall_mem_cons.mp h
    rw [List.foldl_cons, ih _ hrest, slot?_define, if_neg (by simpa using hfirst)]

/-- Parameters of different names mean the next slots in order. -/
theorem slot?_foldl_define_getElem {params : List Param}
    (h : params.Pairwise fun q q' => q'.name ≠ q.name) (scope : Scope) {i : Nat} {q : Param}
    (hq : params[i]? = some q) :
    (params.foldl (fun scope q => scope.define q.name) scope).slot? q.name =
      some (scope.next + i) := by
  induction h generalizing scope i with
  | nil => cases hq
  | @cons first params hfirst _ ih =>
    cases i with
    | zero =>
      cases hq
      rw [List.foldl_cons, slot?_foldl_define _ _ hfirst, slot?_define, if_pos (beq_self_eq_true _)]
      rfl
    | succ i =>
      rw [List.foldl_cons, ih _ hq]
      simp only [define]
      congr 1
      omega

end Scope

theorem tempsEndOfStaged_variables (base : Nat) (params : List Param) :
    tempsEndOfStaged base (params.map fun q => .var ⟨q.name, none⟩) = 0 := by
  induction params generalizing base with
  | nil => rfl
  | cons q params ih =>
    rw [List.map_cons, tempsEndOfStaged, ih, Expr.tempsEnd, Nat.max_self]

/-- A forwarding function has slots for its parameters, and as many to stage them in. -/
theorem FunctionDecl.Forwards.layoutOf {decl : FunctionDecl} {callee : String}
    (h : decl.Forwards callee) :
    layoutOf decl.params decl.body = ⟨decl.params.map (·.ty), decl.params.length⟩ := by
  have htemps : (forwardingCall callee decl.params).tempsEnd 0 = decl.params.length := by
    rw [forwardingCall, Expr.tempsEnd, tempsEndOfStaged_variables, List.length_map]
    simp
  cases h with
  | result _ hbody | run _ hbody =>
    simp [FrameScript.layoutOf, hbody, definedTypesIn, Stmt.definedTypes, tempsEndOfBlock,
      Stmt.tempsEnd, tempsEndOfEach, htemps]

/-- A forwarding function hands on its arguments as they are stored. -/
theorem handingOn_eq {code : Code} {callee : String} {decl : FunctionDecl} {unit : Callable}
    (hlaid : code.function.LaidOut decl) (hunit : code.program.resolve callee = .ok unit)
    {f : Frame} (hlen : f.slots.length = decl.params.length)
    (htemps : f.temps = List.replicate decl.params.length none) {m : Machine} {fs : List Frame}
    (hm : m.context.frames = f :: fs) :
    (handingOn code callee decl).on m = (code.call unit f.slots).on m := by
  obtain ⟨hrepeated, -⟩ := List.append_eq_nil_iff.mp hlaid.bound
  obtain ⟨hnodup, -⟩ := repeatedParams_eq_nil_iff.mp (List.map_eq_nil_iff.mp hrepeated)
  have hnames : decl.params.Pairwise fun q q' => q'.name ≠ q.name :=
    (List.pairwise_map.mp hnodup).imp Ne.symm
  refine callNamed_variables code hunit (List.forall₂_iff_get.mpr ⟨hlen.symm, ?_⟩) htemps hm
  intro i hi hi'
  refine ⟨i, ?_, List.getElem?_eq_getElem hi'⟩
  have hslot := Scope.slot?_foldl_define_getElem hnames {} (List.getElem?_eq_getElem hi)
  rw [Nat.zero_add] at hslot
  exact hslot

/-! ## Calls of forwarding functions -/

/-- The frame that a forwarding function starts on: its slots are the arguments as they are stored,
and there is room to stage them. -/
theorem prepare_forwards {w : Function} {decl : FunctionDecl} {callee : String}
    (hw : (Callable.function w).WellShaped) (hlaid : w.LaidOut decl)
    (hforwards : decl.Forwards callee) {args : List Value}
    (hargs : checkArguments w.sig args = .ok ()) :
    ∃ g, prepare (.function w) args = .ok g ∧ g.slots = declaredArgs w.sig.paramTypes args ∧
      g.temps = List.replicate decl.params.length none ∧
        g.returns.length = decl.returns.length := by
  have hlen := length_of_checkArguments hargs
  have hlayout : w.layout = ⟨w.sig.paramTypes, decl.params.length⟩ := by
    rw [hlaid.layout, hforwards.layoutOf, Signature.paramTypes, hlaid.params]
  obtain ⟨temps, hshape, hprepare⟩ := prepare_of_checkArguments hw hargs
  have htemps : temps = decl.params.length := by
    rw [hlaid.shape] at hshape
    have hsize : w.layout.temps = temps := congrArg Prod.snd (Except.ok.inj hshape)
    rw [← hsize, hlayout]
  have hslots : (Callable.function w).slotTypes = w.sig.paramTypes := by
    rw [Callable.slotTypes, hlayout]
  refine ⟨_, hprepare, ?_, congrArg (List.replicate · none) htemps, ?_⟩
  · dsimp only
    rw [hslots, List.drop_of_length_le (by simp [Signature.paramTypes, hlen]), List.map_nil,
      List.append_nil]
  · simp [Callable.sig, hlaid.returns]

/-- **Calls are transparent.** Let a function of a loaded program hand its parameters on to a callee
with the same types of parameters and results, and let the callee admit the arguments. Then calling
the function under a limit ends as calling the callee under the limit that is lower by one: with the
same values in the same state, or with the same failure behind the same effects, where an overflow
reports the limit of its own run. The native units of the program must not look at the control
stack, and a native callee must leave its result slots as they are declared.

**Proof sketch.** The arguments are stored on the frame of the function, staged and handed over as
they are stored, so the callee gets the frame it would get from outside. Over the frames below and
over these with the frame of the function it finds the same room under the two limits, so it ends
alike. Its results are held as declared, so the function stores them as they are. -/
theorem forwarding_endsAlike {source : Source} {natives : Registry} {p : Program}
    (hload : Program.load source natives = .ok p)
    (hnatives : ∀ key unit, (key, unit) ∈ natives.units → unit.IgnoresStack)
    {w : Function} {unit : Callable} (hw : p.Forwards w unit) (hkeeps : unit.KeepsResults)
    {args : List Value} (hargs : checkArguments unit.sig args = .ok ())
    (m : Machine) {d : Nat} (hdepth : m.context.depth ≤ d) :
    EndsAlikeOver ⟨m.context.frames, d⟩ ⟨m.context.frames, d + 1⟩
      ((callUnit p unit args).on (m.withLimit d))
      ((callUnit p (.function w) args).on (m.withLimit (d + 1))) := by
  have hlinked := Program.load_linked hload
  have hp := hlinked.nativesIgnoreStack hnatives
  obtain ⟨name, hname⟩ := hw.found
  obtain ⟨decl, callee, hbuild, hforwards, hunit⟩ := hw.declared
  have hfound := Program.find?_of_resolve hunit
  have hlaid := Function.laidOut_of_build hbuild
  have hargs' : checkArguments w.sig args = .ok () := by
    rw [checkArguments_eq_ok] at hargs ⊢
    rwa [hw.params]
  obtain ⟨g, hprepare, hslots, htemps, hlen⟩ :=
    prepare_forwards (hlinked.wellShaped hname) hlaid hforwards hargs'
  let levels := d - m.context.depth
  let code : Code := ⟨p, w, call p maxRounds levels, maxRounds⟩
  let b : Ground := ⟨m.context.frames, d⟩
  let b' : Ground := ⟨g :: m.context.frames, d + 1⟩
  have hb : b.HasRoom levels := (Nat.add_sub_of_le hdepth).symm
  have hb' : b'.HasRoom levels := by
    change d + 1 = (m.context.depth + 1) + levels
    omega
  -- the callee from outside, and the callee inside the function
  have hcallee : EndsAlikeOver b b' ((call p maxRounds levels unit args).on (m.above b))
      ((handingOn code callee decl).on (m.above b')) := by
    have hcount : g.slots.length = decl.params.length := by
      rw [hslots, length_declaredArgs (checkArguments_eq_ok.mp hargs').length_eq.symm,
        length_of_checkArguments hargs', hlaid.params]
    rw [handingOn_eq hlaid hunit hcount htemps rfl, hslots, hw.params,
      show code.call = call p maxRounds levels from rfl,
      call_congr (prepare_declared (hlinked.wellShaped hfound) hargs)]
    exact call_endsAlike hp maxRounds hfound args hb hb' m
  obtain ⟨finish, hrun, hfinish⟩ := run_forwards code hlaid hforwards
  have houter : (callUnit p (.function w) args).on (m.withLimit (d + 1)) =
      (unwinding (handingOn code callee decl >>= finish)).on (m.above b') := by
    have hroom : (m.withLimit (d + 1)).context.room = levels + 1 :=
      Nat.succ_sub hdepth
    rw [on_callUnit, hroom, on_call_room maxRounds hprepare (Nat.lt_succ_of_le hdepth), ← hrun]
    rfl
  rw [houter, on_callUnit]
  change EndsAlikeOver _ _ ((call p maxRounds levels unit args).on (m.above b)) _
  rcases hx : (call p maxRounds levels unit args).on (m.above b) with ⟨r, m₁⟩
  rcases hy : (handingOn code callee decl).on (m.above b') with ⟨r', m₁'⟩
  rw [hx, hy] at hcallee
  cases hcallee with
  | value vs n =>
    have hvs : List.Forall₂ (fun ty v => v.HeldAs ty) decl.returns vs := by
      rw [← hlaid.returns, hw.returns]
      exact call_heldAs hp.confined hfound hkeeps hx
    rw [on_unwinding_ok ((on_bind_ok hy).trans (hfinish vs _ g _ hvs rfl hlen)) rfl]
    exact .value vs n
  | failed h heffects =>
    rw [on_unwinding_failed (on_bind_error hy) rfl, Machine.recorded_withFrames]
    let grown : Ground := ⟨m.context.frames, d + 1⟩
    have hlimits : Failure.AlikeUnder b.limit grown.limit _ _ := h
    refine .failed hlimits ?_
    rw [Machine.effects_recorded]
    exact heffects
  | exhausted heffects =>
    rw [on_unwinding_exhausted (on_bind_error hy)]
    exact .exhausted heffects

/-- A program with functions that hand on a document, nothing to a callee that never ends, and
nothing to a native unit. -/
def relaySource : Source where
  functions := [
    { name := "pick", params := [⟨"doc", .ref .json⟩], returns := [.ref .json]
      body := [.result [.var ⟨"doc", none⟩]] },
    { name := "relay", params := [⟨"doc", .ref .json⟩], returns := [.ref .json]
      body := [.result [forwardingCall "pick" [⟨"doc", .ref .json⟩]]] },
    { name := "spin", body := [.run (forwardingCall "spin" [])] },
    { name := "start", body := [.run (forwardingCall "spin" [])] },
    { name := "receive", returns := [.ref .json]
      body := [.result [forwardingCall "host:raw" []]] }]

/-- The theorem applies to a function that hands on the null of another type. -/
theorem forwarding_endsAlike_relay :
    ∃ (p : Program) (relay pick : Function),
      Program.load relaySource Library.standard = .ok p ∧
      p.Forwards relay (.function pick) ∧ (Callable.function pick).KeepsResults ∧
      checkArguments pick.sig [.null .xml] = .ok () ∧
      EndsAlikeOver ⟨[], 5⟩ ⟨[], 6⟩
        ((callUnit p (.function pick) [.null .xml]).on { context := { maxDepth := 5 } })
        ((callUnit p (.function relay) [.null .xml]).on { context := { maxDepth := 6 } }) := by
  have hloads : Program.loadsTo relaySource Library.standard (fun p =>
      p.functionPasses "relay" fun relay => p.functionPasses "pick" fun pick =>
        relay.sig.paramTypes == [.ref .json] && pick.sig.paramTypes == [.ref .json] &&
          relay.sig.returns == pick.sig.returns) = true := by
    rw [Program.loadsTo_standard]
    decide +kernel
  obtain ⟨p, hload, htest⟩ := Program.exists_of_loadsTo hloads
  obtain ⟨relay, hrelay, hname, htest⟩ := Program.exists_of_functionPasses htest
  obtain ⟨pick, hpick, -, htest⟩ := Program.exists_of_functionPasses htest
  simp only [Bool.and_eq_true, beq_iff_eq] at htest
  obtain ⟨⟨hparams, hparams'⟩, hreturns⟩ := htest
  have hbuild := Program.build_of_name hload hrelay
    { name := "relay", params := [⟨"doc", .ref .json⟩], returns := [.ref .json]
      body := [.result [forwardingCall "pick" [⟨"doc", .ref .json⟩]]] }
    (by simp [relaySource, Source.declarations, hname])
  rw [← Program.load_package hload] at hbuild
  have hforwards : p.Forwards relay (.function pick) :=
    ⟨⟨_, hrelay⟩, ⟨_, "pick", hbuild, .result (by simp) rfl, Program.resolve_of_find? hpick⟩,
      hparams.trans hparams'.symm, hreturns⟩
  have hargs : checkArguments pick.sig [.null .xml] = .ok () := by
    rw [checkArguments_eq_ok, hparams']
    exact .cons rfl .nil
  exact ⟨p, relay, pick, hload, hforwards, trivial, hargs, forwarding_endsAlike hload
    (fun _ _ => Library.standard_ignoresStack) hforwards trivial hargs
    { context := { maxDepth := 0 } } (Nat.zero_le 5)⟩

/-- A native unit that stores a null of another type as its result by itself. -/
def rawUnit : NativeUnit :=
  .function "host" "raw" [] [.ref .json] do
    setReturn 0 (.null .xml)
    return []

theorem rawUnit_ignoresStack : rawUnit.IgnoresStack :=
  IgnoresStack.bind (IgnoresStack.modifyFrame _) fun _ => .pure _

/-- The type of the null that a call ends with, if that is how it ends. -/
def nullOf? : Except Stop (List Value) → Option RefTy
  | .ok [.null tag] => some tag
  | _ => none

/-- **The detour may show**: an overflow reports the limit of its own run, and a native unit that
stores its result by itself may leave there what is not declared. -/
theorem forwarding_differs :
    (∃ (p : Program) (w unit : Function),
      Program.load relaySource Library.standard = .ok p ∧ p.Forwards w (.function unit) ∧
      checkArguments unit.sig [] = .ok () ∧
      faultOf? ((callUnit p (.function w) []).on { context := { maxDepth := 3 } }).1 =
        some (.stackOverflow 3) ∧
      faultOf? ((callUnit p (.function unit) []).on { context := { maxDepth := 2 } }).1 =
        some (.stackOverflow 2)) ∧
    ∃ (p : Program) (w : Function),
      Program.load relaySource { units := [("host:raw", rawUnit)] } = .ok p ∧
      rawUnit.IgnoresStack ∧ p.Forwards w (.native rawUnit) ∧
      checkArguments rawUnit.sig [] = .ok () ∧
      nullOf? ((callUnit p (.function w) []).on { context := { maxDepth := 3 } }).1 = some .json ∧
      nullOf? ((callUnit p (.native rawUnit) []).on { context := { maxDepth := 2 } }).1 =
        some .xml := by
  constructor
  · have hloads : Program.loadsTo relaySource Library.standard (fun p =>
        p.functionPasses "start" fun start => p.functionPasses "spin" fun spin =>
          start.sig.paramTypes == spin.sig.paramTypes && start.sig.returns == spin.sig.returns &&
            spin.sig.paramTypes == [] &&
            faultOf? ((callUnit p (.function start) []).on { context := { maxDepth := 3 } }).1 ==
              some (.stackOverflow 3) &&
            faultOf? ((callUnit p (.function spin) []).on { context := { maxDepth := 2 } }).1 ==
              some (.stackOverflow 2)) = true := by
      rw [Program.loadsTo_standard]
      decide +kernel
    obtain ⟨p, hload, htest⟩ := Program.exists_of_loadsTo hloads
    obtain ⟨start, hstart, hname, htest⟩ := Program.exists_of_functionPasses htest
    obtain ⟨spin, hspin, -, htest⟩ := Program.exists_of_functionPasses htest
    simp only [Bool.and_eq_true, beq_iff_eq] at htest
    obtain ⟨⟨⟨⟨hparams, hreturns⟩, hnone⟩, houter⟩, hinner⟩ := htest
    have hbuild := Program.build_of_name hload hstart
      { name := "start", body := [.run (forwardingCall "spin" [])] }
      (by simp [relaySource, Source.declarations, hname])
    rw [← Program.load_package hload] at hbuild
    refine ⟨p, start, spin, hload, ⟨⟨_, hstart⟩, ⟨_, "spin", hbuild, .run rfl rfl,
      Program.resolve_of_find? hspin⟩, hparams, hreturns⟩, ?_, houter, hinner⟩
    rw [checkArguments_eq_ok, hnone]
    exact .nil
  · have hloads : Program.loadsTo relaySource { units := [("host:raw", rawUnit)] } (fun p =>
        p.functionPasses "receive" fun w => p.nativePasses "host:raw" fun raw =>
          w.sig.paramTypes == [] && w.sig.returns == [.ref .json] &&
            nullOf? ((callUnit p (.function w) []).on { context := { maxDepth := 3 } }).1 ==
              some .json &&
            nullOf? ((callUnit p (.native raw) []).on { context := { maxDepth := 2 } }).1 ==
              some .xml) = true := by
      decide +kernel
    obtain ⟨p, hload, htest⟩ := Program.exists_of_loadsTo hloads
    obtain ⟨w, hw, hname, htest⟩ := Program.exists_of_functionPasses htest
    obtain ⟨raw, hraw, htest⟩ := Program.exists_of_nativePasses htest
    simp only [Bool.and_eq_true, beq_iff_eq] at htest
    obtain ⟨⟨⟨hparams, hreturns⟩, houter⟩, hinner⟩ := htest
    have hbuild := Program.build_of_name hload hw
      { name := "receive", returns := [.ref .json]
        body := [.result [forwardingCall "host:raw" []]] }
      (by simp [relaySource, Source.declarations, hname])
    rw [← Program.load_package hload] at hbuild
    cases (Program.load_linked hload).comesFrom hraw with
    | registered hmem =>
      obtain ⟨-, rfl⟩ := Prod.mk.inj (List.mem_singleton.mp hmem)
      exact ⟨p, w, hload, rawUnit_ignoresStack, ⟨⟨_, hw⟩, ⟨_, "host:raw", hbuild,
        .result (by simp) rfl, Program.resolve_of_find? hraw⟩, hparams, hreturns⟩, rfl, houter,
        hinner⟩

end FrameScript
