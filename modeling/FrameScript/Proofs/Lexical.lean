import FrameScript.Proofs.Agreement
import Mathlib.Data.List.Forall2

set_option autoImplicit false
set_option linter.unusedSectionVars false

/-!
# Lexical scoping

Bodies run on flat frames, in which every definition has a slot of its own. The slots outlive their
blocks and the rounds of loops; the names of a body do not. Here a body is run as its source is
read, with scopes that open and close and bindings that come and go, and it ends the same way.

## Main definitions

* `Binding`, `Environment` — the variables in sight, block by block.
* `lexical` — variables that are kept in such environments.
* `Lexical.run` — the run of a source body in an environment of its parameters.
* `noted` — calls that are noted before they are made.

## Main results

* `tracking_lexical` — bindings in sight follow the slots of a frame.
* `Reference.execAll_layout` — a lexical run does not look at slots and stages.
* `slots_follow_scopes` — bodies and whole calls end as in lexical runs.

## Design

The bindings in sight have slots of their own, all different, and each slot holds the value of its
binding. Slots of bindings that are gone are not in the relation at all, so nothing has to be said
about what is left in them: a definition takes a slot above all in sight and writes it before it is
read.
-/

namespace FrameScript

open Exec

variable {α β : Type}

/-! ## Environments -/

/-- A variable with its type and its value. -/
structure Binding where
  /-- The name. -/
  name : String
  /-- The declared type. -/
  ty : Ty
  /-- The value. -/
  value : Value

/-- The variables in sight, block by block with the innermost block first, and in each block the
newest variable first. -/
abbrev Environment : Type := List (List Binding)

namespace Environment

/-- The innermost visible binding of a name. -/
def find? (env : Environment) (name : String) : Option Binding :=
  env.flatten.find? (·.name == name)

/-- A block with a new value for the newest variable of a name. -/
def setIn (name : String) (v : Value) : List Binding → List Binding
  | [] => []
  | b :: bs => if b.name == name then { b with value := v } :: bs else b :: setIn name v bs

/-- The environment with a new value for the innermost visible binding of a name. -/
def set (name : String) (v : Value) : Environment → Environment
  | [] => []
  | block :: blocks =>
    if block.any (·.name == name) then setIn name v block :: blocks
    else block :: set name v blocks

/-- The environment with a new binding in the innermost block. -/
def define (b : Binding) : Environment → Environment
  | [] => [[b]]
  | block :: blocks => (b :: block) :: blocks

/-- The bindings of parameters to their values in front of other bindings, the last parameter
first. -/
def bindParams (bs : List Binding) : List Param → List Value → List Binding
  | p :: ps, v :: vs => bindParams (⟨p.name, p.ty, v⟩ :: bs) ps vs
  | _, _ => bs

end Environment

/-- Variables that are kept in scopes of bindings. A block opens a scope and closes it again. -/
def lexical : Variables Environment where
  read env x :=
    match env.find? x.name with
    | some b => pure b.value
    | none => fault (.wiring (.noSlot x.name))
  write env x v :=
    match env.find? x.name with
    | some b => do
      let v ← ofExcept (v.bind b.ty)
      pure (env.set x.name v)
    | none => fault (.wiring (.noSlot x.name))
  define env name ty _ v := do
    let v ← ofExcept (v.bind ty)
    pure (env.define ⟨name, ty, v⟩)
  enter env := [] :: env
  leave env := env.tail

/-- Runs the body of a declaration as it is written, in a scope with the parameters bound to the
arguments of the call. -/
def Lexical.run (decl : FunctionDecl) (code : Code) : Exec Unit := do
  let f ← frame
  Reference.run lexical code [Environment.bindParams [] decl.params f.slots] decl.body

/-! ## Bindings and slots -/

/-- A name with a slot stands for a binding: the slot has its type and holds its value. -/
structure Binding.In (slots : List Ty) (f : Frame) (entry : String × Nat) (b : Binding) :
    Prop where
  name : b.name = entry.1
  ty : slots[entry.2]? = some b.ty
  value : f.slots[entry.2]? = some b.value

/-- The bindings of an environment are in different slots of a frame. -/
structure Bound (slots : List Ty) (blocks : List (List (String × Nat))) (env : Environment)
    (f : Frame) : Prop where
  length : f.slots.length = slots.length
  distinct : (blocks.flatten.map (·.2)).Nodup
  holds : List.Forall₂ (List.Forall₂ (Binding.In slots f)) blocks env

section Bindings

variable {slots : List Ty} {f : Frame} {name : String}

/-- What a name means among slots it means among bindings. -/
theorem find?_of_in {entries : List (String × Nat)} {bs : List Binding}
    (h : List.Forall₂ (Binding.In slots f) entries bs) {entry : String × Nat}
    (hentry : entries.find? (·.1 == name) = some entry) :
    ∃ b, bs.find? (·.name == name) = some b ∧ Binding.In slots f entry b := by
  induction h with
  | nil => cases hentry
  | @cons first b entries bs hb _ ih =>
    rw [List.find?_cons] at hentry ⊢
    rw [hb.name]
    cases hname : first.1 == name with
    | true =>
      rw [hname] at hentry
      cases hentry
      exact ⟨b, rfl, hb⟩
    | false =>
      rw [hname] at hentry
      exact ih hentry

theorem any_of_in {entries : List (String × Nat)} {bs : List Binding}
    (h : List.Forall₂ (Binding.In slots f) entries bs) :
    bs.any (·.name == name) = entries.any (·.1 == name) := by
  induction h with
  | nil => rfl
  | cons hb _ ih => rw [List.any_cons, List.any_cons, ih, hb.name]

theorem Bound.find? {blocks : List (List (String × Nat))} {env : Environment}
    (h : Bound slots blocks env f) {entry : String × Nat}
    (hentry : blocks.flatten.find? (·.1 == name) = some entry) :
    ∃ b, env.find? name = some b ∧ Binding.In slots f entry b :=
  find?_of_in (List.rel_flatten h.holds) hentry

/-- The frame with a new value in a slot. -/
def Frame.withSlot (f : Frame) (slot : Nat) (v : Value) : Frame :=
  { f with slots := f.slots.set slot v }

variable {slot : Nat} {v : Value}

/-- Bindings in other slots stay. -/
theorem Binding.In.withSlot {entry : String × Nat} {b : Binding} (h : b.In slots f entry)
    (hne : entry.2 ≠ slot) : b.In slots (f.withSlot slot v) entry where
  name := h.name
  ty := h.ty
  value := by
    rw [Frame.withSlot, List.getElem?_set_ne (Ne.symm hne)]
    exact h.value

theorem in_withSlot_of_notMem {entries : List (String × Nat)} {bs : List Binding}
    (h : List.Forall₂ (Binding.In slots f) entries bs) (hslot : slot ∉ entries.map (·.2)) :
    List.Forall₂ (Binding.In slots (f.withSlot slot v)) entries bs := by
  induction h with
  | nil => exact .nil
  | cons hb _ ih =>
    rw [List.map_cons, List.mem_cons, not_or] at hslot
    exact .cons (hb.withSlot (Ne.symm hslot.1)) (ih hslot.2)

theorem holds_withSlot_of_notMem {blocks : List (List (String × Nat))} {env : Environment}
    (h : List.Forall₂ (List.Forall₂ (Binding.In slots f)) blocks env)
    (hslot : slot ∉ blocks.flatten.map (·.2)) :
    List.Forall₂ (List.Forall₂ (Binding.In slots (f.withSlot slot v))) blocks env := by
  induction h with
  | nil => exact .nil
  | cons hblock _ ih =>
    rw [List.flatten_cons, List.map_append, List.mem_append, not_or] at hslot
    exact .cons (in_withSlot_of_notMem hblock hslot.1) (ih hslot.2)

/-- A new value in the slot of the newest variable of a name is a new value of its binding. -/
theorem in_setIn {entries : List (String × Nat)} {bs : List Binding}
    (h : List.Forall₂ (Binding.In slots f) entries bs) (hdistinct : (entries.map (·.2)).Nodup)
    (hslot : entries.find? (·.1 == name) = some (name, slot)) (hlt : slot < f.slots.length) :
    List.Forall₂ (Binding.In slots (f.withSlot slot v)) entries
      (Environment.setIn name v bs) := by
  induction h with
  | nil => cases hslot
  | @cons first b entries bs hb hrest ih =>
    rw [List.map_cons, List.nodup_cons] at hdistinct
    rw [List.find?_cons] at hslot
    rw [Environment.setIn, hb.name]
    cases hname : first.1 == name with
    | true =>
      rw [hname] at hslot
      cases hslot
      rw [if_pos rfl]
      have hvalue : (f.withSlot slot v).slots[slot]? = some v := List.getElem?_set_self hlt
      exact .cons ⟨rfl, hb.ty, hvalue⟩ (in_withSlot_of_notMem hrest hdistinct.1)
    | false =>
      rw [hname] at hslot
      rw [if_neg (by simp)]
      refine .cons (hb.withSlot ?_) (ih hdistinct.2 hslot)
      rintro rfl
      exact hdistinct.1 (List.mem_map.mpr ⟨_, List.mem_of_find?_eq_some hslot, rfl⟩)

/-- A new value in the slot that a name means is a new value of its innermost visible binding. -/
theorem holds_set {blocks : List (List (String × Nat))} {env : Environment}
    (h : List.Forall₂ (List.Forall₂ (Binding.In slots f)) blocks env)
    (hdistinct : (blocks.flatten.map (·.2)).Nodup)
    (hslot : blocks.flatten.find? (·.1 == name) = some (name, slot))
    (hlt : slot < f.slots.length) :
    List.Forall₂ (List.Forall₂ (Binding.In slots (f.withSlot slot v))) blocks
      (env.set name v) := by
  induction h with
  | nil => cases hslot
  | @cons block bs blocks env hblock hrest ih =>
    rw [List.flatten_cons, List.map_append, List.nodup_append] at hdistinct
    obtain ⟨hin, hout, hdisjoint⟩ := hdistinct
    rw [List.flatten_cons, List.find?_append] at hslot
    rw [Environment.set, any_of_in hblock]
    rcases hfound : block.find? (·.1 == name) with _ | entry
    · rw [hfound, Option.none_or] at hslot
      have hnone : block.any (·.1 == name) = false := by
        rw [List.any_eq_false]
        exact fun entry hentry => List.find?_eq_none.mp hfound entry hentry
      have hmem : slot ∈ blocks.flatten.map (·.2) :=
        List.mem_map.mpr ⟨_, List.mem_of_find?_eq_some hslot, rfl⟩
      rw [hnone, if_neg (by simp)]
      refine .cons (in_withSlot_of_notMem hblock fun hslot' => ?_) (ih hout hslot)
      exact hdisjoint slot hslot' slot hmem rfl
    · rw [hfound, Option.some_or] at hslot
      cases hslot
      have hsome : block.any (·.1 == name) = true :=
        List.any_eq_true.mpr ⟨_, List.mem_of_find?_eq_some hfound, by simp⟩
      have hmem : slot ∈ block.map (·.2) :=
        List.mem_map.mpr ⟨_, List.mem_of_find?_eq_some hfound, rfl⟩
      rw [hsome, if_pos rfl]
      refine .cons (in_setIn hblock hin hfound hlt) (holds_withSlot_of_notMem hrest ?_)
      exact fun hslot' => hdisjoint slot hmem slot hslot' rfl

namespace Bound

variable {block : List (String × Nat)} {blocks : List (List (String × Nat))} {env : Environment}

/-- Assigning to the slot of a name is assigning to its binding. -/
theorem set (h : Bound slots blocks env f)
    (hslot : blocks.flatten.find? (·.1 == name) = some (name, slot)) (hlt : slot < slots.length) :
    Bound slots blocks (env.set name v) (f.withSlot slot v) where
  length := by
    rw [Frame.withSlot, List.length_set]
    exact h.length
  distinct := h.distinct
  holds := holds_set h.holds h.distinct hslot (by rw [h.length]; exact hlt)

/-- A definition in a slot above all others in sight is a new binding in the innermost block. -/
theorem define {ty : Ty} (h : Bound slots (block :: blocks) env f)
    (hfresh : ∀ entry ∈ (block :: blocks).flatten, entry.2 < slot) (hty : slots[slot]? = some ty) :
    Bound slots (((name, slot) :: block) :: blocks) (env.define ⟨name, ty, v⟩)
      (f.withSlot slot v) := by
  have hnot : slot ∉ (block :: blocks).flatten.map (·.2) := by
    intro hslot
    obtain ⟨entry, hentry, rfl⟩ := List.mem_map.mp hslot
    exact Nat.lt_irrefl _ (hfresh entry hentry)
  have hlt : slot < f.slots.length := by
    rw [h.length]
    exact (List.getElem?_eq_some_iff.mp hty).1
  refine ⟨?_, ?_, ?_⟩
  · rw [Frame.withSlot, List.length_set]
    exact h.length
  · rw [List.flatten_cons, List.cons_append, List.map_cons, List.nodup_cons, ← List.flatten_cons]
    exact ⟨hnot, h.distinct⟩
  · cases holds_withSlot_of_notMem (v := v) h.holds hnot with
    | cons hblock hrest =>
      refine .cons (.cons ⟨rfl, hty, ?_⟩ hblock) hrest
      exact List.getElem?_set_self hlt

theorem enter (h : Bound slots blocks env f) : Bound slots ([] :: blocks) ([] :: env) f :=
  ⟨h.length, h.distinct, .cons .nil h.holds⟩

/-- The bindings of a block that is left are gone. -/
theorem leave (h : Bound slots (block :: blocks) env f) : Bound slots blocks env.tail f := by
  have hdistinct := h.distinct
  rw [List.flatten_cons, List.map_append, List.nodup_append] at hdistinct
  refine ⟨h.length, hdistinct.2.1, ?_⟩
  cases h.holds with
  | cons hblock hrest => exact hrest

end Bound

end Bindings

/-! ## Following the slots -/

theorem entry_of_slot? {scope : Scope} {name : String} {slot : Nat}
    (h : scope.slot? name = some slot) :
    scope.bindings.find? (·.1 == name) = some (name, slot) := by
  obtain ⟨⟨name', slot'⟩, hfind, rfl⟩ := Option.map_eq_some_iff.mp h
  obtain rfl : name' = name := by simpa using List.find?_some hfind
  exact hfind

theorem Simulates.setSlot_pure {E : Stop → Prop} {f f' : Frame} {slot : Nat}
    (hlt : slot < f.slots.length) (v : Value) {b : β} {Q : Unit → β → Frame → Frame → Prop}
    (h : Q () b (f.withSlot slot v) f') : Simulates E f f' (setSlot slot v) (Pure.pure b) Q := by
  refine .steps (g := f.withSlot slot v) (fun m fs hm => ?_) (fun m fs hm => ?_) rfl rfl h
  · simp only [setSlot, on_modifyFrame, hm, Frame.set, if_pos hlt, Frame.withSlot]
  · rw [← hm, Machine.withFrames_self]
    rfl

/-- **Bindings follow slots**: reading, assigning, defining and leaving a block keep the bindings in
sight related to the slots of the frame. -/
theorem tracking_lexical {E : Stop → Prop} (hE : ∀ s, s.isStorage = false → E s)
    (slots : List Ty) :
    Tracking E lexical slots fun blocks env f _ => Bound slots blocks env f where
  staged _ h := ⟨h.length, h.distinct, h.holds.imp fun _ _ hblock =>
    hblock.imp fun _ _ hb => ⟨hb.name, hb.ty, hb.value⟩⟩
  result _ h := ⟨h.length, h.distinct, h.holds.imp fun _ _ hblock =>
    hblock.imp fun _ _ hb => ⟨hb.name, hb.ty, hb.value⟩⟩
  read := by
    intro blocks env f f' scope x slot h hscope _ hname hlt
    have hentry := entry_of_slot? hname
    rw [hscope] at hentry
    obtain ⟨b, hb, hin⟩ := h.find? hentry
    simp only [lexical, hb]
    refine .steps (a := b.value) (b := b.value) (g := f) (fun m fs hm => ?_) (fun m fs hm => ?_)
      rfl rfl ⟨rfl, rfl, rfl⟩
    · rw [← hm, Machine.withFrames_self]
      simp only [getSlot, on_bind, on_frame, hm, Frame.get, hin.value, on_ofExcept_ok]
    · rw [← hm, Machine.withFrames_self]
      rfl
  write := by
    intro blocks env f f' scope x slot v h hscope _ hname hlt
    have hentry := entry_of_slot? hname
    rw [hscope] at hentry
    obtain ⟨b, hb, hin⟩ := h.find? hentry
    simp only [lexical, hb, hin.ty, bindAs]
    refine .ofExcept_bind hE (OfOperations.valueBind _ _).stackFree fun w _ => ?_
    exact .setSlot_pure (by rw [h.length]; exact hlt) w ⟨rfl, h.set hentry hlt⟩
  define := by
    intro block blocks env f f' slot name ty v h hfresh hty
    simp only [lexical]
    refine .ofExcept_bind hE (OfOperations.valueBind _ _).stackFree fun w _ => ?_
    have hlt : slot < f.slots.length := by
      rw [h.length]
      exact (List.getElem?_eq_some_iff.mp hty).1
    exact .setSlot_pure hlt w ⟨rfl, h.define hfresh hty⟩
  enter h := h.enter
  leave h := h.leave

/-! ## Runs of laid out bodies -/

/-- What is said of a null does not depend on slots and stages. -/
theorem nullFault_layout (slot? : String → Option Nat) (base : Nat) (e : Expr) :
    nullFault (e.layout slot? base) = nullFault e := by
  cases e with
  | index b key =>
    simp only [Expr.layout, nullFault]
    exact nullFault_layout slot? base b
  | _ => simp only [Expr.layout, nullFault]

namespace Reference

variable (code : Code) (slot? : String → Option Nat)

mutual

/-- A lexical run does not look at slots and stages: a laid out expression has the value it has as
it is written. -/
theorem eval_layout (env : Environment) (e : Expr) (base : Nat) :
    eval lexical code env (e.layout slot? base) = eval lexical code env e := by
  cases e with
  | int n => simp only [Expr.layout]
  | float x => simp only [Expr.layout]
  | bool b => simp only [Expr.layout]
  | str s => simp only [Expr.layout]
  | null => simp only [Expr.layout]
  | json doc => simp only [Expr.layout]
  | xml text => simp only [Expr.layout]
  | var v => simp only [Expr.layout, eval, lexical]
  | array elem items => simp only [Expr.layout, eval, evalItems_layout env elem items]
  | map entries => simp only [Expr.layout, eval, evalEntries_layout env entries]
  | struct name fields =>
    simp only [Expr.layout, eval]
    cases code.program.struct? name with
    | none => rfl
    | some decl => simp only [evalFields_layout env decl _ fields]
  | connector name args => simp only [Expr.layout, eval, evalArgs_layout env args]
  | message payload => simp only [Expr.layout, eval, eval_layout env payload]
  | index b key =>
    have helement (h : Heap) (container key' : Value) :
        element h (b.layout slot? base) container key' = element h b container key' := by
      simp only [element, nullFault_layout]
    simp only [Expr.layout, eval, eval_layout env b, eval_layout env key, helement]
  | field b name =>
    have hfield (h : Heap) (target : Value) :
        fieldOf code.program h (b.layout slot? base) target name =
          fieldOf code.program h b target name := by
      simp only [fieldOf, nullFault_layout]
    simp only [Expr.layout, eval, eval_layout env b, hfield]
  | unary op operand => simp only [Expr.layout, eval, eval_layout env operand]
  | binary op left right =>
    simp only [Expr.layout, eval, eval_layout env left, eval_layout env right]
  | cast operand target => simp only [Expr.layout, eval, eval_layout env operand]
  | call callee args stage => simp only [Expr.layout, eval, evalArgs_layoutStaged env args]
  | action target name args stage =>
    simp only [Expr.layout, eval, eval_layout env target, evalArgs_layoutStaged env args]

theorem evalItems_layout (env : Environment) (elem : Ty) (items : List Expr) (base : Nat) :
    evalItems lexical code env elem (layoutEach slot? base items) =
      evalItems lexical code env elem items := by
  cases items with
  | nil => simp only [layoutEach]
  | cons e es =>
    simp only [layoutEach, evalItems, eval_layout env e, evalItems_layout env elem es]

theorem evalEntries_layout (env : Environment) (entries : List (String × Expr)) (base : Nat) :
    evalEntries lexical code env (layoutNamed slot? base entries) =
      evalEntries lexical code env entries := by
  cases entries with
  | nil => simp only [layoutNamed]
  | cons entry entries =>
    obtain ⟨key, e⟩ := entry
    simp only [layoutNamed, evalEntries, eval_layout env e, evalEntries_layout env entries]

theorem evalFields_layout (env : Environment) (decl : StructDecl)
    (fields : List (String × Value)) (given : List (String × Expr)) (base : Nat) :
    evalFields lexical code env decl fields (layoutNamed slot? base given) =
      evalFields lexical code env decl fields given := by
  cases given with
  | nil => simp only [layoutNamed]
  | cons entry rest =>
    obtain ⟨name, e⟩ := entry
    have hrest (fields : List (String × Value)) := evalFields_layout env decl fields rest base
    simp only [layoutNamed, evalFields, eval_layout env e, hrest]

theorem evalArgs_layout (env : Environment) (args : List Expr) (base : Nat) :
    evalArgs lexical code env (layoutEach slot? base args) = evalArgs lexical code env args := by
  cases args with
  | nil => simp only [layoutEach]
  | cons e es => simp only [layoutEach, evalArgs, eval_layout env e, evalArgs_layout env es]

theorem evalArgs_layoutStaged (env : Environment) (args : List Expr) (base : Nat) :
    evalArgs lexical code env (layoutStaged slot? base args) = evalArgs lexical code env args := by
  cases args with
  | nil => simp only [layoutStaged]
  | cons e es =>
    simp only [layoutStaged, evalArgs, eval_layout env e, evalArgs_layoutStaged env es]

end

theorem results_layout (env : Environment) (e : Expr) (base : Nat) :
    results lexical code env (e.layout slot? base) = results lexical code env e := by
  have hvalue := eval_layout code slot? env e base
  cases e with
  | call callee args stage => simp only [Expr.layout, results, evalArgs_layoutStaged]
  | action target name args stage =>
    simp only [Expr.layout, results, eval_layout, evalArgs_layoutStaged]
  | _ =>
    simp only [Expr.layout] at hvalue
    simp only [Expr.layout, results, hvalue]

theorem holds_layout (env : Environment) (cond : Expr) (base : Nat) :
    holds lexical code env (cond.layout slot? base) = holds lexical code env cond := by
  simp only [holds, eval_layout]

theorem write_layout (env : Environment) (v : Value) (target : Target) :
    write lexical code env v (target.layout slot?) = write lexical code env v target := by
  cases target with
  | var x => simp only [Target.layout, write, lexical]
  | index base key => simp only [Target.layout, write, eval_layout, nullFault_layout]
  | field base name => simp only [Target.layout, write, eval_layout, nullFault_layout]

theorem writeAll_layout (env : Environment) (targets : List Target) (vs : List Value) :
    writeAll lexical code env (targets.map (·.layout slot?)) vs =
      writeAll lexical code env targets vs := by
  induction targets generalizing env vs with
  | nil => rfl
  | cons t ts ih =>
    cases vs with
    | nil => rfl
    | cons v vs => simp only [List.map_cons, writeAll, write_layout, ih]

theorem assign_layout (env : Environment) (targets : List Target) (value : Expr) (base : Nat) :
    assign lexical code env (targets.map (·.layout slot?)) (value.layout slot? base) =
      assign lexical code env targets value := by
  rcases targets with _ | ⟨target, _ | ⟨second, rest⟩⟩
  · simp only [List.map_nil, assign, results_layout, writeAll]
  · simp only [List.map_cons, List.map_nil, assign, eval_layout, write_layout]
  · have hall := writeAll_layout code slot? env (target :: second :: rest)
    simp only [List.map_cons] at hall
    simp only [List.map_cons, assign, results_layout, hall, List.length_cons, List.length_map]

theorem resultValues_layout (env : Environment) (values : List Expr) :
    resultValues lexical code env (values.map (·.layout slot? 0)) =
      resultValues lexical code env values := by
  have hargs := evalArgs_layout code slot? env values 0
  rw [layoutEach_eq_map] at hargs
  unfold resultValues
  rcases values with _ | ⟨single, _ | ⟨second, rest⟩⟩
  · rfl
  · rcases code.function.sig.returns with _ | ⟨ty, _ | ⟨ty', tys⟩⟩
    · exact hargs
    · exact hargs
    · exact results_layout code slot? env single 0
  · exact hargs

mutual

/-- A lexical run of a laid out statement is one of the statement as it is written. -/
theorem exec_layout (env : Environment) (s : Stmt) (scope : Scope) :
    exec lexical code env (s.layout scope) = exec lexical code env s := by
  cases s with
  | define name ty init? slot? =>
    cases init? with
    | none =>
      simp only [Stmt.layout, Option.map_none, exec]
      rfl
    | some init =>
      simp only [Stmt.layout, Option.map_some, exec, eval_layout]
      rfl
  | assign targets value => simp only [Stmt.layout, exec, assign_layout]
  | branch cond yes no =>
    simp only [Stmt.layout, exec, holds_layout, execAll_layout _ yes, execAll_layout _ no]
  | loop cond body =>
    have hbody (env : Environment) := execAll_layout env body scope
    simp only [Stmt.layout, exec, holds_layout, hbody]
  | leave => simp only [Stmt.layout]
  | next => simp only [Stmt.layout]
  | result values => simp only [Stmt.layout, exec, resultValues_layout]
  | run e => simp only [Stmt.layout, exec, results_layout]
  | block body => simp only [Stmt.layout, exec, execAll_layout _ body]

/-- A lexical run of a laid out block is one of the block as it is written. -/
theorem execAll_layout (env : Environment) (ss : List Stmt) (scope : Scope) :
    execAll lexical code env (layoutBlock scope ss) = execAll lexical code env ss := by
  cases ss with
  | nil => simp only [layoutBlock]
  | cons s ss =>
    have hrest (env : Environment) := execAll_layout env ss (s.scopeAfter scope)
    simp only [layoutBlock, execAll, exec_layout env s scope, hrest]

end

end Reference

/-! ## Bodies -/

theorem nodup_ofParams (params : List Param) :
    ((Scope.ofParams params).bindings.map (·.2)).Nodup := by
  have hfold (scope : Scope) (hbelow : scope.Below) (hnodup : (scope.bindings.map (·.2)).Nodup) :
      ((params.foldl (fun scope p => scope.define p.name) scope).bindings.map (·.2)).Nodup := by
    induction params generalizing scope with
    | nil => exact hnodup
    | cons p ps ih =>
      rw [List.foldl_cons]
      refine ih _ (hbelow.define p.name) ?_
      rw [Scope.define, List.map_cons, List.nodup_cons]
      refine ⟨fun hmem => ?_, hnodup⟩
      obtain ⟨entry, hentry, heq⟩ := List.mem_map.mp hmem
      have hlt := hbelow entry hentry
      omega
  exact hfold {} nofun .nil

/-- Parameters are bound to what the first slots of a frame hold. -/
theorem in_bindParams {slots : List Ty} {f : Frame} (params : List Param) (scope : Scope)
    (bs : List Binding) (vs : List Value)
    (hbs : List.Forall₂ (Binding.In slots f) scope.bindings bs)
    (htys : params.map (·.ty) <+: slots.drop scope.next) (hvs : vs = f.slots.drop scope.next)
    (hlength : f.slots.length = slots.length) :
    List.Forall₂ (Binding.In slots f)
      (params.foldl (fun scope p => scope.define p.name) scope).bindings
      (Environment.bindParams bs params vs) := by
  induction params generalizing scope bs vs with
  | nil =>
    rw [Environment.bindParams]
    · exact hbs
    · exact nofun
  | cons p ps ih =>
    rw [List.map_cons] at htys
    obtain ⟨hty, hrest⟩ := cons_prefix_drop htys
    have hlt : scope.next < f.slots.length := by
      rw [hlength]
      exact (List.getElem?_eq_some_iff.mp hty).1
    rw [List.drop_eq_getElem_cons hlt] at hvs
    subst hvs
    rw [List.foldl_cons, Environment.bindParams]
    refine ih (scope.define p.name) _ _ (.cons ⟨rfl, hty, ?_⟩ hbs) hrest rfl
    exact List.getElem?_eq_getElem hlt

/-- On a frame of the function the parameters are bound to the arguments. -/
theorem Function.LaidOut.bound_params {f : Function} {decl : FunctionDecl} (hf : f.LaidOut decl)
    {frame : Frame} (hframe : frame.slots.length = f.layout.slots.length) :
    Bound f.layout.slots [(Scope.ofParams decl.params).bindings]
      [Environment.bindParams [] decl.params frame.slots] frame where
  length := hframe
  distinct := by
    rw [List.flatten_cons, List.flatten_nil, List.append_nil]
    exact nodup_ofParams decl.params
  holds := by
    refine .cons (in_bindParams decl.params {} [] frame.slots .nil ?_ rfl hframe) .nil
    rw [hf.layout]
    exact List.prefix_append _ _

/-- **A body ends as its lexical run does**, on a frame of a call of the function, if the calls it
makes do. -/
theorem Function.LaidOut.run_lexical {E : Stop → Prop} (hE : ∀ s, s.isStorage = false → E s)
    {code : Code} {decl : FunctionDecl} (hlaid : code.function.LaidOut decl)
    {call' : Callable → List Value → Exec (List Value)}
    (hcall : ∀ name unit, code.program.resolve name = .ok unit → ∀ args,
      CallsAlike E (code.call unit args) (call' unit args))
    {args : List Value} {f : Frame} (hf : prepare (.function code.function) args = .ok f) :
    Simulates E f f (Function.run code) (Lexical.run decl (code.calling call'))
      fun _ _ _ _ => True := by
  obtain ⟨hslots, htemps⟩ := sizes_of_prepare hlaid.shape hf
  have hready : Ready (fun f _ => Bound code.function.layout.slots
      [(Scope.ofParams decl.params).bindings]
      [Environment.bindParams [] decl.params f.slots] f) code.function.layout.temps f f := by
    refine ⟨hlaid.bound_params hslots, ?_⟩
    rw [htemps, List.length_replicate]
  have hrun : Simulates E f f (Function.run code)
      (Reference.run lexical (code.calling call')
        [Environment.bindParams [] decl.params f.slots] code.function.body) fun _ _ _ _ => True :=
    Tracking.run_simulates hE hcall (tracking_lexical hE code.function.layout.slots) _
      (Scope.below_ofParams decl.params) hlaid.placed hready
  have hsource (env : Environment) :
      Reference.run lexical (code.calling call') env code.function.body =
        Reference.run lexical (code.calling call') env decl.body := by
    rw [hlaid.body]
    simp only [Reference.run, Reference.execAll_layout]
  rw [hsource] at hrun
  exact .right_frame_bind hrun

/-! ## Whole calls -/

/-- A call that is noted in the output before it is made. -/
def noted (note : Callable → List Value → String)
    (call : Callable → List Value → Exec (List Value)) (unit : Callable) (args : List Value) :
    Exec (List Value) := do
  print (note unit args)
  call unit args

/-- A way to run bodies in which each call they make is noted. -/
def noting (note : Callable → List Value → String) (run : Code → Exec Unit) (code : Code) :
    Exec Unit :=
  run (code.calling (noted note code.call))

/-- Calls a callable with a number of levels left; the bodies of functions run as their
declarations, by `sources`, are written. -/
def Lexical.call (sources : Function → FunctionDecl) (p : Program) (rounds levels : Nat) :
    Callable → List Value → Exec (List Value) :=
  callWith (fun code => Lexical.run (sources code.function) code) p rounds levels

/-- Calls that end alike do so behind the same note. -/
theorem CallsAlike.noted {E : Stop → Prop} {call call' : Callable → List Value → Exec (List Value)}
    {unit : Callable} {args : List Value} (h : CallsAlike E (call unit args) (call' unit args))
    (note : Callable → List Value → String) :
    CallsAlike E (noted note call unit args) (noted note call' unit args) := by
  intro m m' hmm
  have hprinted : Machine.outline { m with output := m.output ++ note unit args } =
      Machine.outline { m' with output := m'.output ++ note unit args } :=
    congrArg (fun n => { n with output := n.output ++ note unit args }) hmm
  exact h _ _ hprinted

section Program

variable {natives : Registry} {p : Program} {sources : Function → FunctionDecl}
  (hsources : ∀ name f, p.find? name = some (.function f) → f.LaidOut (sources f))

include hsources

/-- Bodies end alike on slots and in scopes, with all their calls noted. -/
theorem bodiesAlike_lexical {E : Stop → Prop} (hE : ∀ s, s.isStorage = false → E s)
    (note : Callable → List Value → String) :
    BodiesAlike E p (noting note Function.run)
      (noting note fun code => Lexical.run (sources code.function) code) := by
  intro name f hfound call call' rounds hcall args frame hframe
  let code : Code := ⟨p, f, noted note call, rounds⟩
  have hlaid : code.function.LaidOut (sources f) := hsources name f hfound
  have hnoted : ∀ name unit, code.program.resolve name = .ok unit → ∀ args,
      CallsAlike E (code.call unit args) (noted note call' unit args) :=
    fun name unit hunit args => (hcall name unit hunit args).noted note
  exact hlaid.run_lexical hE hnoted hframe

/-- Whole calls end alike on slots and in scopes, with all calls noted. -/
theorem callsAlike_lexical (hnatives : p.NativesConfined) (note : Callable → List Value → String)
    (rounds levels : Nat) {name : String} {unit : Callable} (hunit : p.find? name = some unit)
    (args : List Value) :
    CallsAlike (fun _ => True)
      (callWith (noting note Function.run) p rounds levels unit args)
      (callWith (noting note fun code => Lexical.run (sources code.function) code) p rounds levels
        unit args) :=
  callWith_alike (fun _ _ => trivial) hnatives
    (bodiesAlike_lexical hsources (fun _ _ => trivial) note) rounds levels hunit args

end Program

/-- Empty notes are none. -/
theorem noting_empty (run : Code → Exec Unit) : noting (fun _ _ => "") run = run := by
  funext code
  have hcall : noted (fun _ _ => "") code.call = code.call := by
    funext unit args m
    change (code.call unit args).run.run { m with output := m.output ++ "" } = _
    rw [String.append_empty]
    rfl
  rw [noting, hcall]
  rfl

/-- The functions of a loaded program can be traced back to declarations of its source. -/
theorem Program.exists_sources {source : Source} {natives : Registry} {p : Program}
    (hload : Program.load source natives = .ok p) :
    ∃ sources : Function → FunctionDecl, ∀ name f, p.find? name = some (.function f) →
      sources f ∈ source.declarations ∧ f.LaidOut (sources f) := by
  have hdecl (f : Function) : ∃ decl, ∀ name, p.find? name = some (.function f) →
      decl ∈ source.declarations ∧ f.LaidOut decl := by
    by_cases hf : ∃ name, p.find? name = some (.function f)
    · obtain ⟨name, hfound⟩ := hf
      obtain ⟨decl, hmem, hlaid⟩ := Program.load_laidOut hload hfound
      exact ⟨decl, fun _ _ => ⟨hmem, hlaid⟩⟩
    · exact ⟨{ name := "" }, fun name hfound => absurd ⟨name, hfound⟩ hf⟩
  obtain ⟨sources, hsources⟩ := Classical.axiomOfChoice hdecl
  exact ⟨sources, fun name f => hsources f name⟩

/-- **Slots follow scopes.** Let a program load with native units that work on the frames of their
own calls. Then each of its functions is laid out by a declaration of its source. A body that runs
on the slots of its frame ends as the declaration it is laid out by does when that is run in lexical
scopes: with the same results or the same fault, the same objects and the same output, whatever its
callees do, and with the same calls, whatever is noted of them. So do whole calls, with all bodies
run in scopes; and unless a loop has used up its rounds the state afterwards is the same.

**Proof sketch.** The bindings in sight are in different slots, each of which holds the value of its
binding. A definition takes a slot above all these and writes it, an assignment changes one slot
and one binding, and behind a block only bindings are left that were there before it. So by
induction on the body both runs read the same values, and by induction on the levels whole calls
end alike. -/
theorem slots_follow_scopes {source : Source} {natives : Registry} {p : Program}
    (hload : Program.load source natives = .ok p)
    (hnatives : ∀ key unit, (key, unit) ∈ natives.units → unit.Confined) :
    (∃ sources : Function → FunctionDecl, ∀ name f, p.find? name = some (.function f) →
      sources f ∈ source.declarations ∧ f.LaidOut (sources f)) ∧
    (∀ name f decl, p.find? name = some (.function f) → f.LaidOut decl →
      ∀ callee : Callable → List Value → Exec (List Value),
        (∀ name unit, p.resolve name = .ok unit → ∀ args, Confined 0 (callee unit args)) →
          ∀ note rounds args frame m fs, prepare (.function f) args = .ok frame →
            m.context.frames = frame :: fs →
              EndAlike ((noting note Function.run ⟨p, f, callee, rounds⟩).on m)
                ((noting note (Lexical.run decl) ⟨p, f, callee, rounds⟩).on m)) ∧
    ∀ sources : Function → FunctionDecl,
      (∀ name f, p.find? name = some (.function f) → f.LaidOut (sources f)) →
        ∀ name unit, p.find? name = some unit → ∀ rounds levels args m,
          (∀ note, EndAlike ((callWith (noting note Function.run) p rounds levels unit args).on m)
            ((callWith (noting note fun code => Lexical.run (sources code.function) code) p rounds
              levels unit args).on m)) ∧
          EndAlike ((call p rounds levels unit args).on m)
            ((Lexical.call sources p rounds levels unit args).on m) ∧
          (((call p rounds levels unit args).on m).1 ≠ .error .exhausted →
            (call p rounds levels unit args).on m =
              (Lexical.call sources p rounds levels unit args).on m) := by
  have hp := Program.load_linked hload
  have hconfined := hp.nativesConfined hnatives
  refine ⟨?_, ?_, ?_⟩
  · exact Program.exists_sources hload
  · intro name f decl hfound hlaid callee hcallee note rounds args frame m fs hframe hm
    let code : Code := ⟨p, f, noted note callee, rounds⟩
    have hlaid' : code.function.LaidOut decl := hlaid
    have hnoted : ∀ name unit, code.program.resolve name = .ok unit → ∀ args,
        CallsAlike (fun _ => True) (code.call unit args) (noted note callee unit args) :=
      fun name unit hunit args =>
        (CallsAlike.of_confined (hcallee name unit hunit args) fun _ _ _ => trivial).noted note
    have hrun := hlaid'.run_lexical (fun _ _ => trivial) hnoted hframe
    exact hrun.endAlike hm
  · intro sources hsources name unit hunit rounds levels args m
    have halike (note : Callable → List Value → String) :=
      callsAlike_lexical hsources hconfined note rounds levels hunit args
    have hplain := (halike fun _ _ => "").endAlike m
    rw [noting_empty, noting_empty, callWith_run] at hplain
    exact ⟨fun note => ((halike note).endAlike m).1, hplain⟩

/-- A program that defines names again, in blocks and in one block, and leaves blocks early. -/
def shadowingSource : Source where
  functions := [
    { name := "main"
      params := [⟨"n", .int⟩]
      returns := [.int]
      body := [
        .define "x" .int (some (.var ⟨"n", none⟩)) none,
        .loop (.binary .lt (.var ⟨"n", none⟩) (.int 10)) [
          .define "x" .int (some (.binary .add (.var ⟨"x", none⟩) (.int 1))) none,
          .define "x" .int (some (.binary .add (.var ⟨"x", none⟩) (.var ⟨"x", none⟩))) none,
          .assign [.var ⟨"n", none⟩] (.binary .add (.var ⟨"n", none⟩) (.var ⟨"x", none⟩)),
          .branch (.binary .lt (.var ⟨"n", none⟩) (.int 6)) [.next]
            [.define "n" .int none none, .leave]],
        .result [.var ⟨"x", none⟩]] }]

/-- With the standard library this program ends as its lexical run. -/
theorem slots_follow_scopes_shadowing :
    ∃ (p : Program) (unit : Callable) (sources : Function → FunctionDecl),
      Program.load shadowingSource Library.standard = .ok p ∧ p.find? "main" = some unit ∧
        ∀ m, EndAlike ((call p 10 5 unit [.int 1]).on m)
          ((Lexical.call sources p 10 5 unit [.int 1]).on m) := by
  have hloads : Program.loadsWith shadowingSource Library.standard "main" = true := by
    decide +kernel
  obtain ⟨p, unit, hload, hunit⟩ := Program.exists_of_loadsWith hloads
  obtain ⟨⟨sources, hsources⟩, -, hcalls⟩ :=
    slots_follow_scopes hload fun key u h => Library.standard_confined h
  refine ⟨p, unit, sources, hload, hunit, fun m => ?_⟩
  have hlaid (name : String) (f : Function) (h : p.find? name = some (.function f)) :
      f.LaidOut (sources f) := (hsources name f h).2
  exact (hcalls sources hlaid "main" unit hunit 10 5 [.int 1] m).2.1

end FrameScript
