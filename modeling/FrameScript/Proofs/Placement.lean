import FrameScript.Proofs.Slots
import FrameScript.Proofs.Subterms

set_option autoImplicit false
set_option linter.unusedSectionVars false

/-!
# Placement of variables and staged values

What the layout of a body promises of the places it fills in: a variable lives in the slot that its
name means at its place, a definition takes the next free slot, and a call stages its arguments
above everything that waits for it and below the end of the temporary slots.

## Main definitions

* `Expr.Placed`, `Target.Placed` — what is promised of expressions and targets.
* `Stmt.Placed`, `BlockPlaced` — what is promised of statements at a place with a given scope.
* `Scope.Below` — the bindings in sight have slots below the next free one.

## Main results

* `Function.LaidOut.placed` — the body of a laid out function keeps all these promises.
-/

namespace FrameScript

/-! ## Expressions -/

mutual

/-- The variables in an expression live in the slots, of which there are `slots`, that `slot?` says,
and its calls stage from `base` on or above, below `temps`. -/
def Expr.Placed (slot? : String → Option Nat) (slots temps base : Nat) : Expr → Prop
  | .int _ => True
  | .float _ => True
  | .bool _ => True
  | .str _ => True
  | .null => True
  | .json _ => True
  | .xml _ => True
  | .var v => ∃ slot, v.slot? = some slot ∧ slot? v.name = some slot ∧ slot < slots
  | .array _ items => EachPlaced slot? slots temps base items
  | .map entries => NamedPlaced slot? slots temps base entries
  | .struct _ fields => NamedPlaced slot? slots temps base fields
  | .connector _ args => EachPlaced slot? slots temps base args
  | .message payload => payload.Placed slot? slots temps base
  | .index b key => b.Placed slot? slots temps base ∧ key.Placed slot? slots temps base
  | .field b _ => b.Placed slot? slots temps base
  | .unary _ operand => operand.Placed slot? slots temps base
  | .binary _ left right =>
    left.Placed slot? slots temps base ∧ right.Placed slot? slots temps base
  | .cast operand _ => operand.Placed slot? slots temps base
  | .call _ args stage =>
    base ≤ stage ∧ stage + args.length ≤ temps ∧ StagedPlaced slot? slots temps stage args
  | .action target _ args stage =>
    target.Placed slot? slots temps base ∧ base ≤ stage ∧ stage + 1 + args.length ≤ temps ∧
      StagedPlaced slot? slots temps (stage + 1) args

/-- Expressions none of which waits for the next are placed. -/
def EachPlaced (slot? : String → Option Nat) (slots temps base : Nat) : List Expr → Prop
  | [] => True
  | e :: es => e.Placed slot? slots temps base ∧ EachPlaced slot? slots temps base es

/-- Named expressions are placed. -/
def NamedPlaced (slot? : String → Option Nat) (slots temps base : Nat) :
    List (String × Expr) → Prop
  | [] => True
  | (_, e) :: entries =>
    e.Placed slot? slots temps base ∧ NamedPlaced slot? slots temps base entries

/-- Arguments are placed, each of which is staged while those behind it are evaluated. -/
def StagedPlaced (slot? : String → Option Nat) (slots temps base : Nat) : List Expr → Prop
  | [] => True
  | e :: es => e.Placed slot? slots temps base ∧ StagedPlaced slot? slots temps (base + 1) es

end

/-- The expressions of a target are placed. -/
def Target.Placed (slot? : String → Option Nat) (slots temps : Nat) : Target → Prop
  | .var v => ∃ slot, v.slot? = some slot ∧ slot? v.name = some slot ∧ slot < slots
  | .index base key => base.Placed slot? slots temps 0 ∧ key.Placed slot? slots temps 0
  | .field base _ => base.Placed slot? slots temps 0

section Parts

variable {slot? : String → Option Nat} {slots temps base : Nat} {e : Expr}

/-- Expressions are those in front of one of them, it, and those behind it. -/
theorem eachPlaced_append {before after : List Expr}
    (h : EachPlaced slot? slots temps base (before ++ e :: after)) :
    EachPlaced slot? slots temps base before ∧ e.Placed slot? slots temps base := by
  induction before with
  | nil => exact ⟨trivial, h.1⟩
  | cons first before ih => exact ⟨⟨h.1, (ih h.2).1⟩, (ih h.2).2⟩

theorem namedPlaced_append {before after : List (String × Expr)} {name : String}
    (h : NamedPlaced slot? slots temps base (before ++ (name, e) :: after)) :
    NamedPlaced slot? slots temps base before ∧ e.Placed slot? slots temps base := by
  induction before with
  | nil => exact ⟨trivial, h.1⟩
  | cons first before ih => exact ⟨⟨h.1, (ih h.2).1⟩, (ih h.2).2⟩

/-- An argument is placed above those in front of it. -/
theorem stagedPlaced_append {before after : List Expr}
    (h : StagedPlaced slot? slots temps base (before ++ e :: after)) :
    StagedPlaced slot? slots temps base before ∧
      e.Placed slot? slots temps (base + before.length) := by
  induction before generalizing base with
  | nil => exact ⟨trivial, h.1⟩
  | cons first before ih =>
    obtain ⟨hbefore, he⟩ := ih h.2
    refine ⟨⟨h.1, hbefore⟩, ?_⟩
    rw [List.length_cons, Nat.add_comm before.length, ← Nat.add_assoc]
    exact he

theorem eachPlaced_mem {es : List Expr} (h : EachPlaced slot? slots temps base es) {e : Expr}
    (he : e ∈ es) : e.Placed slot? slots temps base := by
  obtain ⟨before, after, rfl⟩ := List.append_of_mem he
  exact (eachPlaced_append h).2

theorem namedPlaced_mem {entries : List (String × Expr)}
    (h : NamedPlaced slot? slots temps base entries) {e : Expr} (he : e ∈ entries.map (·.2)) :
    e.Placed slot? slots temps base := by
  obtain ⟨entry, hentry, rfl⟩ := List.mem_map.mp he
  obtain ⟨before, after, rfl⟩ := List.append_of_mem hentry
  exact (namedPlaced_append h).2

theorem stagedPlaced_mem {es : List Expr} (h : StagedPlaced slot? slots temps base es) {e : Expr}
    (he : e ∈ es) : ∃ base', e.Placed slot? slots temps base' := by
  obtain ⟨before, after, rfl⟩ := List.append_of_mem he
  exact ⟨_, (stagedPlaced_append h).2⟩

/-- The parts of a placed expression are placed, perhaps higher up. -/
theorem Expr.Placed.part {e x : Expr} (h : e.Placed slot? slots temps base) (hx : x ∈ e.parts) :
    ∃ base', x.Placed slot? slots temps base' := by
  cases e with
  | int | float | bool | str | null | json | xml | var => cases hx
  | array elem items =>
    simp only [Expr.Placed] at h
    exact ⟨base, eachPlaced_mem h hx⟩
  | map entries =>
    simp only [Expr.Placed] at h
    exact ⟨base, namedPlaced_mem h hx⟩
  | struct name fields =>
    simp only [Expr.Placed] at h
    exact ⟨base, namedPlaced_mem h hx⟩
  | connector name args =>
    simp only [Expr.Placed] at h
    exact ⟨base, eachPlaced_mem h hx⟩
  | message e | field e _ | unary _ e | cast e _ =>
    simp only [Expr.Placed] at h
    obtain rfl := List.mem_singleton.mp hx
    exact ⟨base, h⟩
  | index left right | binary _ left right =>
    simp only [Expr.Placed] at h
    rcases List.mem_cons.mp hx with rfl | hx
    · exact ⟨base, h.1⟩
    · obtain rfl := List.mem_singleton.mp hx
      exact ⟨base, h.2⟩
  | call callee args stage =>
    simp only [Expr.Placed] at h
    exact stagedPlaced_mem h.2.2 hx
  | action target name args stage =>
    simp only [Expr.Placed] at h
    rcases List.mem_cons.mp hx with rfl | hx
    · exact ⟨base, h.1⟩
    · exact stagedPlaced_mem h.2.2.2 hx

theorem Target.Placed.part {target : Target} {x : Expr} (h : target.Placed slot? slots temps)
    (hx : x ∈ target.parts) : x.Placed slot? slots temps 0 := by
  cases target with
  | var v => cases hx
  | index b key =>
    rcases List.mem_cons.mp hx with rfl | hx
    · exact h.1
    · obtain rfl := List.mem_singleton.mp hx
      exact h.2
  | field b name =>
    obtain rfl := List.mem_singleton.mp hx
    exact h

end Parts

section Layout

variable {slot? : String → Option Nat} {slots temps : Nat}
  (hslots : ∀ name slot, slot? name = some slot → slot < slots)

include hslots

mutual

/-- A laid out expression is placed, if all its names mean something and the temporary slots
suffice. -/
theorem Expr.placed_layout (e : Expr) (base : Nat) (hbound : e.unbound slot? = [])
    (htemps : e.tempsEnd base ≤ temps) : (e.layout slot? base).Placed slot? slots temps base := by
  cases e with
  | int n => simp only [Expr.layout, Expr.Placed]
  | float x => simp only [Expr.layout, Expr.Placed]
  | bool b => simp only [Expr.layout, Expr.Placed]
  | str s => simp only [Expr.layout, Expr.Placed]
  | null => simp only [Expr.layout, Expr.Placed]
  | json doc => simp only [Expr.layout, Expr.Placed]
  | xml text => simp only [Expr.layout, Expr.Placed]
  | var v =>
    simp only [Expr.layout, Expr.Placed]
    rcases h : slot? v.name with _ | slot
    · simp [Expr.unbound, h] at hbound
    · exact ⟨slot, rfl, rfl, hslots v.name slot h⟩
  | array elem items =>
    simp only [Expr.layout, Expr.Placed]
    simp only [Expr.unbound] at hbound
    simp only [Expr.tempsEnd] at htemps
    exact eachPlaced_layout items base hbound htemps
  | map entries =>
    simp only [Expr.layout, Expr.Placed]
    simp only [Expr.unbound] at hbound
    simp only [Expr.tempsEnd] at htemps
    exact namedPlaced_layout entries base hbound htemps
  | struct name fields =>
    simp only [Expr.layout, Expr.Placed]
    simp only [Expr.unbound] at hbound
    simp only [Expr.tempsEnd] at htemps
    exact namedPlaced_layout fields base hbound htemps
  | connector name args =>
    simp only [Expr.layout, Expr.Placed]
    simp only [Expr.unbound] at hbound
    simp only [Expr.tempsEnd] at htemps
    exact eachPlaced_layout args base hbound htemps
  | message payload =>
    simp only [Expr.layout, Expr.Placed]
    simp only [Expr.unbound] at hbound
    simp only [Expr.tempsEnd] at htemps
    exact Expr.placed_layout payload base hbound htemps
  | index b key =>
    simp only [Expr.layout, Expr.Placed]
    simp only [Expr.unbound, List.append_eq_nil_iff] at hbound
    simp only [Expr.tempsEnd] at htemps
    exact ⟨Expr.placed_layout b base hbound.1 (by omega),
      Expr.placed_layout key base hbound.2 (by omega)⟩
  | field b name =>
    simp only [Expr.layout, Expr.Placed]
    simp only [Expr.unbound] at hbound
    simp only [Expr.tempsEnd] at htemps
    exact Expr.placed_layout b base hbound htemps
  | unary op operand =>
    simp only [Expr.layout, Expr.Placed]
    simp only [Expr.unbound] at hbound
    simp only [Expr.tempsEnd] at htemps
    exact Expr.placed_layout operand base hbound htemps
  | binary op left right =>
    simp only [Expr.layout, Expr.Placed]
    simp only [Expr.unbound, List.append_eq_nil_iff] at hbound
    simp only [Expr.tempsEnd] at htemps
    exact ⟨Expr.placed_layout left base hbound.1 (by omega),
      Expr.placed_layout right base hbound.2 (by omega)⟩
  | cast operand target =>
    simp only [Expr.layout, Expr.Placed]
    simp only [Expr.unbound] at hbound
    simp only [Expr.tempsEnd] at htemps
    exact Expr.placed_layout operand base hbound htemps
  | call callee args stage =>
    simp only [Expr.layout, Expr.Placed]
    simp only [Expr.unbound] at hbound
    simp only [Expr.tempsEnd] at htemps
    obtain ⟨hplaced, hlength⟩ := stagedPlaced_layout args base hbound (by omega)
    exact ⟨Nat.le_refl _, by omega, hplaced⟩
  | action target name args stage =>
    simp only [Expr.layout, Expr.Placed]
    simp only [Expr.unbound, List.append_eq_nil_iff] at hbound
    simp only [Expr.tempsEnd] at htemps
    obtain ⟨hplaced, hlength⟩ := stagedPlaced_layout args (base + 1) hbound.2 (by omega)
    exact ⟨Expr.placed_layout target base hbound.1 (by omega), Nat.le_refl _, by omega, hplaced⟩

theorem eachPlaced_layout (es : List Expr) (base : Nat) (hbound : unboundIn slot? es = [])
    (htemps : tempsEndOfEach base es ≤ temps) :
    EachPlaced slot? slots temps base (layoutEach slot? base es) := by
  cases es with
  | nil => simp only [layoutEach, EachPlaced]
  | cons e es =>
    simp only [layoutEach, EachPlaced]
    simp only [unboundIn, List.append_eq_nil_iff] at hbound
    simp only [tempsEndOfEach] at htemps
    exact ⟨Expr.placed_layout e base hbound.1 (by omega),
      eachPlaced_layout es base hbound.2 (by omega)⟩

theorem namedPlaced_layout (entries : List (String × Expr)) (base : Nat)
    (hbound : unboundInNamed slot? entries = []) (htemps : tempsEndOfNamed base entries ≤ temps) :
    NamedPlaced slot? slots temps base (layoutNamed slot? base entries) := by
  cases entries with
  | nil => simp only [layoutNamed, NamedPlaced]
  | cons entry entries =>
    obtain ⟨name, e⟩ := entry
    simp only [layoutNamed, NamedPlaced]
    simp only [unboundInNamed, List.append_eq_nil_iff] at hbound
    simp only [tempsEndOfNamed] at htemps
    exact ⟨Expr.placed_layout e base hbound.1 (by omega),
      namedPlaced_layout entries base hbound.2 (by omega)⟩

/-- Laid out arguments are placed, and there are as many as before. -/
theorem stagedPlaced_layout (es : List Expr) (base : Nat) (hbound : unboundIn slot? es = [])
    (htemps : tempsEndOfStaged base es ≤ temps) :
    StagedPlaced slot? slots temps base (layoutStaged slot? base es) ∧
      (layoutStaged slot? base es).length = es.length := by
  cases es with
  | nil => simp [layoutStaged, StagedPlaced]
  | cons e es =>
    simp only [layoutStaged, StagedPlaced, List.length_cons]
    simp only [unboundIn, List.append_eq_nil_iff] at hbound
    simp only [tempsEndOfStaged] at htemps
    obtain ⟨hplaced, hlength⟩ := stagedPlaced_layout es (base + 1) hbound.2 (by omega)
    exact ⟨⟨Expr.placed_layout e base hbound.1 (by omega), hplaced⟩, by rw [hlength]⟩

end

theorem Target.placed_layout (target : Target) (hbound : target.unbound slot? = [])
    (htemps : target.tempsEnd ≤ temps) : (target.layout slot?).Placed slot? slots temps := by
  cases target with
  | var v =>
    rcases h : slot? v.name with _ | slot
    · simp [Target.unbound, h] at hbound
    · exact ⟨slot, h, h, hslots v.name slot h⟩
  | index base key =>
    simp only [Target.unbound, List.append_eq_nil_iff] at hbound
    simp only [Target.tempsEnd] at htemps
    exact ⟨Expr.placed_layout hslots base 0 hbound.1 (by omega),
      Expr.placed_layout hslots key 0 hbound.2 (by omega)⟩
  | field base name => exact Expr.placed_layout hslots base 0 hbound htemps

end Layout

/-! ## Statements -/

mutual

/-- A statement at a place with the given scope is placed: its definition has the next free slot,
which is one of its type, and its expressions are placed in the scope. -/
def Stmt.Placed (slots : List Ty) (temps : Nat) (scope : Scope) : Stmt → Prop
  | .define _ ty init? slot? =>
    (∀ init, init? = some init → init.Placed scope.slot? slots.length temps 0) ∧
      slot? = some scope.next ∧ slots[scope.next]? = some ty
  | .assign targets value =>
    (∀ target ∈ targets, target.Placed scope.slot? slots.length temps) ∧
      value.Placed scope.slot? slots.length temps 0
  | .branch cond yes no =>
    cond.Placed scope.slot? slots.length temps 0 ∧ BlockPlaced slots temps scope yes ∧
      BlockPlaced slots temps (scope.skip (definedTypesIn yes).length) no
  | .loop cond body =>
    cond.Placed scope.slot? slots.length temps 0 ∧ BlockPlaced slots temps scope body
  | .leave => True
  | .next => True
  | .result values => EachPlaced scope.slot? slots.length temps 0 values
  | .run e => e.Placed scope.slot? slots.length temps 0
  | .block body => BlockPlaced slots temps scope body

/-- The statements of a block are placed, each in the scope behind the one before. -/
def BlockPlaced (slots : List Ty) (temps : Nat) (scope : Scope) : List Stmt → Prop
  | [] => True
  | s :: ss => s.Placed slots temps scope ∧ BlockPlaced slots temps (s.scopeAfter scope) ss

end

/-- The expressions of a placed statement are placed. -/
theorem Stmt.Placed.expr {slots : List Ty} {temps : Nat} {scope : Scope} {s : Stmt} {e : Expr}
    (h : s.Placed slots temps scope) (he : e ∈ s.exprs) :
    e.Placed scope.slot? slots.length temps 0 := by
  cases s with
  | define name ty init? slot? =>
    simp only [Stmt.Placed] at h
    exact h.1 e (Option.mem_toList.mp he)
  | assign targets value =>
    simp only [Stmt.Placed] at h
    rcases List.mem_append.mp he with he | he
    · obtain ⟨target, htarget, he⟩ := List.mem_flatMap.mp he
      exact (h.1 target htarget).part he
    · obtain rfl := List.mem_singleton.mp he
      exact h.2
  | branch cond yes no =>
    simp only [Stmt.Placed] at h
    obtain rfl := List.mem_singleton.mp he
    exact h.1
  | loop cond body =>
    simp only [Stmt.Placed] at h
    obtain rfl := List.mem_singleton.mp he
    exact h.1
  | leave | next | block => cases he
  | result values =>
    simp only [Stmt.Placed] at h
    exact eachPlaced_mem h he
  | run e' =>
    simp only [Stmt.Placed] at h
    obtain rfl := List.mem_singleton.mp he
    exact h

/-- The bindings in sight have slots below the next free one. -/
def Scope.Below (scope : Scope) : Prop :=
  ∀ binding ∈ scope.bindings, binding.2 < scope.next

namespace Scope

theorem Below.slot?_lt {scope : Scope} (h : scope.Below) {name : String} {slot : Nat}
    (hslot : scope.slot? name = some slot) : slot < scope.next := by
  unfold slot? at hslot
  obtain ⟨binding, hfind, rfl⟩ := Option.map_eq_some_iff.mp hslot
  exact h binding (List.mem_of_find?_eq_some hfind)

theorem Below.define {scope : Scope} (h : scope.Below) (name : String) :
    (scope.define name).Below := by
  intro binding hbinding
  rcases List.mem_cons.mp hbinding with rfl | hbinding
  · exact Nat.lt_succ_self _
  · exact Nat.lt_succ_of_lt (h binding hbinding)

theorem Below.skip {scope : Scope} (h : scope.Below) (n : Nat) : (scope.skip n).Below :=
  fun binding hbinding => Nat.lt_add_right n (h binding hbinding)

theorem Below.scopeAfter {scope : Scope} (h : scope.Below) (s : Stmt) :
    (s.scopeAfter scope).Below := by
  cases s with
  | define name ty init? slot? => exact h.define name
  | _ => exact h.skip _

theorem below_ofParams (params : List Param) : (ofParams params).Below := by
  have hfold (scope : Scope) (h : scope.Below) :
      (params.foldl (fun scope p => scope.define p.name) scope).Below := by
    induction params generalizing scope with
    | nil => exact h
    | cons param params ih => exact ih _ (h.define param.name)
  exact hfold {} fun binding hbinding => by cases hbinding

end Scope

/-- The statements of a block are those in front of one of them, it, and those behind it. -/
theorem blockPlaced_append {slots : List Ty} {temps : Nat} {scope : Scope} {before : List Stmt}
    {s : Stmt} {after : List Stmt} (hscope : scope.Below)
    (h : BlockPlaced slots temps scope (before ++ s :: after)) :
    BlockPlaced slots temps scope before ∧
      ∃ scope' : Scope, scope'.Below ∧ s.Placed slots temps scope' := by
  induction before generalizing scope with
  | nil => exact ⟨trivial, scope, hscope, h.1⟩
  | cons first before ih =>
    obtain ⟨hbefore, hs⟩ := ih (hscope.scopeAfter first) h.2
    exact ⟨⟨h.1, hbefore⟩, hs⟩

/-! ### Layout -/

mutual

/-- Laying out keeps the definitions. -/
theorem Stmt.definedTypes_layout (s : Stmt) (scope : Scope) :
    (s.layout scope).definedTypes = s.definedTypes := by
  cases s with
  | branch cond yes no =>
    simp only [Stmt.layout, Stmt.definedTypes]
    rw [definedTypesIn_layoutBlock yes, definedTypesIn_layoutBlock no]
  | loop cond body =>
    simp only [Stmt.layout, Stmt.definedTypes]
    exact definedTypesIn_layoutBlock body scope
  | block body =>
    simp only [Stmt.layout, Stmt.definedTypes]
    exact definedTypesIn_layoutBlock body scope
  | _ => simp only [Stmt.layout, Stmt.definedTypes]

theorem definedTypesIn_layoutBlock (ss : List Stmt) (scope : Scope) :
    definedTypesIn (layoutBlock scope ss) = definedTypesIn ss := by
  cases ss with
  | nil => rfl
  | cons s ss =>
    simp only [layoutBlock, definedTypesIn]
    rw [Stmt.definedTypes_layout s, definedTypesIn_layoutBlock ss]

end

/-- Laying out keeps the scope behind a statement. -/
theorem Stmt.scopeAfter_layout (s : Stmt) (scope scope' : Scope) :
    (s.layout scope).scopeAfter scope' = s.scopeAfter scope' := by
  cases s with
  | branch cond yes no =>
    simp only [Stmt.layout, Stmt.scopeAfter, Stmt.definedTypes, definedTypesIn_layoutBlock]
  | loop cond body =>
    simp only [Stmt.layout, Stmt.scopeAfter, Stmt.definedTypes, definedTypesIn_layoutBlock]
  | block body =>
    simp only [Stmt.layout, Stmt.scopeAfter, Stmt.definedTypes, definedTypesIn_layoutBlock]
  | _ => simp only [Stmt.layout, Stmt.scopeAfter, Stmt.definedTypes]

theorem layoutEach_eq_map (slot? : String → Option Nat) (base : Nat) (es : List Expr) :
    layoutEach slot? base es = es.map (·.layout slot? base) := by
  induction es with
  | nil => rfl
  | cons e es ih => rw [layoutEach, ih, List.map_cons]

theorem unboundIn_eq_flatMap (slot? : String → Option Nat) (es : List Expr) :
    unboundIn slot? es = es.flatMap (·.unbound slot?) := by
  induction es with
  | nil => rfl
  | cons e es ih => rw [unboundIn, ih, List.flatMap_cons]

theorem tempsEnd_le_of_mem {targets : List Target} {target : Target} (h : target ∈ targets) :
    target.tempsEnd ≤ tempsEndOfTargets targets := by
  induction targets with
  | nil => cases h
  | cons first targets ih =>
    rw [tempsEndOfTargets]
    rcases List.mem_cons.mp h with rfl | h
    · exact Nat.le_max_left _ _
    · exact Nat.le_trans (ih h) (Nat.le_max_right _ _)

section Layout

variable {slots : List Ty} {temps : Nat}

mutual

/-- A laid out statement is placed, if all its names mean something, its definitions have slots of
their types from the next free one on, and the temporary slots suffice. -/
theorem Stmt.placed_layout (s : Stmt) (scope : Scope) (hscope : scope.Below)
    (hnext : scope.next ≤ slots.length) (hbound : s.unbound scope = [])
    (htemps : s.tempsEnd ≤ temps) (hslots : s.definedTypes <+: slots.drop scope.next) :
    (s.layout scope).Placed slots temps scope := by
  have hslot (name : String) (slot : Nat) (h : scope.slot? name = some slot) :
      slot < slots.length := Nat.lt_of_lt_of_le (hscope.slot?_lt h) hnext
  cases s with
  | define name ty init? slot? =>
    simp only [Stmt.layout, Stmt.Placed]
    simp only [Stmt.unbound] at hbound
    simp only [Stmt.tempsEnd] at htemps
    refine ⟨fun init hinit => ?_, trivial, (cons_prefix_drop hslots).1⟩
    obtain ⟨init, rfl, rfl⟩ := Option.map_eq_some_iff.mp hinit
    exact Expr.placed_layout hslot init 0 hbound htemps
  | assign targets value =>
    simp only [Stmt.layout, Stmt.Placed]
    simp only [Stmt.unbound, List.append_eq_nil_iff, List.flatMap_eq_nil_iff] at hbound
    simp only [Stmt.tempsEnd] at htemps
    refine ⟨fun target htarget => ?_, Expr.placed_layout hslot value 0 hbound.1 (by omega)⟩
    obtain ⟨target, hmem, rfl⟩ := List.mem_map.mp htarget
    have hle := tempsEnd_le_of_mem hmem
    exact Target.placed_layout hslot target (hbound.2 target hmem) (by omega)
  | branch cond yes no =>
    simp only [Stmt.layout, Stmt.Placed, definedTypesIn_layoutBlock]
    simp only [Stmt.unbound, List.append_eq_nil_iff] at hbound
    simp only [Stmt.tempsEnd] at htemps
    simp only [Stmt.definedTypes] at hslots
    obtain ⟨hyes, hno⟩ := append_prefix_drop hslots
    have hlength := hyes.length_le
    rw [List.length_drop] at hlength
    exact ⟨Expr.placed_layout hslot cond 0 hbound.1 (by omega),
      blockPlaced_layout yes scope hscope hnext hbound.2.1 (by omega) hyes,
      blockPlaced_layout no _ (hscope.skip _) (by rw [Scope.skip_next]; omega) hbound.2.2
        (by omega) hno⟩
  | loop cond body =>
    simp only [Stmt.layout, Stmt.Placed]
    simp only [Stmt.unbound, List.append_eq_nil_iff] at hbound
    simp only [Stmt.tempsEnd] at htemps
    simp only [Stmt.definedTypes] at hslots
    exact ⟨Expr.placed_layout hslot cond 0 hbound.1 (by omega),
      blockPlaced_layout body scope hscope hnext hbound.2 (by omega) hslots⟩
  | leave => simp only [Stmt.layout, Stmt.Placed]
  | next => simp only [Stmt.layout, Stmt.Placed]
  | result values =>
    simp only [Stmt.layout, Stmt.Placed]
    simp only [Stmt.unbound, ← unboundIn_eq_flatMap] at hbound
    simp only [Stmt.tempsEnd] at htemps
    rw [← layoutEach_eq_map]
    exact eachPlaced_layout hslot values 0 hbound htemps
  | run e =>
    simp only [Stmt.layout, Stmt.Placed]
    simp only [Stmt.unbound] at hbound
    simp only [Stmt.tempsEnd] at htemps
    exact Expr.placed_layout hslot e 0 hbound htemps
  | block body =>
    simp only [Stmt.layout, Stmt.Placed]
    simp only [Stmt.unbound] at hbound
    simp only [Stmt.tempsEnd] at htemps
    simp only [Stmt.definedTypes] at hslots
    exact blockPlaced_layout body scope hscope hnext hbound htemps hslots

theorem blockPlaced_layout (ss : List Stmt) (scope : Scope) (hscope : scope.Below)
    (hnext : scope.next ≤ slots.length) (hbound : unboundInBlock scope ss = [])
    (htemps : tempsEndOfBlock ss ≤ temps) (hslots : definedTypesIn ss <+: slots.drop scope.next) :
    BlockPlaced slots temps scope (layoutBlock scope ss) := by
  cases ss with
  | nil => simp only [layoutBlock, BlockPlaced]
  | cons s ss =>
    simp only [layoutBlock, BlockPlaced, Stmt.scopeAfter_layout]
    simp only [unboundInBlock, List.append_eq_nil_iff] at hbound
    simp only [tempsEndOfBlock] at htemps
    simp only [definedTypesIn] at hslots
    obtain ⟨hfirst, hrest⟩ := append_prefix_drop hslots
    have hlength := hfirst.length_le
    rw [List.length_drop] at hlength
    rw [← Stmt.scopeAfter_next] at hrest
    refine ⟨Stmt.placed_layout s scope hscope hnext hbound.1 (by omega) hfirst, ?_⟩
    refine blockPlaced_layout ss _ (hscope.scopeAfter s) ?_ hbound.2 (by omega) hrest
    rw [Stmt.scopeAfter_next]
    omega

end

end Layout

/-- **Laid out bodies are placed**: in the body of a laid out function every variable lives in the
slot its name means, every definition has a free slot of its type, and no call stages its arguments
over those of another that waits for it, or beyond the temporary slots of the frame. -/
theorem Function.LaidOut.placed {f : Function} {decl : FunctionDecl} (hf : f.LaidOut decl) :
    BlockPlaced f.layout.slots f.layout.temps (Scope.ofParams decl.params) f.body := by
  have hbound := hf.bound
  simp only [nameErrors, List.append_eq_nil_iff, List.map_eq_nil_iff] at hbound
  have hlength : (decl.params.map (·.ty)).length = decl.params.length := List.length_map _
  rw [hf.body, hf.layout]
  refine blockPlaced_layout decl.body _ (Scope.below_ofParams _) ?_ hbound.2 (Nat.le_refl _) ?_
  · simp only [layoutOf, Scope.ofParams_next, List.length_append, hlength]
    omega
  · simp only [layoutOf, Scope.ofParams_next, ← hlength, List.drop_left]
    exact List.prefix_refl _

end FrameScript
