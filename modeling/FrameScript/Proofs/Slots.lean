import FrameScript.Proofs.Loading

set_option autoImplicit false

/-!
# Slots of laid out bodies

Every definition of a laid out body has a slot of its declared type.

## Main definitions

* `Stmt.Slotted` — a statement whose definitions have slots of their types.

## Main results

* `Function.LaidOut.slotted` — the bodies of laid out functions have such definitions only.
-/

namespace FrameScript

/-! ## Scopes -/

namespace Scope

@[simp] theorem define_next (scope : Scope) (name : String) :
    (scope.define name).next = scope.next + 1 := rfl

@[simp] theorem skip_next (scope : Scope) (n : Nat) : (scope.skip n).next = scope.next + n := rfl

/-- Parameters take one slot each. -/
theorem ofParams_next (params : List Param) : (ofParams params).next = params.length := by
  have hfold (scope : Scope) : (params.foldl (fun scope p => scope.define p.name) scope).next =
      scope.next + params.length := by
    induction params generalizing scope with
    | nil => rfl
    | cons param params ih =>
      rw [List.foldl_cons, ih, define_next, List.length_cons]
      omega
  rw [ofParams, hfold, Nat.zero_add]

end Scope

/-- A statement takes as many slots as it has definitions. -/
theorem Stmt.scopeAfter_next (scope : Scope) (s : Stmt) :
    (s.scopeAfter scope).next = scope.next + s.definedTypes.length := by
  cases s <;> rfl

/-! ## Definitions -/

mutual

/-- Every definition in the statement has a slot, and the slot has the type of the definition. -/
def Stmt.Slotted (slots : List Ty) : Stmt → Prop
  | .define _ ty _ slot? => ∃ slot, slot? = some slot ∧ slots[slot]? = some ty
  | .assign _ _ => True
  | .branch _ yes no => BlockSlotted slots yes ∧ BlockSlotted slots no
  | .loop _ body => BlockSlotted slots body
  | .leave => True
  | .next => True
  | .result _ => True
  | .run _ => True
  | .block body => BlockSlotted slots body

/-- Every definition in the block has a slot of its type. -/
def BlockSlotted (slots : List Ty) : List Stmt → Prop
  | [] => True
  | s :: ss => s.Slotted slots ∧ BlockSlotted slots ss

end

/-- The statements of a block are those in front of one of them, it, and those behind it. -/
theorem blockSlotted_append {slots : List Ty} {before : List Stmt} {s : Stmt}
    {after : List Stmt} (h : BlockSlotted slots (before ++ s :: after)) :
    BlockSlotted slots before ∧ s.Slotted slots := by
  induction before with
  | nil => exact ⟨trivial, h.1⟩
  | cons first before ih => exact ⟨⟨h.1, (ih h.2).1⟩, (ih h.2).2⟩

/-- The statements of a slotted block are slotted. -/
theorem BlockSlotted.of_mem {slots : List Ty} {ss : List Stmt} (h : BlockSlotted slots ss)
    {s : Stmt} (hs : s ∈ ss) : s.Slotted slots := by
  obtain ⟨before, after, rfl⟩ := List.append_of_mem hs
  exact (blockSlotted_append h).2

mutual

/-- The definitions of a laid out statement take the slots from the next free one on. -/
theorem Stmt.slotted_layout {slots : List Ty} (s : Stmt) (scope : Scope)
    (h : s.definedTypes <+: slots.drop scope.next) : (s.layout scope).Slotted slots := by
  cases s with
  | define name ty init? slot? =>
    simp only [Stmt.layout, Stmt.Slotted]
    exact ⟨scope.next, rfl, (cons_prefix_drop h).1⟩
  | assign targets value => simp only [Stmt.layout, Stmt.Slotted]
  | branch cond yes no =>
    simp only [Stmt.layout, Stmt.Slotted]
    simp only [Stmt.definedTypes] at h
    obtain ⟨hyes, hno⟩ := append_prefix_drop h
    exact ⟨blockSlotted_layout yes scope hyes, blockSlotted_layout no _ hno⟩
  | loop cond body =>
    simp only [Stmt.layout, Stmt.Slotted]
    exact blockSlotted_layout body scope (by simpa only [Stmt.definedTypes] using h)
  | leave => simp only [Stmt.layout, Stmt.Slotted]
  | next => simp only [Stmt.layout, Stmt.Slotted]
  | result values => simp only [Stmt.layout, Stmt.Slotted]
  | run e => simp only [Stmt.layout, Stmt.Slotted]
  | block body =>
    simp only [Stmt.layout, Stmt.Slotted]
    exact blockSlotted_layout body scope (by simpa only [Stmt.definedTypes] using h)

theorem blockSlotted_layout {slots : List Ty} (ss : List Stmt) (scope : Scope)
    (h : definedTypesIn ss <+: slots.drop scope.next) :
    BlockSlotted slots (layoutBlock scope ss) := by
  cases ss with
  | nil => simp only [layoutBlock, BlockSlotted]
  | cons s ss =>
    simp only [layoutBlock, BlockSlotted]
    simp only [definedTypesIn] at h
    obtain ⟨hfirst, hrest⟩ := append_prefix_drop h
    refine ⟨Stmt.slotted_layout s scope hfirst, blockSlotted_layout ss _ ?_⟩
    rwa [Stmt.scopeAfter_next]

end

/-- The definitions of a laid out function have slots of their types. -/
theorem Function.LaidOut.slotted {f : Function} {decl : FunctionDecl} (hf : f.LaidOut decl) :
    BlockSlotted f.layout.slots f.body := by
  rw [hf.body, hf.layout]
  refine blockSlotted_layout decl.body _ ?_
  simp only [layoutOf, Scope.ofParams_next]
  have hlen : decl.params.length = (decl.params.map (·.ty)).length := by simp
  exact ⟨[], by rw [hlen, List.drop_left, List.append_nil]⟩

end FrameScript
