import FrameScript.Program.Basic

set_option autoImplicit false

/-!
# What lies inside a node

The expressions and statements directly below a node of a body, and all those further down.

## Main definitions

* `Expr.parts`, `Target.parts`, `Stmt.exprs`, `Stmt.inner` — what lies directly below a node.
* `Expr.subterms`, `Stmt.withInner` — a node with everything below it.
* `Function.exprs` — all expressions of a body.
* `Expr.staged` — the temporary slots in which an expression stages arguments of calls.

## Main results

* `Expr.mem_subterms`, `Stmt.mem_withInner` — what is below a part is below the whole.
* `Expr.forall_subterms`, `forall_statementsOf` — what is handed down from a node to what lies
  directly below it holds of everything below.
-/

namespace FrameScript

/-! ## Parts -/

/-- The expressions that an expression evaluates, as far as it gets. -/
def Expr.parts : Expr → List Expr
  | .int _ | .float _ | .bool _ | .str _ | .null | .json _ | .xml _ | .var _ => []
  | .array _ items => items
  | .map entries => entries.map (·.2)
  | .struct _ fields => fields.map (·.2)
  | .connector _ args => args
  | .message payload => [payload]
  | .index base key => [base, key]
  | .field base _ => [base]
  | .unary _ operand => [operand]
  | .binary _ left right => [left, right]
  | .cast operand _ => [operand]
  | .call _ args _ => args
  | .action target _ args _ => target :: args

/-- The expressions that an assignment to a target evaluates. -/
def Target.parts : Target → List Expr
  | .var _ => []
  | .index base key => [base, key]
  | .field base _ => [base]

/-- The expressions of a statement that are not those of a statement inside. -/
def Stmt.exprs : Stmt → List Expr
  | .define _ _ init? _ => init?.toList
  | .assign targets value => targets.flatMap (·.parts) ++ [value]
  | .branch cond _ _ => [cond]
  | .loop cond _ => [cond]
  | .leave | .next | .block _ => []
  | .result values => values
  | .run e => [e]

/-- The statements directly inside a statement. -/
def Stmt.inner : Stmt → List Stmt
  | .branch _ yes no => yes ++ no
  | .loop _ body => body
  | .block body => body
  | _ => []

/-! ## Expressions -/

mutual

/-- The expressions strictly inside an expression. -/
def Expr.inside : Expr → List Expr
  | .int _ | .float _ | .bool _ | .str _ | .null | .json _ | .xml _ | .var _ => []
  | .array _ items => subtermsOf items
  | .map entries => subtermsOfNamed entries
  | .struct _ fields => subtermsOfNamed fields
  | .connector _ args => subtermsOf args
  | .message payload => payload :: payload.inside
  | .index base key => (base :: base.inside) ++ (key :: key.inside)
  | .field base _ => base :: base.inside
  | .unary _ operand => operand :: operand.inside
  | .binary _ left right => (left :: left.inside) ++ (right :: right.inside)
  | .cast operand _ => operand :: operand.inside
  | .call _ args _ => subtermsOf args
  | .action target _ args _ => (target :: target.inside) ++ subtermsOf args

/-- Several expressions and all expressions inside them. -/
def subtermsOf : List Expr → List Expr
  | [] => []
  | e :: es => (e :: e.inside) ++ subtermsOf es

/-- Several named expressions and all expressions inside them. -/
def subtermsOfNamed : List (String × Expr) → List Expr
  | [] => []
  | (_, e) :: entries => (e :: e.inside) ++ subtermsOfNamed entries

end

/-- An expression and all expressions inside it. -/
def Expr.subterms (e : Expr) : List Expr :=
  e :: e.inside

theorem mem_subtermsOf {x e : Expr} {es : List Expr} (he : e ∈ es) (hx : x ∈ e.subterms) :
    x ∈ subtermsOf es := by
  induction es with
  | nil => cases he
  | cons e' es ih =>
    rcases List.mem_cons.mp he with rfl | hrest
    · exact List.mem_append_left _ hx
    · exact List.mem_append_right _ (ih hrest)

theorem mem_subtermsOfNamed {x e : Expr} {entries : List (String × Expr)}
    (he : e ∈ entries.map (·.2)) (hx : x ∈ e.subterms) : x ∈ subtermsOfNamed entries := by
  induction entries with
  | nil => cases he
  | cons entry entries ih =>
    rcases List.mem_cons.mp he with rfl | hrest
    · exact List.mem_append_left _ hx
    · exact List.mem_append_right _ (ih hrest)

/-- What lies inside a part of an expression lies inside the expression. -/
theorem Expr.mem_inside {e part x : Expr} (hpart : part ∈ e.parts) (hx : x ∈ part.subterms) :
    x ∈ e.inside := by
  cases e with
  | array elem items => exact mem_subtermsOf hpart hx
  | connector name args => exact mem_subtermsOf hpart hx
  | call callee args stage => exact mem_subtermsOf hpart hx
  | map entries => exact mem_subtermsOfNamed hpart hx
  | struct name fields => exact mem_subtermsOfNamed hpart hx
  | message | field | unary | cast =>
    obtain rfl := List.mem_singleton.mp hpart
    exact hx
  | index | binary =>
    rcases List.mem_cons.mp hpart with rfl | hsecond
    · exact List.mem_append_left _ hx
    · obtain rfl := List.mem_singleton.mp hsecond
      exact List.mem_append_right _ hx
  | action target name args stage =>
    rcases List.mem_cons.mp hpart with rfl | harg
    · exact List.mem_append_left _ hx
    · exact List.mem_append_right _ (mem_subtermsOf harg hx)
  | _ => cases hpart

/-- What lies inside a part of an expression is one of its subterms. -/
theorem Expr.mem_subterms {e part x : Expr} (hpart : part ∈ e.parts) (hx : x ∈ part.subterms) :
    x ∈ e.subterms :=
  List.mem_cons_of_mem _ (Expr.mem_inside hpart hx)

theorem exists_of_mem_subtermsOf {x : Expr} {es : List Expr} (h : x ∈ subtermsOf es) :
    ∃ e ∈ es, x ∈ e.subterms := by
  induction es with
  | nil => cases h
  | cons e es ih =>
    rcases List.mem_append.mp h with hfirst | hrest
    · exact ⟨e, List.mem_cons_self, hfirst⟩
    · obtain ⟨e', he', hx⟩ := ih hrest
      exact ⟨e', List.mem_cons_of_mem _ he', hx⟩

theorem exists_of_mem_subtermsOfNamed {x : Expr} {entries : List (String × Expr)}
    (h : x ∈ subtermsOfNamed entries) : ∃ e ∈ entries.map (·.2), x ∈ e.subterms := by
  induction entries with
  | nil => cases h
  | cons entry entries ih =>
    rcases List.mem_append.mp h with hfirst | hrest
    · exact ⟨entry.2, List.mem_cons_self, hfirst⟩
    · obtain ⟨e', he', hx⟩ := ih hrest
      exact ⟨e', List.mem_cons_of_mem _ he', hx⟩

/-- What lies strictly inside an expression lies inside one of its parts. -/
theorem Expr.exists_part {e x : Expr} (h : x ∈ e.inside) : ∃ part ∈ e.parts, x ∈ part.subterms := by
  cases e with
  | array | connector | call => exact exists_of_mem_subtermsOf h
  | map | struct => exact exists_of_mem_subtermsOfNamed h
  | message | field | unary | cast => exact ⟨_, List.mem_cons_self, h⟩
  | index base key | binary _ base key =>
    rcases List.mem_append.mp h with hfirst | hsecond
    · exact ⟨base, List.mem_cons_self, hfirst⟩
    · exact ⟨key, List.mem_cons_of_mem _ List.mem_cons_self, hsecond⟩
  | action target name args stage =>
    rcases List.mem_append.mp h with htarget | hargs
    · exact ⟨target, List.mem_cons_self, htarget⟩
    · obtain ⟨arg, harg, hx⟩ := exists_of_mem_subtermsOf hargs
      exact ⟨arg, List.mem_cons_of_mem _ harg, hx⟩
  | _ => cases h

theorem Expr.sizeOf_part_lt {e part : Expr} (h : part ∈ e.parts) : sizeOf part < sizeOf e := by
  cases e with
  | array _ es | connector _ es | call _ es _ =>
    have hlt : sizeOf part < sizeOf es := List.sizeOf_lt_of_mem h
    grind
  | map entries | struct _ entries =>
    obtain ⟨entry, hentry, rfl⟩ := List.mem_map.mp h
    have hlt := List.sizeOf_lt_of_mem hentry
    grind
  | action target name args stage =>
    rcases List.mem_cons.mp h with rfl | hargs
    · grind
    · have hlt := List.sizeOf_lt_of_mem hargs
      grind
  | _ =>
    simp only [Expr.parts] at h
    grind

/-- What holds of an expression, and of the parts of all expressions it holds of, holds of
everything inside. -/
theorem Expr.forall_subterms {P : Expr → Prop} (hparts : ∀ e, P e → ∀ x ∈ e.parts, P x) {e : Expr}
    (h : P e) : ∀ x ∈ e.subterms, P x := by
  intro x hx
  rcases List.mem_cons.mp hx with rfl | hinside
  · exact h
  · obtain ⟨part, hpart, hx⟩ := Expr.exists_part hinside
    exact Expr.forall_subterms hparts (hparts e h part hpart) x hx
termination_by sizeOf e
decreasing_by exact Expr.sizeOf_part_lt hpart

/-- What lies inside a subterm lies inside the expression. -/
theorem Expr.subterms_subset_of_mem {e x : Expr} (hx : x ∈ e.subterms) : x.subterms ⊆ e.subterms :=
  Expr.forall_subterms (P := fun x => x.subterms ⊆ e.subterms)
    (fun _ h _ hpart _ hy => h (Expr.mem_subterms hpart hy)) (List.Subset.refl _) x hx

/-! ## Staged arguments -/

/-- The temporary slots in which a call stages its arguments. -/
def Expr.ownStaged : Expr → List Nat
  | .call _ args stage => List.range' stage args.length
  | .action _ _ args stage => List.range' stage (args.length + 1)
  | _ => []

/-- The temporary slots in which the calls inside an expression, itself included, stage their
arguments. -/
def Expr.staged (e : Expr) : List Nat :=
  e.subterms.flatMap (·.ownStaged)

theorem Expr.mem_staged_of_part {e part : Expr} (hpart : part ∈ e.parts) {i : Nat}
    (hi : i ∈ part.staged) : i ∈ e.staged := by
  obtain ⟨x, hx, hi⟩ := List.mem_flatMap.mp hi
  exact List.mem_flatMap.mpr ⟨x, Expr.mem_subterms hpart hx, hi⟩

theorem Expr.mem_staged_of_own {e : Expr} {i : Nat} (hi : i ∈ e.ownStaged) : i ∈ e.staged :=
  List.mem_flatMap.mpr ⟨e, List.mem_cons_self, hi⟩

/-! ## Statements -/

mutual

/-- A statement and the statements inside it. -/
def Stmt.withInner : Stmt → List Stmt
  | .branch cond yes no => .branch cond yes no :: (statementsOf yes ++ statementsOf no)
  | .loop cond body => .loop cond body :: statementsOf body
  | .block body => .block body :: statementsOf body
  | s => [s]

/-- The statements of a block and those inside them. -/
def statementsOf : List Stmt → List Stmt
  | [] => []
  | s :: ss => s.withInner ++ statementsOf ss

end

theorem Stmt.mem_withInner_self (s : Stmt) : s ∈ s.withInner := by
  cases s <;> simp [Stmt.withInner]

theorem mem_statementsOf {s s' : Stmt} {ss : List Stmt} (hs : s ∈ ss) (hs' : s' ∈ s.withInner) :
    s' ∈ statementsOf ss := by
  induction ss with
  | nil => cases hs
  | cons first ss ih =>
    rw [statementsOf]
    rcases List.mem_cons.mp hs with rfl | hrest
    · exact List.mem_append_left _ hs'
    · exact List.mem_append_right _ (ih hrest)

theorem exists_of_mem_statementsOf {s' : Stmt} {ss : List Stmt} (h : s' ∈ statementsOf ss) :
    ∃ s ∈ ss, s' ∈ s.withInner := by
  induction ss with
  | nil => cases h
  | cons first ss ih =>
    rw [statementsOf] at h
    rcases List.mem_append.mp h with hfirst | hrest
    · exact ⟨first, List.mem_cons_self, hfirst⟩
    · obtain ⟨s, hs, hs'⟩ := ih hrest
      exact ⟨s, List.mem_cons_of_mem _ hs, hs'⟩

/-- What lies inside an inner statement lies inside the statement. -/
theorem Stmt.mem_withInner {s inner s' : Stmt} (hinner : inner ∈ s.inner)
    (hs' : s' ∈ inner.withInner) : s' ∈ s.withInner := by
  cases s with
  | branch cond yes no =>
    rw [Stmt.withInner]
    refine List.mem_cons_of_mem _ (List.mem_append.mpr ?_)
    exact (List.mem_append.mp hinner).imp (mem_statementsOf · hs') (mem_statementsOf · hs')
  | loop cond body =>
    rw [Stmt.withInner]
    exact List.mem_cons_of_mem _ (mem_statementsOf hinner hs')
  | block body =>
    rw [Stmt.withInner]
    exact List.mem_cons_of_mem _ (mem_statementsOf hinner hs')
  | _ => cases hinner

/-- What lies inside a statement is the statement itself or lies inside an inner statement. -/
theorem Stmt.eq_or_exists_inner {s s' : Stmt} (h : s' ∈ s.withInner) :
    s' = s ∨ ∃ inner ∈ s.inner, s' ∈ inner.withInner := by
  cases s with
  | branch cond yes no =>
    rw [Stmt.withInner] at h
    refine (List.mem_cons.mp h).imp_right fun h => ?_
    rcases List.mem_append.mp h with hyes | hno
    · obtain ⟨inner, hinner, hs'⟩ := exists_of_mem_statementsOf hyes
      exact ⟨inner, List.mem_append_left _ hinner, hs'⟩
    · obtain ⟨inner, hinner, hs'⟩ := exists_of_mem_statementsOf hno
      exact ⟨inner, List.mem_append_right _ hinner, hs'⟩
  | loop | block =>
    rw [Stmt.withInner] at h
    exact (List.mem_cons.mp h).imp_right exists_of_mem_statementsOf
  | _ => exact .inl (List.mem_singleton.mp h)

theorem Stmt.sizeOf_inner_lt {s inner : Stmt} (h : inner ∈ s.inner) :
    sizeOf inner < sizeOf s := by
  cases s with
  | branch cond yes no =>
    rcases List.mem_append.mp h with hyes | hno
    · have hlt := List.sizeOf_lt_of_mem hyes
      grind
    · have hlt := List.sizeOf_lt_of_mem hno
      grind
  | loop _ body | block body =>
    have hlt : sizeOf inner < sizeOf body := List.sizeOf_lt_of_mem h
    grind
  | _ => cases h

/-- What holds of a statement, and of the inner statements of all statements it holds of, holds of
everything inside. -/
theorem Stmt.forall_withInner {P : Stmt → Prop} (hinner : ∀ s, P s → ∀ s' ∈ s.inner, P s')
    {s : Stmt} (h : P s) : ∀ s' ∈ s.withInner, P s' := by
  intro s' hs'
  rcases Stmt.eq_or_exists_inner hs' with rfl | ⟨inner, hmem, hs'⟩
  · exact h
  · exact Stmt.forall_withInner hinner (hinner s h inner hmem) s' hs'
termination_by sizeOf s
decreasing_by exact Stmt.sizeOf_inner_lt hmem

/-- What holds of the statements of a block, and of the inner statements of all statements it holds
of, holds of everything inside the block. -/
theorem forall_statementsOf {P : Stmt → Prop} (hinner : ∀ s, P s → ∀ s' ∈ s.inner, P s')
    {ss : List Stmt} (h : ∀ s ∈ ss, P s) : ∀ s ∈ statementsOf ss, P s := by
  intro s hs
  obtain ⟨outer, houter, hs⟩ := exists_of_mem_statementsOf hs
  exact Stmt.forall_withInner hinner (h outer houter) s hs

/-- The inner statements of a statement inside a block lie inside the block. -/
theorem inner_mem_statementsOf {ss : List Stmt} {s s' : Stmt} (hs : s ∈ statementsOf ss)
    (hs' : s' ∈ s.inner) : s' ∈ statementsOf ss :=
  forall_statementsOf (P := fun s => ∀ s' ∈ s.withInner, s' ∈ statementsOf ss)
    (fun _ h _ hinner _ hs' => h _ (Stmt.mem_withInner hinner hs'))
    (fun _ hs _ hs' => mem_statementsOf hs hs') s hs s'
    (Stmt.mem_withInner hs' s'.mem_withInner_self)

/-! ## Bodies -/

namespace Function

/-- The expressions of the statements of a body. -/
def topExprs (f : Function) : List Expr :=
  (statementsOf f.body).flatMap (·.exprs)

/-- All expressions of a body. -/
def exprs (f : Function) : List Expr :=
  f.topExprs.flatMap (·.subterms)

variable {f : Function} {s : Stmt} {e x : Expr}

theorem mem_topExprs (hs : s ∈ statementsOf f.body) (he : e ∈ s.exprs) : e ∈ f.topExprs :=
  List.mem_flatMap.mpr ⟨s, hs, he⟩

theorem mem_exprs_of_top (he : e ∈ f.topExprs) : e ∈ f.exprs :=
  List.mem_flatMap.mpr ⟨e, he, List.mem_cons_self⟩

/-- The parts of an expression of a body are expressions of the body. -/
theorem mem_exprs_of_part (he : e ∈ f.exprs) (hx : x ∈ e.parts) : x ∈ f.exprs := by
  obtain ⟨top, htop, he⟩ := List.mem_flatMap.mp he
  have hinside : x ∈ e.subterms := Expr.mem_subterms hx List.mem_cons_self
  exact List.mem_flatMap.mpr ⟨top, htop, Expr.subterms_subset_of_mem he hinside⟩

/-- What holds of the expressions of the statements of a body, and of the parts of all expressions
it holds of, holds of all expressions of the body. -/
theorem forall_exprs {P : Expr → Prop} (hparts : ∀ e, P e → ∀ x ∈ e.parts, P x)
    (h : ∀ e ∈ f.topExprs, P e) : ∀ e ∈ f.exprs, P e := by
  intro e he
  obtain ⟨top, htop, he⟩ := List.mem_flatMap.mp he
  exact Expr.forall_subterms hparts (h top htop) e he

end Function

end FrameScript
