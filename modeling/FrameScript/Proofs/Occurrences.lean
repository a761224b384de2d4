import FrameScript.Layout.References
import FrameScript.Proofs.Placement

set_option autoImplicit false

/-!
# Occurrences of names

A function has the names of its variables at many places. Each place is in a block, and what a name
means there depends on the definitions in front of the place that are in the same block or in a
block around it.

## Main definitions

* `Occurrence` — a place with the name of a variable.
* `Occurrence.Binds` — what a definition binds.
* `Stmt.occurrences`, `occurrencesIn`, `paramOccurrences` — all places, in the order in which they
  are met.
* `Expr.unplaced`, `Target.unplaced`, `Stmt.unplaced` — trees without slots and stages.

## Main results

* `Expr.mentions_layout`, `Target.mentions_layout` — laying out gives each mention the slot of its
  name.
* `Expr.unbound_eq`, `Target.unbound_eq` — the layout complains of the mentions that mean nothing.
* `Stmt.unplaced_layout` — laying out changes slots and stages only.
-/

namespace FrameScript

/-! ## Places -/

/-- A place where a function has the name of a variable. -/
structure Occurrence where
  /-- The block the place is in: the way to it from the body, block by block, where the blocks in a
  block are numbered. -/
  block : List Nat
  /-- The name. -/
  name : String
  /-- The declared type, if the place defines the variable. -/
  ty? : Option Ty := none
  /-- The slot that is filled in. -/
  slot? : Option Nat
  deriving DecidableEq, Repr

namespace Occurrence

/-- A definition binds the name at a place behind it, if that is in its block or further inside. -/
def Binds (d o : Occurrence) : Prop :=
  d.ty?.isSome ∧ d.name = o.name ∧ d.block <+: o.block

instance (d o : Occurrence) : Decidable (d.Binds o) :=
  inferInstanceAs (Decidable (_ ∧ _ ∧ _))

/-- The place before slots are filled in. -/
def unplaced (o : Occurrence) : Occurrence :=
  { o with slot? := none }

end Occurrence

/-- The variable that is mentioned, with its slot. -/
def Reference.mention? : Reference → Option (String × Option Nat)
  | .mention name slot? => some (name, slot?)
  | .definition _ _ => none
  | .call _ _ => none
  | .action _ _ => none

/-- The variables that are mentioned, with their slots. -/
def mentions (refs : List Reference) : List (String × Option Nat) :=
  refs.filterMap Reference.mention?

@[simp]
theorem mentions_append (refs refs' : List Reference) :
    mentions (refs ++ refs') = mentions refs ++ mentions refs' :=
  List.filterMap_append

@[simp]
theorem mentions_mention (name : String) (slot? : Option Nat) :
    mentions [.mention name slot?] = [(name, slot?)] := rfl

@[simp]
theorem mentions_action (name : String) (stage : Nat) (refs : List Reference) :
    mentions (.action name stage :: refs) = mentions refs := rfl

/-- The places of a block where these references mention variables. -/
def mentionsAt (block : List Nat) (refs : List Reference) : List Occurrence :=
  (mentions refs).map fun m => { block, name := m.1, slot? := m.2 }

/-- How many blocks are directly in a statement. -/
def Stmt.blocks : Stmt → Nat
  | .define _ _ _ _ => 0
  | .assign _ _ => 0
  | .branch _ _ _ => 2
  | .loop _ _ => 1
  | .leave => 0
  | .next => 0
  | .result _ => 0
  | .run _ => 0
  | .block _ => 1

mutual

/-- The occurrences in a statement of a block that has `i` blocks in front of it. A definition comes
behind its start value, and an assignment gives its value in front of its targets. -/
def Stmt.occurrences (block : List Nat) (i : Nat) : Stmt → List Occurrence
  | .define name ty init? slot? =>
    (match init? with
      | some init => mentionsAt block init.references
      | none => []) ++ [{ block, name, ty? := ty, slot? }]
  | .assign targets value =>
    mentionsAt block (value.references ++ targets.flatMap Target.references)
  | .branch cond yes no =>
    mentionsAt block cond.references ++
      (occurrencesIn (block ++ [i]) 0 yes ++ occurrencesIn (block ++ [i + 1]) 0 no)
  | .loop cond body => mentionsAt block cond.references ++ occurrencesIn (block ++ [i]) 0 body
  | .leave => []
  | .next => []
  | .result values => mentionsAt block (referencesIn values)
  | .run e => mentionsAt block e.references
  | .block body => occurrencesIn (block ++ [i]) 0 body

/-- The occurrences in statements of a block that has `i` blocks in front of them. -/
def occurrencesIn (block : List Nat) (i : Nat) : List Stmt → List Occurrence
  | [] => []
  | s :: ss => s.occurrences block i ++ occurrencesIn block (i + s.blocks) ss

end

/-- Parameters are definitions in the block of the body. They take the first slots. -/
def paramOccurrences (params : List Param) : List Occurrence :=
  params.zipIdx.map fun (p, i) => { block := [], name := p.name, ty? := p.ty, slot? := i }

/-! ## Expressions -/

section Expr

variable {slot? : String → Option Nat}

mutual

/-- Laying out gives each mention of a variable the slot its name means. -/
theorem Expr.mentions_layout (e : Expr) (base : Nat) :
    mentions (e.layout slot? base).references =
      (mentions e.references).map fun m => (m.1, slot? m.1) := by
  cases e with
  | int _ | float _ | bool _ | str _ | null | json _ | xml _ => rfl
  | var v => rfl
  | array elem items => exact mentions_layoutEach items base
  | map entries => exact mentions_layoutNamed entries base
  | struct name fields => exact mentions_layoutNamed fields base
  | connector name args => exact mentions_layoutEach args base
  | message payload => exact payload.mentions_layout base
  | index b key =>
    simp only [Expr.layout, Expr.references, mentions_append, List.map_append,
      b.mentions_layout base, key.mentions_layout base]
  | field b name => exact b.mentions_layout base
  | unary op operand => exact operand.mentions_layout base
  | binary op left right =>
    simp only [Expr.layout, Expr.references, mentions_append, List.map_append,
      left.mentions_layout base, right.mentions_layout base]
  | cast operand target => exact operand.mentions_layout base
  | call callee args stage => exact mentions_layoutStaged args base
  | action target name args stage =>
    simp only [Expr.layout, Expr.references, mentions_append, mentions_action, List.map_append,
      target.mentions_layout base, mentions_layoutStaged args (base + 1)]

theorem mentions_layoutEach (es : List Expr) (base : Nat) :
    mentions (referencesIn (layoutEach slot? base es)) =
      (mentions (referencesIn es)).map fun m => (m.1, slot? m.1) := by
  cases es with
  | nil => rfl
  | cons e es =>
    simp only [layoutEach, referencesIn, mentions_append, List.map_append,
      e.mentions_layout base, mentions_layoutEach es base]

theorem mentions_layoutNamed (entries : List (String × Expr)) (base : Nat) :
    mentions (referencesInNamed (layoutNamed slot? base entries)) =
      (mentions (referencesInNamed entries)).map fun m => (m.1, slot? m.1) := by
  cases entries with
  | nil => rfl
  | cons entry entries =>
    obtain ⟨name, e⟩ := entry
    simp only [layoutNamed, referencesInNamed, mentions_append, List.map_append,
      e.mentions_layout base, mentions_layoutNamed entries base]

theorem mentions_layoutStaged (es : List Expr) (base : Nat) :
    mentions (referencesIn (layoutStaged slot? base es)) =
      (mentions (referencesIn es)).map fun m => (m.1, slot? m.1) := by
  cases es with
  | nil => rfl
  | cons e es =>
    simp only [layoutStaged, referencesIn, mentions_append, List.map_append,
      e.mentions_layout base, mentions_layoutStaged es (base + 1)]

end

/-- The names mentioned that mean nothing. -/
def unmeant (slot? : String → Option Nat) (refs : List Reference) : List String :=
  ((mentions refs).filter fun m => (slot? m.1).isNone).map (·.1)

@[simp]
theorem unmeant_append (refs refs' : List Reference) :
    unmeant slot? (refs ++ refs') = unmeant slot? refs ++ unmeant slot? refs' := by
  simp [unmeant]

theorem unmeant_mention (name : String) (filled? : Option Nat) :
    unmeant slot? [.mention name filled?] = if (slot? name).isNone then [name] else [] := by
  simp only [unmeant, mentions_mention, List.filter_cons, List.filter_nil]
  split <;> rfl

mutual

/-- The layout complains of the mentions that mean nothing. -/
theorem Expr.unbound_eq (e : Expr) : e.unbound slot? = unmeant slot? e.references := by
  cases e with
  | int _ | float _ | bool _ | str _ | null | json _ | xml _ => rfl
  | var v => exact (unmeant_mention v.name v.slot?).symm
  | array elem items => exact unboundIn_eq items
  | map entries => exact unboundInNamed_eq entries
  | struct name fields => exact unboundInNamed_eq fields
  | connector name args => exact unboundIn_eq args
  | message payload => exact payload.unbound_eq
  | index b key =>
    simp only [Expr.unbound, Expr.references, unmeant_append, b.unbound_eq, key.unbound_eq]
  | field b name => exact b.unbound_eq
  | unary op operand => exact operand.unbound_eq
  | binary op left right =>
    simp only [Expr.unbound, Expr.references, unmeant_append, left.unbound_eq, right.unbound_eq]
  | cast operand target => exact operand.unbound_eq
  | call callee args stage => exact unboundIn_eq args
  | action target name args stage =>
    simp only [Expr.unbound, target.unbound_eq, unboundIn_eq args, ← unmeant_append]
    rfl

theorem unboundIn_eq (es : List Expr) : unboundIn slot? es = unmeant slot? (referencesIn es) := by
  cases es with
  | nil => rfl
  | cons e es => simp only [unboundIn, referencesIn, unmeant_append, e.unbound_eq, unboundIn_eq es]

theorem unboundInNamed_eq (entries : List (String × Expr)) :
    unboundInNamed slot? entries = unmeant slot? (referencesInNamed entries) := by
  cases entries with
  | nil => rfl
  | cons entry entries =>
    obtain ⟨name, e⟩ := entry
    simp only [unboundInNamed, referencesInNamed, unmeant_append, e.unbound_eq,
      unboundInNamed_eq entries]

end

/-! ## Targets -/

theorem Target.mentions_layout (target : Target) :
    mentions (target.layout slot?).references =
      (mentions target.references).map fun m => (m.1, slot? m.1) := by
  cases target with
  | var v => rfl
  | index base key =>
    simp only [Target.layout, Target.references, mentions_append, List.map_append,
      base.mentions_layout 0, key.mentions_layout 0]
  | field base name => exact base.mentions_layout 0

theorem Target.unbound_eq (target : Target) :
    target.unbound slot? = unmeant slot? target.references := by
  cases target with
  | var v => exact (unmeant_mention v.name v.slot?).symm
  | index base key =>
    simp only [Target.unbound, Target.references, unmeant_append, base.unbound_eq, key.unbound_eq]
  | field base name => exact base.unbound_eq

theorem mentions_layoutTargets (targets : List Target) :
    mentions ((targets.map (·.layout slot?)).flatMap Target.references) =
      (mentions (targets.flatMap Target.references)).map fun m => (m.1, slot? m.1) := by
  induction targets with
  | nil => rfl
  | cons target targets ih =>
    simp only [List.map_cons, List.flatMap_cons, mentions_append, List.map_append,
      target.mentions_layout, ih]

theorem unboundInTargets_eq (targets : List Target) :
    targets.flatMap (·.unbound slot?) = unmeant slot? (targets.flatMap Target.references) := by
  induction targets with
  | nil => rfl
  | cons target targets ih => simp only [List.flatMap_cons, unmeant_append, target.unbound_eq, ih]

end Expr

/-! ## Trees without slots and stages -/

mutual

/-- The expression without slots and stages. -/
def Expr.unplaced : Expr → Expr
  | .int n => .int n
  | .float x => .float x
  | .bool b => .bool b
  | .str s => .str s
  | .null => .null
  | .json doc => .json doc
  | .xml text => .xml text
  | .var v => .var ⟨v.name, none⟩
  | .array elem items => .array elem (unplacedEach items)
  | .map entries => .map (unplacedNamed entries)
  | .struct name fields => .struct name (unplacedNamed fields)
  | .connector name args => .connector name (unplacedEach args)
  | .message payload => .message payload.unplaced
  | .index base key => .index base.unplaced key.unplaced
  | .field base name => .field base.unplaced name
  | .unary op operand => .unary op operand.unplaced
  | .binary op left right => .binary op left.unplaced right.unplaced
  | .cast operand target => .cast operand.unplaced target
  | .call callee args _ => .call callee (unplacedEach args) 0
  | .action target name args _ => .action target.unplaced name (unplacedEach args) 0

/-- Expressions without slots and stages. -/
def unplacedEach : List Expr → List Expr
  | [] => []
  | e :: es => e.unplaced :: unplacedEach es

/-- Named expressions without slots and stages. -/
def unplacedNamed : List (String × Expr) → List (String × Expr)
  | [] => []
  | (name, e) :: entries => (name, e.unplaced) :: unplacedNamed entries

end

/-- The target without slots and stages. -/
def Target.unplaced : Target → Target
  | .var v => .var ⟨v.name, none⟩
  | .index base key => .index base.unplaced key.unplaced
  | .field base name => .field base.unplaced name

mutual

/-- The statement without slots and stages. -/
def Stmt.unplaced : Stmt → Stmt
  | .define name ty init? _ => .define name ty (init?.map Expr.unplaced) none
  | .assign targets value => .assign (targets.map Target.unplaced) value.unplaced
  | .branch cond yes no => .branch cond.unplaced (unplacedBlock yes) (unplacedBlock no)
  | .loop cond body => .loop cond.unplaced (unplacedBlock body)
  | .leave => .leave
  | .next => .next
  | .result values => .result (values.map Expr.unplaced)
  | .run e => .run e.unplaced
  | .block body => .block (unplacedBlock body)

/-- The statements without slots and stages. -/
def unplacedBlock : List Stmt → List Stmt
  | [] => []
  | s :: ss => s.unplaced :: unplacedBlock ss

end

section Unplaced

variable {slot? : String → Option Nat}

mutual

/-- Laying out an expression changes slots and stages only. -/
theorem Expr.unplaced_layout (e : Expr) (base : Nat) :
    (e.layout slot? base).unplaced = e.unplaced := by
  cases e with
  | int _ | float _ | bool _ | str _ | null | json _ | xml _ | var _ => rfl
  | array elem items => simp only [Expr.layout, Expr.unplaced, unplaced_layoutEach items base]
  | map entries => simp only [Expr.layout, Expr.unplaced, unplaced_layoutNamed entries base]
  | struct name fields => simp only [Expr.layout, Expr.unplaced, unplaced_layoutNamed fields base]
  | connector name args => simp only [Expr.layout, Expr.unplaced, unplaced_layoutEach args base]
  | message payload => simp only [Expr.layout, Expr.unplaced, payload.unplaced_layout base]
  | index b key =>
    simp only [Expr.layout, Expr.unplaced, b.unplaced_layout base, key.unplaced_layout base]
  | field b name => simp only [Expr.layout, Expr.unplaced, b.unplaced_layout base]
  | unary op operand => simp only [Expr.layout, Expr.unplaced, operand.unplaced_layout base]
  | binary op left right =>
    simp only [Expr.layout, Expr.unplaced, left.unplaced_layout base, right.unplaced_layout base]
  | cast operand target => simp only [Expr.layout, Expr.unplaced, operand.unplaced_layout base]
  | call callee args stage =>
    simp only [Expr.layout, Expr.unplaced, unplaced_layoutStaged args base]
  | action target name args stage =>
    simp only [Expr.layout, Expr.unplaced, target.unplaced_layout base,
      unplaced_layoutStaged args (base + 1)]

theorem unplaced_layoutEach (es : List Expr) (base : Nat) :
    unplacedEach (layoutEach slot? base es) = unplacedEach es := by
  cases es with
  | nil => rfl
  | cons e es =>
    simp only [layoutEach, unplacedEach, e.unplaced_layout base, unplaced_layoutEach es base]

theorem unplaced_layoutNamed (entries : List (String × Expr)) (base : Nat) :
    unplacedNamed (layoutNamed slot? base entries) = unplacedNamed entries := by
  cases entries with
  | nil => rfl
  | cons entry entries =>
    obtain ⟨name, e⟩ := entry
    simp only [layoutNamed, unplacedNamed, e.unplaced_layout base,
      unplaced_layoutNamed entries base]

theorem unplaced_layoutStaged (es : List Expr) (base : Nat) :
    unplacedEach (layoutStaged slot? base es) = unplacedEach es := by
  cases es with
  | nil => rfl
  | cons e es =>
    simp only [layoutStaged, unplacedEach, e.unplaced_layout base,
      unplaced_layoutStaged es (base + 1)]

end

theorem Target.unplaced_layout (target : Target) :
    (target.layout slot?).unplaced = target.unplaced := by
  cases target with
  | var v => rfl
  | index base key =>
    simp only [Target.layout, Target.unplaced, base.unplaced_layout 0, key.unplaced_layout 0]
  | field base name => simp only [Target.layout, Target.unplaced, base.unplaced_layout 0]

end Unplaced

mutual

/-- Laying out a statement changes slots and stages only. -/
theorem Stmt.unplaced_layout (s : Stmt) (scope : Scope) :
    (s.layout scope).unplaced = s.unplaced := by
  cases s with
  | define name ty init? filled? =>
    cases init? with
    | none => rfl
    | some init =>
      simp only [Stmt.layout, Stmt.unplaced, Option.map_some, init.unplaced_layout 0]
  | assign targets value =>
    simp only [Stmt.layout, Stmt.unplaced, List.map_map, Function.comp_def,
      Target.unplaced_layout, value.unplaced_layout 0]
  | branch cond yes no =>
    simp only [Stmt.layout, Stmt.unplaced, cond.unplaced_layout 0, unplaced_layoutBlock]
  | loop cond body =>
    simp only [Stmt.layout, Stmt.unplaced, cond.unplaced_layout 0, unplaced_layoutBlock]
  | leave | next => rfl
  | result values =>
    simp only [Stmt.layout, Stmt.unplaced, List.map_map, Function.comp_def, Expr.unplaced_layout]
  | run e => simp only [Stmt.layout, Stmt.unplaced, e.unplaced_layout 0]
  | block body => simp only [Stmt.layout, Stmt.unplaced, unplaced_layoutBlock]

theorem unplaced_layoutBlock (ss : List Stmt) (scope : Scope) :
    unplacedBlock (layoutBlock scope ss) = unplacedBlock ss := by
  cases ss with
  | nil => rfl
  | cons s ss =>
    simp only [layoutBlock, unplacedBlock, s.unplaced_layout scope, unplaced_layoutBlock ss]

end

end FrameScript
