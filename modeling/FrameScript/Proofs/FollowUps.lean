import FrameScript.Check.Program
import FrameScript.Proofs.Standard

set_option autoImplicit false

/-!
# Findings that follow from others

Where the type of a part is `any` because of a finding in that part, the checker does not report the
use of the `any` once more. Compared here are two checkers that differ in this, on the same program
or on programs that differ in the bodies of their functions only: they infer the same types, and the
milder one leaves findings out only behind one that it reports.

## Main definitions

* `Abridges` — a list with parts left out, but not all of them.
* `Program.DeclaresAs` — programs that differ in the bodies of their functions only.
* `Checker.Milder` — a checker that may report less than another.
* `Program.checkStrictly` — the findings of the checker that leaves none out.

## Main results

* `Expr.infer_agree` — both checkers infer the same type for an expression, and the findings of the
  milder one abridge those of the other.
* `Function.checkWith_abridges` — the findings in a function.
* `Function.check_congr` — the findings in a function depend on no body but its own.
* `check_sublist_checkStrictly` — leaving follow-ups out never accepts a program.
-/

namespace FrameScript

open Checker

/-! ## Abridged lists -/

/-- A list with parts of another left out, but not all of them. -/
structure Abridges {δ : Type} (found all : List δ) : Prop where
  /-- The parts that are left are in the same order. -/
  sublist : found.Sublist all
  /-- Something is left of a list that is not empty. -/
  eq_nil : found = [] → all = []

namespace Abridges

variable {δ ε α : Type} {found all found' all' : List δ}

theorem refl (found : List δ) : Abridges found found :=
  ⟨.refl _, id⟩

/-- Two lists that abridge each other are the same. -/
theorem antisymm (h : Abridges found all) (h' : Abridges all found) : found = all :=
  h.sublist.eq_of_length_le h'.sublist.length_le

theorem append (h : Abridges found all) (h' : Abridges found' all') :
    Abridges (found ++ found') (all ++ all') where
  sublist := h.sublist.append h'.sublist
  eq_nil hnil := by
    obtain ⟨hfound, hfound'⟩ := List.append_eq_nil_iff.mp hnil
    rw [h.eq_nil hfound, h'.eq_nil hfound', List.append_nil]

/-- What comes after a part of the list may be left out altogether, if that part is not empty. -/
theorem append_after (h : Abridges found all) (hsub : found'.Sublist all')
    (heq : found = [] → found' = all') : Abridges (found ++ found') (all ++ all') where
  sublist := h.sublist.append hsub
  eq_nil hnil := by
    obtain ⟨hfound, hfound'⟩ := List.append_eq_nil_iff.mp hnil
    rw [h.eq_nil hfound, ← heq hfound, hfound', List.append_nil]

theorem map (h : Abridges found all) (f : δ → ε) : Abridges (found.map f) (all.map f) where
  sublist := h.sublist.map f
  eq_nil hnil := by rw [h.eq_nil (List.map_eq_nil_iff.mp hnil), List.map_nil]

theorem flatMap {f g : α → List δ} (xs : List α) (hfg : ∀ x, Abridges (f x) (g x)) :
    Abridges (xs.flatMap f) (xs.flatMap g) := by
  induction xs with
  | nil => exact .refl _
  | cons x xs ih => exact (hfg x).append ih

end Abridges

/-- The same types, and findings that abridge the others. -/
structure Agree {α : Type} (x y : α × List Diagnostic) : Prop where
  /-- The types. -/
  ty : x.1 = y.1
  /-- The findings. -/
  found : Abridges x.2 y.2

/-! ## Programs with the same declarations -/

/-- Programs with the same declarations and signatures; the bodies of the functions may differ. -/
structure Program.DeclaresAs (p p' : Program) : Prop where
  /-- The package. -/
  package : p.package = p'.package
  /-- The struct types. -/
  structs : p.structs = p'.structs
  /-- The connectors. -/
  connectors : p.connectors = p'.connectors
  /-- The signatures of the callables, by their qualified names. -/
  sigs : Dict.mapValues Callable.sig p.units = Dict.mapValues Callable.sig p'.units

namespace Program.DeclaresAs

variable {p p' : Program}

theorem refl (p : Program) : p.DeclaresAs p :=
  ⟨rfl, rfl, rfl, rfl⟩

theorem symm (h : p.DeclaresAs p') : p'.DeclaresAs p :=
  ⟨h.package.symm, h.structs.symm, h.connectors.symm, h.sigs.symm⟩

/-- A name means callables of the same signature. -/
theorem sig (h : p.DeclaresAs p') (name : String) :
    (p.find? name).map (·.sig) = (p'.find? name).map (·.sig) := by
  have hunits (key : String) :
      (Dict.find? key p.units).map Callable.sig = (Dict.find? key p'.units).map Callable.sig := by
    rw [← Dict.find?_mapValues, h.sigs, Dict.find?_mapValues]
  unfold Program.find?
  rw [h.package]
  have hname := hunits name
  cases hfind : Dict.find? name p.units <;> cases hfind' : Dict.find? name p'.units <;>
    rw [hfind, hfind'] at hname <;> simp only [Option.map_none, Option.map_some, reduceCtorEq,
      Option.some.injEq] at hname ⊢
  · split
    · rfl
    · exact hunits _
  · exact hname

end Program.DeclaresAs

/-! ## Milder checkers -/

namespace Checker

/-- A checker that may leave out follow-ups where another reports them. -/
structure Milder (c c' : Checker) : Prop where
  /-- The types of the slots. -/
  slots : c.slots = c'.slots
  /-- What the programs declare. -/
  program : c.program.DeclaresAs c'.program
  /-- Follow-ups are reported by the other checker at least. -/
  followUps : c.followUps = true → c'.followUps = true

namespace Milder

variable {c c' : Checker}

section
variable (h : c.Milder c')
include h

theorem slotType (slot? : Option Nat) : c.slotType slot? = c'.slotType slot? := by
  unfold Checker.slotType
  rw [h.slots]

theorem struct? (name : String) : c.program.struct? name = c'.program.struct? name := by
  unfold Program.struct?
  rw [h.program.structs]

theorem connectorParams? (name : String) :
    c.program.connectorParams? name = c'.program.connectorParams? name := by
  unfold Program.connectorParams?
  rw [h.program.connectors]

theorem fieldType (base : Ty) (name : String) : c.fieldType base name = c'.fieldType base name := by
  unfold Checker.fieldType
  simp only [h.struct?, h.connectorParams?]

theorem compatibleAfter_sublist {found all : List Diagnostic} (hfound : Abridges found all)
    (expected ty : Ty) :
    (c.compatibleAfter found expected ty).Sublist (c'.compatibleAfter all expected ty) := by
  unfold compatibleAfter
  split
  next hreport =>
    simp only [Bool.or_eq_true, List.isEmpty_iff] at hreport
    have hreport' : (all.isEmpty || ty != .any || c'.followUps) = true := by
      simp only [Bool.or_eq_true, List.isEmpty_iff]
      exact hreport.imp (Or.imp_left hfound.eq_nil) h.followUps
    simp only [hreport', if_true, List.Sublist.refl]
  · exact List.nil_sublist _

omit h in
/-- Behind no finding, nothing is left out. -/
theorem compatibleAfter_eq {found all : List Diagnostic} (hfound : Abridges found all)
    (hnil : found = []) (expected ty : Ty) :
    c.compatibleAfter found expected ty = c'.compatibleAfter all expected ty := by
  simp [compatibleAfter, hfound.eq_nil hnil, hnil]

theorem expecting {x y : Ty × List Diagnostic} (hx : Agree x y) (expected : Ty) :
    Abridges (c.expecting expected x) (c'.expecting expected y) := by
  unfold Checker.expecting
  rw [← hx.ty]
  exact hx.found.append_after (h.compatibleAfter_sublist hx.found _ _)
    fun hnil => compatibleAfter_eq hx.found hnil _ _

theorem compatibleAll_sublist {found all : List Diagnostic} (hfound : Abridges found all)
    (expected tys : List Ty) :
    (c.compatibleAll found expected tys).Sublist (c'.compatibleAll all expected tys) := by
  induction expected generalizing tys with
  | nil => exact List.nil_sublist _
  | cons ty expected ih =>
    cases tys with
    | nil => exact List.nil_sublist _
    | cons ty' tys => exact (h.compatibleAfter_sublist hfound _ _).append (ih tys)

omit h in
theorem compatibleAll_eq {found all : List Diagnostic} (hfound : Abridges found all)
    (hnil : found = []) (expected tys : List Ty) :
    c.compatibleAll found expected tys = c'.compatibleAll all expected tys := by
  induction expected generalizing tys with
  | nil => rfl
  | cons ty expected ih =>
    cases tys with
    | nil => rfl
    | cons ty' tys =>
      rw [Checker.compatibleAll, Checker.compatibleAll, ih, compatibleAfter_eq hfound hnil]

theorem indexType {base base' key key' : Ty × List Diagnostic} (hbase : Agree base base')
    (hkey : Agree key key') : Agree (c.indexType base key) (c'.indexType base' key') := by
  unfold Checker.indexType
  rw [← hbase.ty]
  split
  · exact ⟨rfl, hbase.found.append (h.expecting hkey _)⟩
  · exact ⟨rfl, hbase.found.append (h.expecting hkey _)⟩
  · exact ⟨rfl, hbase.found.append hkey.found⟩
  · exact ⟨rfl, hbase.found.append hkey.found⟩
  · exact ⟨rfl, (hbase.found.append hkey.found).append (.refl _)⟩

theorem field {base base' : Ty × List Diagnostic} (hbase : Agree base base') (name : String) :
    Agree ((c.fieldType base.1 name).1, base.2 ++ (c.fieldType base.1 name).2)
      ((c'.fieldType base'.1 name).1, base'.2 ++ (c'.fieldType base'.1 name).2) := by
  rw [← hbase.ty, h.fieldType]
  exact ⟨rfl, hbase.found.append (.refl _)⟩

theorem argument {x y : Ty × List Diagnostic} (hx : Agree x y) (callee : String) (param : Ty) :
    Abridges (c.argument callee param x) (c'.argument callee param y) := by
  unfold Checker.argument
  rw [← hx.ty]
  split
  · exact hx.found.append (.refl _)
  · exact h.expecting hx param

theorem callTypes {each each' : List Diagnostic} {against against' : List Ty → List Diagnostic}
    (heach : Abridges each each') (hagainst : ∀ tys, Abridges (against tys) (against' tys))
    (callee : String) (args : Nat) :
    Agree (c.callTypes callee args each against) (c'.callTypes callee args each' against') := by
  have hsig := h.program.sig callee
  unfold Checker.callTypes
  cases hunit : c.program.find? callee <;> cases hunit' : c'.program.find? callee <;>
    simp only [hunit, hunit', Option.map_none, Option.map_some, Option.some.injEq,
      reduceCtorEq] at hsig
  · exact ⟨rfl, heach.append (.refl _)⟩
  · simp only [hsig]
    exact ⟨rfl, (Abridges.refl _).append (hagainst _)⟩

theorem actionTypes {target target' : Ty × List Diagnostic} {each each' : List Diagnostic}
    {against against' : String → List Ty → List Diagnostic} (htarget : Agree target target')
    (heach : Abridges each each')
    (hagainst : ∀ callee tys, Abridges (against callee tys) (against' callee tys))
    (action : String) (args : Nat) :
    Agree (c.actionTypes target action args each against)
      (c'.actionTypes target' action args each' against') := by
  unfold Checker.actionTypes
  rw [← htarget.ty]
  split
  next connector _ =>
    have hsig := h.program.sig (connector ++ "." ++ action)
    dsimp only
    cases hunit : c.program.find? (connector ++ "." ++ action) <;>
      cases hunit' : c'.program.find? (connector ++ "." ++ action) <;>
      simp only [hunit, hunit', Option.map_none, Option.map_some, Option.some.injEq,
        reduceCtorEq] at hsig
    · exact ⟨rfl, htarget.found.append (.refl _)⟩
    · simp only [hsig]
      exact ⟨rfl, htarget.found.append ((Abridges.refl _).append (hagainst _ _))⟩
  · exact ⟨rfl, htarget.found.append heach⟩
  · exact ⟨rfl, htarget.found.append (.refl _)⟩

theorem connectorArguments {against against' : List Ty → List Diagnostic}
    (hagainst : ∀ tys, Abridges (against tys) (against' tys)) (connector : String) (args : Nat) :
    Abridges (c.connectorArguments connector args against)
      (c'.connectorArguments connector args against') := by
  unfold Checker.connectorArguments
  rw [h.connectorParams?]
  split
  · exact .refl _
  · exact (Abridges.refl _).append (hagainst _)

end

theorem firstType {x y : List Ty × List Diagnostic} (hx : Agree x y) (callee : String) :
    Agree (firstType callee x) (firstType callee y) := by
  unfold Checker.firstType
  rw [← hx.ty]
  split
  · exact ⟨rfl, hx.found⟩
  · exact ⟨rfl, hx.found.append (.refl _)⟩

end Milder

end Checker

section Expressions

variable {c c' : Checker}

mutual

theorem Expr.infer_agree (h : c.Milder c') : ∀ e : Expr, Agree (e.infer c) (e.infer c')
  | .int _ | .float _ | .bool _ | .str _ | .null | .json _ | .xml _ => ⟨rfl, .refl _⟩
  | .var v => ⟨h.slotType v.slot?, .refl _⟩
  | .array elem items => ⟨rfl, inferItems_abridges h elem items⟩
  | .map entries => ⟨rfl, inferEntries_abridges h entries⟩
  | .struct name fields => by
    refine ⟨rfl, ?_⟩
    simp only [Expr.infer, h.struct?]
    split
    next decl _ => exact inferFields_abridges h decl fields
    · exact .refl _
  | .connector name args =>
    ⟨rfl, h.connectorArguments (fun tys => inferAgainst_abridges h tys args) name args.length⟩
  | .message payload => ⟨rfl, h.expecting (payload.infer_agree h) .string⟩
  | .index base key => h.indexType (base.infer_agree h) (key.infer_agree h)
  | .field base name => h.field (base.infer_agree h) name
  | .unary op operand => by
    have hoperand := operand.infer_agree h
    simp only [Expr.infer, ← hoperand.ty]
    exact ⟨rfl, hoperand.found.append (.refl _)⟩
  | .binary op left right => by
    have hleft := left.infer_agree h
    have hright := right.infer_agree h
    simp only [Expr.infer, ← hleft.ty, ← hright.ty]
    exact ⟨rfl, (hleft.found.append hright.found).append (.refl _)⟩
  | .cast operand target => by
    have hoperand := operand.infer_agree h
    refine ⟨rfl, ?_⟩
    simp only [Expr.infer]
    split
    · exact .refl _
    · exact hoperand.found
  | .call callee args _ =>
    Milder.firstType (h.callTypes (inferEach_abridges h args)
      (fun tys => inferArguments_abridges h callee tys args) callee args.length) callee
  | .action target name args _ =>
    Milder.firstType (h.actionTypes (target.infer_agree h) (inferEach_abridges h args)
      (fun callee tys => inferArguments_abridges h callee tys args) name args.length) actionName

theorem inferEach_abridges (h : c.Milder c') :
    ∀ es : List Expr, Abridges (inferEach c es) (inferEach c' es)
  | [] => .refl _
  | e :: es => (e.infer_agree h).found.append (inferEach_abridges h es)

theorem inferEntries_abridges (h : c.Milder c') :
    ∀ entries : List (String × Expr), Abridges (inferEntries c entries) (inferEntries c' entries)
  | [] => .refl _
  | (_, e) :: entries => (e.infer_agree h).found.append (inferEntries_abridges h entries)

theorem inferItems_abridges (h : c.Milder c') (elem : Ty) :
    ∀ es : List Expr, Abridges (inferItems c elem es) (inferItems c' elem es)
  | [] => .refl _
  | e :: es => (h.expecting (e.infer_agree h) elem).append (inferItems_abridges h elem es)

theorem inferFields_abridges (h : c.Milder c') (decl : StructDecl) :
    ∀ fields : List (String × Expr),
      Abridges (inferFields c decl fields) (inferFields c' decl fields)
  | [] => .refl _
  | (name, e) :: fields => by
    have he := e.infer_agree h
    refine .append ?_ (inferFields_abridges h decl fields)
    split
    next ty _ => exact h.expecting he ty
    · exact .refl _

theorem inferAgainst_abridges (h : c.Milder c') :
    ∀ (tys : List Ty) (es : List Expr), Abridges (inferAgainst c tys es) (inferAgainst c' tys es)
  | [], [] | _ :: _, [] | [], _ :: _ => .refl _
  | ty :: tys, e :: es => (h.expecting (e.infer_agree h) ty).append (inferAgainst_abridges h tys es)

theorem inferArguments_abridges (h : c.Milder c') (callee : String) :
    ∀ (tys : List Ty) (es : List Expr),
      Abridges (inferArguments c callee tys es) (inferArguments c' callee tys es)
  | [], [] | _ :: _, [] | [], _ :: _ => .refl _
  | ty :: tys, e :: es =>
    (h.argument (e.infer_agree h) callee ty).append (inferArguments_abridges h callee tys es)

end

theorem Expr.inferAll_agree (h : c.Milder c') (e : Expr) :
    Agree (e.inferAll c) (e.inferAll c') := by
  have he := e.infer_agree h
  cases e with
  | call callee args stage =>
    exact h.callTypes (inferEach_abridges h args)
      (fun tys => inferArguments_abridges h callee tys args) callee args.length
  | action target name args stage =>
    exact h.actionTypes (target.infer_agree h) (inferEach_abridges h args)
      (fun callee tys => inferArguments_abridges h callee tys args) name args.length
  | _ => exact ⟨congrArg (fun ty => [ty]) he.ty, he.found⟩

theorem Target.infer_agree (h : c.Milder c') (t : Target) : Agree (t.infer c) (t.infer c') := by
  cases t with
  | var v => exact ⟨h.slotType v.slot?, .refl _⟩
  | index base key => exact h.indexType (base.infer_agree h) (key.infer_agree h)
  | field base name => exact h.field (base.infer_agree h) name

theorem checkAll_abridges (h : c.Milder c') (mismatch : Nat → Nat → Diagnostic)
    (expected : List Ty) (value : Expr) :
    Abridges (checkAll c mismatch expected value) (checkAll c' mismatch expected value) := by
  have hvalue := value.inferAll_agree h
  simp only [checkAll, ← hvalue.ty]
  split
  · exact hvalue.found.append (.refl _)
  · exact hvalue.found.append_after (h.compatibleAll_sublist hvalue.found _ _)
      fun hnil => Milder.compatibleAll_eq hvalue.found hnil _ _

theorem checkAssign_abridges (h : c.Milder c') (targets : List Target) (value : Expr) :
    Abridges (checkAssign c targets value) (checkAssign c' targets value) := by
  have htys : (targets.map (·.infer c)).map (·.1) = (targets.map (·.infer c')).map (·.1) := by
    rw [List.map_map, List.map_map]
    exact List.map_congr_left fun t _ => (t.infer_agree h).ty
  have hfound : Abridges ((targets.map (·.infer c)).flatMap (·.2))
      ((targets.map (·.infer c')).flatMap (·.2)) := by
    rw [List.flatMap_map, List.flatMap_map]
    exact .flatMap targets fun t => (t.infer_agree h).found
  refine hfound.append ?_
  match targets, htys with
  | [], _ => exact checkAll_abridges h _ _ _
  | [target], _ =>
    simp only [List.map_cons, List.map_nil, ← (target.infer_agree h).ty]
    exact h.expecting (value.infer_agree h) _
  | t :: t' :: ts, htys =>
    change Abridges (checkAll c _ (((t :: t' :: ts).map (·.infer c)).map (·.1)) value)
      (checkAll c' _ (((t :: t' :: ts).map (·.infer c')).map (·.1)) value)
    rw [← htys]
    exact checkAll_abridges h _ _ _

theorem checkResult_abridges (h : c.Milder c') (returns : List Ty) (values : List Expr) :
    Abridges (checkResult c returns values) (checkResult c' returns values) := by
  unfold checkResult
  split
  · exact checkAll_abridges h _ _ _
  · split
    · exact .refl _
    · exact inferAgainst_abridges h _ _

mutual

theorem Stmt.check_abridges (h : c.Milder c') (returns : List Ty) (inLoop : Bool) :
    ∀ st : Stmt, Abridges (st.check c returns inLoop) (st.check c' returns inLoop)
  | .define _ ty (some init) _ => h.expecting (init.infer_agree h) ty
  | .define _ _ none _ | .leave | .next => .refl _
  | .assign targets value => checkAssign_abridges h targets value
  | .branch cond yes no =>
    (h.expecting (cond.infer_agree h) .boolean).append
      ((checkBlock_abridges h returns inLoop yes).append (checkBlock_abridges h returns inLoop no))
  | .loop cond body =>
    (h.expecting (cond.infer_agree h) .boolean).append (checkBlock_abridges h returns true body)
  | .result values => checkResult_abridges h returns values
  | .run e => (e.inferAll_agree h).found
  | .block body => checkBlock_abridges h returns inLoop body

theorem checkBlock_abridges (h : c.Milder c') (returns : List Ty) (inLoop : Bool) :
    ∀ ss : List Stmt, Abridges (checkBlock c returns inLoop ss) (checkBlock c' returns inLoop ss)
  | [] => .refl _
  | s :: ss => (s.check_abridges h returns inLoop).append (checkBlock_abridges h returns inLoop ss)

end

end Expressions

/-- The findings in a function. -/
theorem Function.checkWith_abridges {p p' : Program} (h : p.DeclaresAs p') (f : Function)
    {followUps followUps' : Bool} (hfollow : followUps = true → followUps' = true) :
    Abridges (f.checkWith p followUps) (f.checkWith p' followUps') := by
  have hmild : (Checker.ofFunction p f followUps).Milder (.ofFunction p' f followUps') :=
    ⟨rfl, h, hfollow⟩
  exact (checkBlock_abridges hmild f.sig.returns false f.body).map _

/-- **The findings in a function** depend on the declarations and signatures of the program only,
not on the bodies of its other functions. -/
theorem Function.check_congr {p p' : Program} (h : p.DeclaresAs p') (f : Function) :
    f.check p = f.check p' :=
  (f.checkWith_abridges h id).antisymm (f.checkWith_abridges h.symm id)

/-! ## The strict checker -/

/-- The findings in all functions, uses of an `any` that stems from another finding included. -/
def Program.checkStrictly (p : Program) : List SemanticError :=
  p.functions.flatMap (·.checkWith p true)

/-- **Leaving follow-ups out** never accepts a program: what is found is a subsequence of what the
strict checker finds, both accept the same programs, and both infer the same types for the
expressions of every function, be it for one value or for all of them.

**Proof sketch.** By induction on expressions and on statements: the types are equal, and the
findings of the milder checker abridge those of the strict one. A use is left out only behind a
finding in the value that is used, so no list of findings becomes empty. -/
theorem check_sublist_checkStrictly (p : Program) :
    p.check.Sublist p.checkStrictly ∧ (p.check = [] ↔ p.checkStrictly = []) ∧
      ∀ (f : Function) (e : Expr),
        (e.infer (.ofFunction p f false)).1 = (e.infer (.ofFunction p f true)).1 ∧
        (e.inferAll (.ofFunction p f false)).1 = (e.inferAll (.ofFunction p f true)).1 := by
  have habridges : Abridges p.check p.checkStrictly :=
    .flatMap p.functions fun f => f.checkWith_abridges (.refl p) nofun
  refine ⟨habridges.sublist, ⟨habridges.eq_nil, fun hnil => ?_⟩, fun f e => ?_⟩
  · exact List.sublist_nil.mp (hnil ▸ habridges.sublist)
  · have hmild : (Checker.ofFunction p f false).Milder (.ofFunction p f true) :=
      ⟨rfl, .refl p, nofun⟩
    exact ⟨(e.infer_agree hmild).ty, (e.inferAll_agree hmild).ty⟩

/-- The `any` that a call of an unknown callable leaves is reported by the strict checker only. -/
example :
    let st : Stmt := .define "x" .int (some (.call "nope" [] 0)) (some 0)
    let mild : Checker := { program := {}, slots := [.int] }
    st.check mild [] false = [.undefinedFunction "nope"] ∧
      st.check { mild with followUps := true } [] false =
        [.undefinedFunction "nope", .incompatible .int .any] := by
  decide

end FrameScript
