import FrameScript.Proofs.FollowUps
import FrameScript.Proofs.Linking

set_option autoImplicit false

/-!
# Checking with a state

The analysis of a program as one pass that threads a list of errors, the name of the function at
hand and the depth of loops through all expressions, statements and functions. Whether a part is
clean is read off the length of the list, and whether a jump is inside a loop off the depth. Shown
is that the state makes no difference: what a part adds is what is found in the part alone.

## Main definitions

* `Inspection`, `Inspecting` — the state, and computations with it.
* `Expr.inspect`, `Stmt.inspect`, `Function.inspect`, `Program.inspect` — the analysis as a pass.
* `Inspecting.findings` — what a pass finds that is begun afresh.
* `Reports` — a part has a result and adds findings, whatever was before.

## Main results

* `Expr.inspect_reports`, `Stmt.inspect_reports` — parts of a pass report what the analysis without
  a state returns.
* `Function.run_inspect` — a pass over a function.
* `checking_compositional` — a pass over a program finds what passes over its functions find.
-/

namespace FrameScript

/-! ## The state -/

/-- The state of an inspection. -/
structure Inspection where
  /-- What has been found so far, in all functions. -/
  errors : List SemanticError := []
  /-- The name of the function at hand. -/
  function : String := ""
  /-- How many loops the statement at hand is inside of. -/
  loops : Nat := 0

/-- Inspections as computations. -/
abbrev Inspecting : Type → Type := StateM Inspection

namespace Inspecting

variable {α : Type}

/-! ## Steps -/

/-- Adds a finding on the function at hand. -/
def report (d : Diagnostic) : Inspecting Unit :=
  modify fun s => { s with errors := s.errors ++ [⟨s.function, d⟩] }

/-- Adds a finding unless something holds. -/
def require (holds : Bool) (d : Diagnostic) : Inspecting Unit :=
  if holds then pure () else report d

/-- Whether a part of the inspection added nothing, besides its result. -/
def tracked (x : Inspecting α) : Inspecting (α × Bool) := do
  let before := (← get).errors.length
  let a ← x
  let after := (← get).errors.length
  return (a, after == before)

/-- A value of type `found` is to be stored in a place of type `expected`. -/
def compatible (expected found : Ty) : Inspecting Unit :=
  if found.isNullLiteral && expected.isValueType then report (.nullToValue expected)
  else if found == .any then
    if expected.isValueType then report (.incompatible expected .any) else pure ()
  else require (expected.accepts found) (.incompatible expected found)

/-- The same, unless the value is an `any` whose own inspection was not clean. -/
def compatibleAfter (c : Checker) (expected found : Ty) (clean : Bool) : Inspecting Unit :=
  if clean || found != .any || c.followUps then compatible expected found else pure ()

/-- A value is to be stored in a place of type `expected`. -/
def expect (c : Checker) (expected : Ty) (value : Inspecting Ty) : Inspecting Unit := do
  let (found, clean) ← tracked value
  compatibleAfter c expected found clean

/-- Values are to be stored in places, one by one. -/
def compatibleAll (c : Checker) (clean : Bool) : List Ty → List Ty → Inspecting Unit
  | expected :: es, found :: fs => do
    compatibleAfter c expected found clean
    compatibleAll c clean es fs
  | _, _ => pure ()

/-- A unary operator is applied to a value. -/
def unary (op : UnaryOp) (ty : Ty) : Inspecting Ty :=
  if ty.isNullLiteral then do
    report (.nullOperand op.symbol)
    pure .any
  else match op with
    | .not => pure .boolean
    | .neg => pure ty

/-- A value is an operand of a logical operator. -/
def logicalOperand (ty : Ty) : Inspecting Unit :=
  if ty == .any then pure () else compatible .boolean ty

/-- A binary operator is applied to two values. -/
def binary (op : BinaryOp) (l r : Ty) : Inspecting Ty :=
  if op.isEquality then do
    require (l.comparableWith r) (.operands l r)
    pure .boolean
  else if op.isLogical then do
    if l.isNullLiteral || r.isNullLiteral then report (.operands l r)
    else do
      logicalOperand l
      logicalOperand r
    pure .boolean
  else if l.isNullLiteral || r.isNullLiteral then do
    report (.nullOperand op.symbol)
    pure (if op.isOrdering then .boolean else .any)
  else if op.isOrdering then do
    require (Checker.ordered l r) (.operands l r)
    pure .boolean
  else if l == .any || r == .any then pure .any
  else if op == .add && (l == .string || r == .string) then pure .string
  else if l == .int && r == .int then pure .int
  else if l.isNumeric && r.isNumeric then pure .float
  else do
    report (.operands l r)
    pure .any

/-- An element is taken from a container. -/
def index (c : Checker) (base key : Inspecting Ty) : Inspecting Ty := do
  match ← base with
  | .ref (.array elem) => do
    expect c .int key
    pure elem
  | .ref .map => do
    expect c .string key
    pure .any
  | .ref .json => do
    let _ ← key
    pure (.ref .json)
  | .any => do
    let _ ← key
    pure .any
  | other => do
    let _ ← key
    report (.notIndexable other)
    pure .any

/-- A field is taken from a value. -/
def field (c : Checker) (base : Inspecting Ty) (name : String) : Inspecting Ty := do
  match ← base with
  | .ref (.struct struct) =>
    match c.program.struct? struct with
    | none => pure .any
    | some decl =>
      match decl.fieldType? name with
      | some ty => pure ty
      | none => do
        report (.unknownStructField name struct)
        pure .any
  | .ref (.connector connector) =>
    match ((c.program.connectorParams? connector).getD []).find? (·.name == name) with
    | some p => pure p.ty
    | none => do
      report (.unknownConnectorField name connector)
      pure .any
  | .ref .json => pure (.ref .json)
  | .any => pure .any
  | other => do
    report (.noField other name)
    pure .any

/-- An argument is handed over for a parameter. -/
def argument (c : Checker) (callee : String) (param : Ty) (value : Inspecting Ty) :
    Inspecting Unit := do
  let (found, clean) ← tracked value
  if found.isNullLiteral && param.isValueType then report (.undefinedFunction callee)
  else compatibleAfter c param found clean

/-- A named callable is called. -/
def call (c : Checker) (callee : String) (args : Nat) (each : Inspecting Unit)
    (against : List Ty → Inspecting Unit) : Inspecting (List Ty) :=
  match c.program.find? callee with
  | none => do
    each
    report (.undefinedFunction callee)
    pure [.any]
  | some unit => do
    let params := unit.sig.paramTypes
    require (params.length == args) (.argumentCount callee params.length args)
    against params
    pure unit.sig.returns

/-- An action of a value is called. -/
def action (c : Checker) (target : Inspecting Ty) (action : String) (args : Nat)
    (each : Inspecting Unit) (against : String → List Ty → Inspecting Unit) :
    Inspecting (List Ty) := do
  match ← target with
  | .ref (.connector connector) =>
    let callee := connector ++ "." ++ action
    match c.program.find? callee with
    | none => do
      report (.undefinedFunction callee)
      pure [.any]
    | some unit => do
      let params := unit.sig.paramTypes.drop 1
      require (params.length == args) (.argumentCount callee params.length args)
      against callee params
      pure unit.sig.returns
  | .any => do
    each
    pure [.any]
  | other => do
    report (.notConnector action other)
    pure [.any]

/-- A call is used for its first result. -/
def first (callee : String) (results : Inspecting (List Ty)) : Inspecting Ty := do
  match ← results with
  | ty :: _ => pure ty
  | [] => do
    report (.noValue callee)
    pure .any

/-- A connector is built from values. -/
def connector (c : Checker) (name : String) (args : Nat) (against : List Ty → Inspecting Unit) :
    Inspecting Unit :=
  match c.program.connectorParams? name with
  | none => report (.undefinedConnector name)
  | some params => do
    require (params.length == args) (.connectorArgumentCount name params.length args)
    against (params.map (·.ty))

end Inspecting

open Inspecting

/-! ## Expressions -/

mutual

/-- Inspects an expression and infers its type. -/
def Expr.inspect (c : Checker) : Expr → Inspecting Ty
  | .int _ => pure .int
  | .float _ => pure .float
  | .bool _ => pure .boolean
  | .str _ => pure .string
  | .null => pure (.ref .null)
  | .json _ => pure (.ref .json)
  | .xml _ => pure (.ref .xml)
  | .var v => pure (c.slotType v.slot?)
  | .array elem items => do
    inspectItems c elem items
    pure (.arrayOf elem)
  | .map entries => do
    inspectEntries c entries
    pure (.ref .map)
  | .struct name fields => do
    match c.program.struct? name with
    | some decl => inspectFields c decl fields
    | none => report (.undefinedStruct name)
    pure (.ref (.struct name))
  | .connector name args => do
    Inspecting.connector c name args.length fun params => inspectAgainst c params args
    pure (.ref (.connector name))
  | .message payload => do
    expect c .string (payload.inspect c)
    pure (.ref .message)
  | .index base key => Inspecting.index c (base.inspect c) (key.inspect c)
  | .field base name => Inspecting.field c (base.inspect c) name
  | .unary op operand => do
    let ty ← operand.inspect c
    Inspecting.unary op ty
  | .binary op left right => do
    let l ← left.inspect c
    let r ← right.inspect c
    Inspecting.binary op l r
  | .cast operand target => do
    match operand with
    | .null => report (.nullCast target)
    | _ => let _ ← operand.inspect c
    pure target
  | .call callee args _ =>
    first callee (Inspecting.call c callee args.length (inspectEach c args) fun params =>
      inspectArguments c callee params args)
  | .action target name args _ =>
    first Checker.actionName (Inspecting.action c (target.inspect c) name args.length
      (inspectEach c args) fun callee params => inspectArguments c callee params args)

/-- Inspects expressions one by one. -/
def inspectEach (c : Checker) : List Expr → Inspecting Unit
  | [] => pure ()
  | e :: es => do
    let _ ← e.inspect c
    inspectEach c es

/-- Inspects the entries of a map. -/
def inspectEntries (c : Checker) : List (String × Expr) → Inspecting Unit
  | [] => pure ()
  | (_, e) :: entries => do
    let _ ← e.inspect c
    inspectEntries c entries

/-- Inspects the elements of an array. -/
def inspectItems (c : Checker) (elem : Ty) : List Expr → Inspecting Unit
  | [] => pure ()
  | e :: es => do
    expect c elem (e.inspect c)
    inspectItems c elem es

/-- Inspects the fields of a struct. -/
def inspectFields (c : Checker) (decl : StructDecl) : List (String × Expr) → Inspecting Unit
  | [] => pure ()
  | (name, e) :: fields => do
    match decl.fieldType? name with
    | some ty => expect c ty (e.inspect c)
    | none => report (.unknownStructField name decl.name)
    inspectFields c decl fields

/-- Inspects values for places of declared types, as far as both go. -/
def inspectAgainst (c : Checker) : List Ty → List Expr → Inspecting Unit
  | _, [] => pure ()
  | [], _ :: _ => pure ()
  | ty :: tys, e :: es => do
    expect c ty (e.inspect c)
    inspectAgainst c tys es

/-- Inspects arguments for parameters, as far as both go. -/
def inspectArguments (c : Checker) (callee : String) : List Ty → List Expr → Inspecting Unit
  | _, [] => pure ()
  | [], _ :: _ => pure ()
  | ty :: tys, e :: es => do
    argument c callee ty (e.inspect c)
    inspectArguments c callee tys es

end

/-- Inspects an expression and infers the types of all its values. -/
def Expr.inspectAll (c : Checker) : Expr → Inspecting (List Ty)
  | .call callee args _ =>
    Inspecting.call c callee args.length (inspectEach c args) fun params =>
      inspectArguments c callee params args
  | .action target name args _ =>
    Inspecting.action c (target.inspect c) name args.length (inspectEach c args)
      fun callee params => inspectArguments c callee params args
  | e => do
    let ty ← e.inspect c
    pure [ty]

/-! ## Statements -/

/-- Inspects a target and infers the type of the place it stands for. -/
def Target.inspect (c : Checker) : Target → Inspecting Ty
  | .var v => pure (c.slotType v.slot?)
  | .index base key => Inspecting.index c (base.inspect c) (key.inspect c)
  | .field base name => Inspecting.field c (base.inspect c) name

/-- Inspects targets one by one. -/
def inspectTargets (c : Checker) : List Target → Inspecting (List Ty)
  | [] => pure []
  | target :: targets => do
    let ty ← target.inspect c
    let tys ← inspectTargets c targets
    pure (ty :: tys)

/-- Inspects an expression that stands for several values. -/
def inspectAll (c : Checker) (mismatch : Nat → Nat → Diagnostic) (expected : List Ty)
    (value : Expr) : Inspecting Unit := do
  let (found, clean) ← tracked (value.inspectAll c)
  if found.length != expected.length then report (mismatch expected.length found.length)
  else compatibleAll c clean expected found

/-- Inspects an assignment. -/
def inspectAssign (c : Checker) (targets : List Target) (value : Expr) : Inspecting Unit := do
  match ← inspectTargets c targets with
  | [ty] => expect c ty (value.inspect c)
  | tys => inspectAll c .assignmentCount tys value

/-- Inspects the values of a result. -/
def inspectResult (c : Checker) (returns : List Ty) (values : List Expr) : Inspecting Unit :=
  match values, returns with
  | [single], _ :: _ :: _ => inspectAll c .returnCount returns single
  | values, returns =>
    if values.length != returns.length then report (.returnCount returns.length values.length)
    else inspectAgainst c returns values

/-- Inspects a jump, which has to be inside a loop. -/
def inspectJump : Inspecting Unit := do
  let s ← get
  require (s.loops != 0) .strayJump

mutual

/-- Inspects a statement of a function with the given results. -/
def Stmt.inspect (c : Checker) (returns : List Ty) : Stmt → Inspecting Unit
  | .define _ ty init? _ =>
    match init? with
    | some init => expect c ty (init.inspect c)
    | none => pure ()
  | .assign targets value => inspectAssign c targets value
  | .branch cond yes no => do
    expect c .boolean (cond.inspect c)
    inspectBlock c returns yes
    inspectBlock c returns no
  | .loop cond body => do
    expect c .boolean (cond.inspect c)
    modify fun s => { s with loops := s.loops + 1 }
    inspectBlock c returns body
    modify fun s => { s with loops := s.loops - 1 }
  | .leave | .next => inspectJump
  | .result values => inspectResult c returns values
  | .run e => do
    let _ ← e.inspectAll c
  | .block body => inspectBlock c returns body

/-- Inspects the statements of a block. -/
def inspectBlock (c : Checker) (returns : List Ty) : List Stmt → Inspecting Unit
  | [] => pure ()
  | s :: ss => do
    s.inspect c returns
    inspectBlock c returns ss

end

/-! ## Functions and programs -/

/-- Inspects a function. -/
def Function.inspect (p : Program) (f : Function) : Inspecting Unit := do
  modify fun s => { s with function := f.sig.name, loops := 0 }
  inspectBlock (.ofFunction p f false) f.sig.returns f.body

/-- Inspects a callable; native units have no body. -/
def Callable.inspect (p : Program) : Callable → Inspecting Unit
  | .function f => f.inspect p
  | .native _ => pure ()

/-- Inspects callables one by one. -/
def inspectCallables (p : Program) : List (String × Callable) → Inspecting Unit
  | [] => pure ()
  | (_, unit) :: units => do
    unit.inspect p
    inspectCallables p units

/-- Inspects all callables of a program, in ascending order of their qualified names. -/
def Program.inspect (p : Program) : Inspecting Unit :=
  inspectCallables p p.callables

/-- What is found by an inspection that is begun afresh. -/
def Inspecting.findings (x : Inspecting Unit) : List SemanticError :=
  (x.run {}).2.errors

/-! ## What the steps report -/

/-- The inspection with further findings on the function at hand. -/
def Inspection.add (s : Inspection) (found : List Diagnostic) : Inspection :=
  { s with errors := s.errors ++ found.map (⟨s.function, ·⟩) }

@[simp]
theorem Inspection.add_nil (s : Inspection) : s.add [] = s := by
  simp [add]

@[simp]
theorem Inspection.add_add (s : Inspection) (found more : List Diagnostic) :
    (s.add found).add more = s.add (found ++ more) := by
  simp [add]

/-- A part of an inspection that has a result and adds findings, whatever was before. -/
def Reports {α : Type} (x : Inspecting α) (out : α × List Diagnostic) : Prop :=
  ∀ s, x.run s = (out.1, s.add out.2)

namespace Reports

open Checker

variable {α β : Type} {x : Inspecting α} {a : α} {found : List Diagnostic} {c : Checker}

theorem pure (a : α) : Reports (pure a) (a, []) := by
  intro s
  rw [Inspection.add_nil]
  rfl

theorem bind {k : α → Inspecting β} {b : β} {more : List Diagnostic} (hx : Reports x (a, found))
    (hk : Reports (k a) (b, more)) : Reports (x >>= k) (b, found ++ more) := by
  intro s
  change (k (x.run s).1).run (x.run s).2 = _
  rw [hx s, hk, Inspection.add_add]

/-- What follows makes no use of the result. -/
theorem andThen {x : Inspecting α} {y : Inspecting β} {b : β} {more : List Diagnostic}
    (hx : Reports x (a, found)) (hy : Reports y (b, more)) :
    Reports (x >>= fun _ => y) (b, found ++ more) :=
  hx.bind hy

/-- What follows adds nothing. -/
theorem map {k : α → Inspecting β} {b : β} (hx : Reports x (a, found)) (hk : k a = Pure.pure b) :
    Reports (x >>= k) (b, found) := by
  have h : Reports (k a) (b, []) := hk ▸ .pure b
  simpa using hx.bind h

theorem report (d : Diagnostic) : Reports (report d) ((), [d]) := fun _ => rfl

theorem require (holds : Bool) (d : Diagnostic) :
    Reports (require holds d) ((), if holds then [] else [d]) := by
  cases holds with
  | true => exact .pure ()
  | false => exact .report d

/-- What a part adds shows in the number of errors. -/
theorem tracked (hx : Reports x (a, found)) :
    Reports (tracked x) ((a, found.isEmpty), found) := by
  intro s
  change (((x.run s).1, (x.run s).2.errors.length == s.errors.length), (x.run s).2) = _
  rw [hx s]
  cases found <;> simp [Inspection.add]

/-! ### Places of declared types -/

theorem compatible (expected found : Ty) :
    Reports (Inspecting.compatible expected found) ((), Checker.compatible expected found) := by
  unfold Inspecting.compatible Checker.compatible
  split
  · exact .report _
  · split
    · split
      · exact .report _
      · exact .pure ()
    · exact .require _ _

theorem compatibleAfter (c : Checker) (found : List Diagnostic) (expected ty : Ty) :
    Reports (Inspecting.compatibleAfter c expected ty found.isEmpty)
      ((), c.compatibleAfter found expected ty) := by
  unfold Inspecting.compatibleAfter Checker.compatibleAfter
  split
  · exact .compatible _ _
  · exact .pure ()

theorem expect {x : Inspecting Ty} {out : Ty × List Diagnostic} (hx : Reports x out)
    (expected : Ty) : Reports (expect c expected x) ((), c.expecting expected out) :=
  hx.tracked.bind (.compatibleAfter c _ _ _)

theorem compatibleAll (c : Checker) (found : List Diagnostic) (expected tys : List Ty) :
    Reports (Inspecting.compatibleAll c found.isEmpty expected tys)
      ((), c.compatibleAll found expected tys) := by
  induction expected generalizing tys with
  | nil => exact .pure ()
  | cons ty expected ih =>
    cases tys with
    | nil => exact .pure ()
    | cons ty' tys => exact (Reports.compatibleAfter c found ty ty').bind (ih tys)

/-! ### Operators -/

theorem unary (op : UnaryOp) (ty : Ty) : Reports (Inspecting.unary op ty) (unaryType op ty) := by
  unfold Inspecting.unary unaryType
  split
  · exact (Reports.report _).map rfl
  · cases op <;> exact .pure _

theorem logicalOperand (ty : Ty) :
    Reports (Inspecting.logicalOperand ty) ((), Checker.logicalOperand ty) := by
  unfold Inspecting.logicalOperand Checker.logicalOperand
  split
  · exact .pure ()
  · exact .compatible _ _

theorem binary (op : BinaryOp) (l r : Ty) :
    Reports (Inspecting.binary op l r) (binaryType op l r) := by
  unfold Inspecting.binary binaryType
  split
  · exact (Reports.require _ _).map rfl
  split
  · split
    · exact (Reports.report _).map rfl
    · exact (Reports.logicalOperand l).andThen ((Reports.logicalOperand r).map rfl)
  split
  · exact (Reports.report _).map rfl
  split
  · exact (Reports.require _ _).map rfl
  unfold arithmeticType
  repeat' split
  all_goals first
    | exact .pure _
    | exact (Reports.report _).map rfl

/-! ### Elements and fields -/

theorem assoc {fs gs hs : List Diagnostic} (h : Reports x (a, fs ++ (gs ++ hs))) :
    Reports x (a, fs ++ gs ++ hs) := by
  rwa [List.append_assoc]

theorem index {base key : Inspecting Ty} {baseOut keyOut : Ty × List Diagnostic}
    (hbase : Reports base baseOut) (hkey : Reports key keyOut) :
    Reports (Inspecting.index c base key) (c.indexType baseOut keyOut) := by
  obtain ⟨ty, found⟩ := baseOut
  cases ty with
  | any => exact hbase.bind (hkey.map rfl)
  | ref r =>
    cases r with
    | array elem => exact hbase.bind ((hkey.expect .int).map rfl)
    | map => exact hbase.bind ((hkey.expect .string).map rfl)
    | json => exact hbase.bind (hkey.map rfl)
    | _ => exact assoc (hbase.bind (hkey.bind ((Reports.report _).map rfl)))
  | _ => exact assoc (hbase.bind (hkey.bind ((Reports.report _).map rfl)))

theorem field {base : Inspecting Ty} {out : Ty × List Diagnostic} (hbase : Reports base out)
    (name : String) : Reports (Inspecting.field c base name)
      ((c.fieldType out.1 name).1, out.2 ++ (c.fieldType out.1 name).2) := by
  obtain ⟨ty, found⟩ := out
  refine hbase.bind ?_
  cases ty with
  | any => exact .pure _
  | ref r =>
    cases r with
    | struct struct =>
      simp only [fieldType]
      cases c.program.struct? struct with
      | none => exact .pure _
      | some decl =>
        dsimp only
        cases decl.fieldType? name with
        | some ty => exact .pure _
        | none => exact (Reports.report _).map rfl
    | connector connector =>
      simp only [fieldType]
      cases ((c.program.connectorParams? connector).getD []).find? (·.name == name) with
      | some param => exact .pure _
      | none => exact (Reports.report _).map rfl
    | json => exact .pure _
    | _ => exact (Reports.report _).map rfl
  | _ => exact (Reports.report _).map rfl

/-! ### Calls -/

theorem argument {x : Inspecting Ty} {out : Ty × List Diagnostic} (hx : Reports x out)
    (callee : String) (param : Ty) :
    Reports (argument c callee param x) ((), c.argument callee param out) := by
  unfold Inspecting.argument Checker.argument
  split
  next h =>
    refine hx.tracked.bind ?_
    dsimp only
    rw [if_pos h]
    exact .report _
  next h =>
    refine hx.tracked.bind ?_
    dsimp only
    rw [if_neg h]
    exact .compatibleAfter c _ _ _

theorem call {each : Inspecting Unit} {eachFound : List Diagnostic}
    {against : List Ty → Inspecting Unit} {againstFound : List Ty → List Diagnostic}
    (heach : Reports each ((), eachFound))
    (hagainst : ∀ tys, Reports (against tys) ((), againstFound tys))
    (callee : String) (args : Nat) :
    Reports (Inspecting.call c callee args each against)
      (c.callTypes callee args eachFound againstFound) := by
  unfold Inspecting.call callTypes
  cases c.program.find? callee with
  | none => exact heach.andThen ((Reports.report _).map rfl)
  | some unit => exact (Reports.require _ _).andThen ((hagainst _).map rfl)

theorem action {target : Inspecting Ty} {out : Ty × List Diagnostic} {each : Inspecting Unit}
    {eachFound : List Diagnostic} {against : String → List Ty → Inspecting Unit}
    {againstFound : String → List Ty → List Diagnostic} (htarget : Reports target out)
    (heach : Reports each ((), eachFound))
    (hagainst : ∀ callee tys, Reports (against callee tys) ((), againstFound callee tys))
    (name : String) (args : Nat) :
    Reports (action c target name args each against)
      (c.actionTypes out name args eachFound againstFound) := by
  obtain ⟨ty, found⟩ := out
  cases ty with
  | any => exact htarget.bind (heach.map rfl)
  | ref r =>
    cases r with
    | connector connector =>
      cases hunit : c.program.find? (connector ++ "." ++ name) with
      | none =>
        simp only [actionTypes, hunit]
        refine htarget.bind ?_
        simp only [hunit]
        exact (Reports.report _).map rfl
      | some unit =>
        simp only [actionTypes, hunit]
        refine htarget.bind ?_
        simp only [hunit]
        exact (Reports.require _ _).andThen ((hagainst _ _).map rfl)
    | _ => exact htarget.bind ((Reports.report _).map rfl)
  | _ => exact htarget.bind ((Reports.report _).map rfl)

theorem first {results : Inspecting (List Ty)} {out : List Ty × List Diagnostic}
    (hresults : Reports results out) (callee : String) :
    Reports (first callee results) (firstType callee out) := by
  obtain ⟨tys, found⟩ := out
  cases tys with
  | nil => exact hresults.bind ((Reports.report _).map rfl)
  | cons ty tys => exact hresults.map rfl

theorem connector {against : List Ty → Inspecting Unit} {againstFound : List Ty → List Diagnostic}
    (hagainst : ∀ tys, Reports (against tys) ((), againstFound tys)) (name : String) (args : Nat) :
    Reports (connector c name args against)
      ((), c.connectorArguments name args againstFound) := by
  unfold Inspecting.connector connectorArguments
  cases c.program.connectorParams? name with
  | none => exact .report _
  | some params => exact (Reports.require _ _).andThen (hagainst _)

end Reports

/-! ## What expressions report -/

mutual

/-- The inspection of an expression infers its type and adds the findings in it. -/
theorem Expr.inspect_reports (c : Checker) : ∀ e : Expr, Reports (e.inspect c) (e.infer c)
  | .int _ | .float _ | .bool _ | .str _ | .null | .json _ | .xml _ | .var _ => .pure _
  | .array elem items => (inspectItems_reports c elem items).map rfl
  | .map entries => (inspectEntries_reports c entries).map rfl
  | .struct name fields => by
    have hfields (decl : StructDecl) := inspectFields_reports c decl fields
    simp only [Expr.inspect, Expr.infer]
    cases c.program.struct? name with
    | none => exact (Reports.report _).map rfl
    | some decl => exact (hfields decl).map rfl
  | .connector name args =>
    (Reports.connector (fun tys => inspectAgainst_reports c tys args) name args.length).map rfl
  | .message payload => ((payload.inspect_reports c).expect .string).map rfl
  | .index base key => .index (base.inspect_reports c) (key.inspect_reports c)
  | .field base name => .field (base.inspect_reports c) name
  | .unary op operand => (operand.inspect_reports c).bind (.unary op _)
  | .binary op left right =>
    .assoc ((left.inspect_reports c).bind ((right.inspect_reports c).bind (.binary op _ _)))
  | .cast operand target => by
    have hoperand := operand.inspect_reports c
    cases operand with
    | null => exact (Reports.report _).map rfl
    | _ => exact hoperand.map rfl
  | .call callee args _ =>
    .first (.call (inspectEach_reports c args)
      (fun tys => inspectArguments_reports c callee tys args) callee args.length) callee
  | .action target name args _ =>
    .first (.action (target.inspect_reports c) (inspectEach_reports c args)
      (fun callee tys => inspectArguments_reports c callee tys args) name args.length)
      Checker.actionName

theorem inspectEach_reports (c : Checker) :
    ∀ es : List Expr, Reports (inspectEach c es) ((), inferEach c es)
  | [] => .pure ()
  | e :: es => (e.inspect_reports c).bind (inspectEach_reports c es)

theorem inspectEntries_reports (c : Checker) :
    ∀ entries : List (String × Expr),
      Reports (inspectEntries c entries) ((), inferEntries c entries)
  | [] => .pure ()
  | (_, e) :: entries => (e.inspect_reports c).bind (inspectEntries_reports c entries)

theorem inspectItems_reports (c : Checker) (elem : Ty) :
    ∀ es : List Expr, Reports (inspectItems c elem es) ((), inferItems c elem es)
  | [] => .pure ()
  | e :: es => ((e.inspect_reports c).expect elem).bind (inspectItems_reports c elem es)

theorem inspectFields_reports (c : Checker) (decl : StructDecl) :
    ∀ fields : List (String × Expr),
      Reports (inspectFields c decl fields) ((), inferFields c decl fields)
  | [] => .pure ()
  | (name, e) :: fields => by
    have he := e.inspect_reports c
    have hrest := inspectFields_reports c decl fields
    simp only [inspectFields, inferFields]
    cases decl.fieldType? name with
    | none => exact (Reports.report _).andThen hrest
    | some ty => exact (he.expect ty).andThen hrest

theorem inspectAgainst_reports (c : Checker) :
    ∀ (tys : List Ty) (es : List Expr),
      Reports (inspectAgainst c tys es) ((), inferAgainst c tys es)
  | [], [] | _ :: _, [] | [], _ :: _ => .pure ()
  | ty :: tys, e :: es =>
    ((e.inspect_reports c).expect ty).bind (inspectAgainst_reports c tys es)

theorem inspectArguments_reports (c : Checker) (callee : String) :
    ∀ (tys : List Ty) (es : List Expr),
      Reports (inspectArguments c callee tys es) ((), inferArguments c callee tys es)
  | [], [] | _ :: _, [] | [], _ :: _ => .pure ()
  | ty :: tys, e :: es =>
    ((e.inspect_reports c).argument callee ty).bind (inspectArguments_reports c callee tys es)

end

theorem Expr.inspectAll_reports (c : Checker) (e : Expr) :
    Reports (e.inspectAll c) (e.inferAll c) := by
  have he := e.inspect_reports c
  cases e with
  | call callee args stage =>
    exact .call (inspectEach_reports c args)
      (fun tys => inspectArguments_reports c callee tys args) callee args.length
  | action target name args stage =>
    exact .action (target.inspect_reports c) (inspectEach_reports c args)
      (fun callee tys => inspectArguments_reports c callee tys args) name args.length
  | _ => exact he.map rfl

/-! ## What statements report -/

theorem Target.inspect_reports (c : Checker) (t : Target) :
    Reports (t.inspect c) (t.infer c) := by
  cases t with
  | var v => exact .pure _
  | index base key => exact .index (base.inspect_reports c) (key.inspect_reports c)
  | field base name => exact .field (base.inspect_reports c) name

theorem inspectTargets_reports (c : Checker) (targets : List Target) :
    Reports (inspectTargets c targets)
      ((targets.map (·.infer c)).map (·.1), (targets.map (·.infer c)).flatMap (·.2)) := by
  induction targets with
  | nil => exact .pure _
  | cons target targets ih => exact (target.inspect_reports c).bind (ih.map rfl)

theorem inspectAll_reports (c : Checker) (mismatch : Nat → Nat → Diagnostic) (expected : List Ty)
    (value : Expr) :
    Reports (inspectAll c mismatch expected value) ((), checkAll c mismatch expected value) := by
  have hvalue := value.inspectAll_reports c
  unfold checkAll
  generalize value.inferAll c = out at hvalue ⊢
  obtain ⟨tys, found⟩ := out
  refine hvalue.tracked.bind ?_
  dsimp only
  cases tys.length != expected.length with
  | true => exact .report _
  | false => exact .compatibleAll c _ _ _

theorem inspectAssign_reports (c : Checker) (targets : List Target) (value : Expr) :
    Reports (inspectAssign c targets value) ((), checkAssign c targets value) := by
  refine (inspectTargets_reports c targets).bind ?_
  match targets with
  | [] => exact inspectAll_reports c _ _ _
  | [target] => exact (value.inspect_reports c).expect _
  | _ :: _ :: _ => exact inspectAll_reports c _ _ _

theorem inspectResult_reports (c : Checker) (returns : List Ty) (values : List Expr) :
    Reports (inspectResult c returns values) ((), checkResult c returns values) := by
  have heach : Reports
      (if values.length != returns.length then
        report (.returnCount returns.length values.length)
      else inspectAgainst c returns values)
      ((), if values.length != returns.length then [.returnCount returns.length values.length]
        else inferAgainst c returns values) := by
    cases values.length != returns.length with
    | true => exact .report _
    | false => exact inspectAgainst_reports c returns values
  match values, returns, heach with
  | [single], _ :: _ :: _, _ => exact inspectAll_reports c _ _ _
  | [], _, heach | [_], [], heach | [_], [_], heach | _ :: _ :: _, _, heach => exact heach

/-- As `Reports`, for parts that depend on whether they are inside of a loop. -/
def ReportsIn (inLoop : Bool) (x : Inspecting Unit) (found : List Diagnostic) : Prop :=
  ∀ s : Inspection, (s.loops != 0) = inLoop → x.run s = ((), s.add found)

theorem Reports.within {x : Inspecting Unit} {found : List Diagnostic} (hx : Reports x ((), found))
    (inLoop : Bool) : ReportsIn inLoop x found :=
  fun s _ => hx s

theorem ReportsIn.bind {inLoop : Bool} {x : Inspecting Unit} {y : Unit → Inspecting Unit}
    {found more : List Diagnostic} (hx : ReportsIn inLoop x found)
    (hy : ReportsIn inLoop (y ()) more) : ReportsIn inLoop (x >>= y) (found ++ more) := by
  intro s hs
  change (y (x.run s).1).run (x.run s).2 = _
  rw [hx s hs]
  change (y ()).run (s.add found) = _
  rw [hy (s.add found) hs, Inspection.add_add]

theorem ReportsIn.jump (inLoop : Bool) :
    ReportsIn inLoop inspectJump (if inLoop then [] else [.strayJump]) := by
  rintro s rfl
  exact Reports.require (s.loops != 0) .strayJump s

/-- The depth that a loop adds is taken back behind it. -/
theorem ReportsIn.loop {inLoop : Bool} {body : Inspecting Unit} {found : List Diagnostic}
    (hbody : ReportsIn true body found) : ReportsIn inLoop (do
      modify fun s => { s with loops := s.loops + 1 }
      body
      modify fun s => { s with loops := s.loops - 1 }) found := by
  intro s _
  have h := hbody { s with loops := s.loops + 1 } (by simp)
  change ((), { (body.run { s with loops := s.loops + 1 }).2 with
    loops := (body.run { s with loops := s.loops + 1 }).2.loops - 1 }) = _
  rw [h]
  rfl

mutual

/-- The inspection of a statement adds the findings in it, if the loops it is inside of are as many
as the state says. -/
theorem Stmt.inspect_reports (c : Checker) (returns : List Ty) (inLoop : Bool) :
    ∀ st : Stmt, ReportsIn inLoop (st.inspect c returns) (st.check c returns inLoop)
  | .define _ ty (some init) _ => ((init.inspect_reports c).expect ty).within inLoop
  | .define _ _ none _ => (Reports.pure ()).within inLoop
  | .assign targets value => (inspectAssign_reports c targets value).within inLoop
  | .branch cond yes no =>
    (((cond.inspect_reports c).expect .boolean).within inLoop).bind
      ((inspectBlock_reports c returns inLoop yes).bind (inspectBlock_reports c returns inLoop no))
  | .loop cond body =>
    (((cond.inspect_reports c).expect .boolean).within inLoop).bind
      (.loop (inspectBlock_reports c returns true body))
  | .leave | .next => .jump inLoop
  | .result values => (inspectResult_reports c returns values).within inLoop
  | .run e => by
    have hrun : Reports ((.run e : Stmt).inspect c returns) ((), (e.inferAll c).2) :=
      (e.inspectAll_reports c).map rfl
    exact hrun.within inLoop
  | .block body => inspectBlock_reports c returns inLoop body

theorem inspectBlock_reports (c : Checker) (returns : List Ty) (inLoop : Bool) :
    ∀ ss : List Stmt, ReportsIn inLoop (inspectBlock c returns ss) (checkBlock c returns inLoop ss)
  | [] => (Reports.pure ()).within inLoop
  | s :: ss =>
    (s.inspect_reports c returns inLoop).bind (inspectBlock_reports c returns inLoop ss)

end

/-! ## What functions and programs report -/

/-- **The inspection of a function**, whatever was before: it adds the findings in this function. -/
theorem Function.run_inspect (p : Program) (f : Function) (s : Inspection) :
    (f.inspect p).run s = ((), ⟨s.errors ++ f.check p, f.sig.name, 0⟩) :=
  inspectBlock_reports (.ofFunction p f false) f.sig.returns false f.body
    { s with function := f.sig.name, loops := 0 } rfl

theorem Function.findings_inspect (p : Program) (f : Function) :
    (f.inspect p).findings = f.check p := by
  rw [Inspecting.findings, f.run_inspect, List.nil_append]

theorem run_inspectCallables (p : Program) (units : List (String × Callable)) (s : Inspection) :
    ((inspectCallables p units).run s).2.errors =
      s.errors ++ ({ p with units } : Program).functions.flatMap (·.check p) := by
  induction units generalizing s with
  | nil => exact (List.append_nil _).symm
  | cons entry units ih =>
    obtain ⟨key, unit⟩ := entry
    cases unit with
    | native n => exact ih s
    | function f =>
      change ((inspectCallables p units).run ((f.inspect p).run s).2).2.errors = _
      rw [f.run_inspect, ih, List.append_assoc]
      rfl

/-- The inspection of a program finds what its check returns. -/
theorem Program.findings_inspect (p : Program) : p.inspect.findings = p.check := by
  rw [Inspecting.findings, Program.inspect, run_inspectCallables]
  rfl

namespace Program

variable {source : Source} {natives : Registry} {p : Program}

/-- The functions of a loaded program are in ascending order of their qualified names. -/
theorem functions_sorted (hload : load source natives = .ok p) :
    p.functions.Pairwise (·.sig.qualifiedName < ·.sig.qualifiedName) := by
  obtain ⟨-, rfl⟩ := load_eq_ok_iff.mp hload
  refine List.pairwise_filterMap.mpr ((Dict.pairwise_ofList _).imp_of_mem ?_)
  rintro ⟨key, unit⟩ ⟨key', unit'⟩ hmem hmem' hlt f hf g hg
  obtain rfl := key_of_mem_units (Dict.mem_of_mem_ofList hmem)
  obtain rfl := key_of_mem_units (Dict.mem_of_mem_ofList hmem')
  cases unit <;> cases unit' <;> cases hf <;> cases hg
  exact hlt

end Program

/-- **Checking is compositional**: threaded through all functions of a loaded program, the checker
finds what fresh checkers find in each of them alone, in ascending order of the qualified names.
Whatever was found before, a function adds what is found in it alone, and that depends on no body
but its own.

**Proof sketch.** Every part of an inspection has a result and adds findings that are those of the
analysis without state. Whether a part is clean is read off the number of errors, which grows by
what the part adds, and whether a jump is inside a loop is the number of loops, which a loop gives
back. -/
theorem checking_compositional {source : Source} {natives : Registry} {p : Program}
    (hload : Program.load source natives = .ok p) :
    p.functions.Pairwise (·.sig.qualifiedName < ·.sig.qualifiedName) ∧
    p.check = p.inspect.findings ∧
    p.inspect.findings = p.functions.flatMap (fun f => (f.inspect p).findings) ∧
    ∀ f : Function,
      (∀ s : Inspection, ((f.inspect p).run s).2.errors = s.errors ++ (f.inspect p).findings) ∧
      ∀ p' : Program, p.DeclaresAs p' → (f.inspect p').findings = (f.inspect p).findings := by
  refine ⟨Program.functions_sorted hload, p.findings_inspect.symm, ?_, fun f => ⟨fun s => ?_, ?_⟩⟩
  · simp only [Program.findings_inspect, Function.findings_inspect, Program.check]
  · rw [f.run_inspect, f.findings_inspect]
  · intro p' hdeclares
    rw [f.findings_inspect, f.findings_inspect, f.check_congr hdeclares]

/-- Two functions with mistakes: one uses the result of an unknown callable, the other one jumps out
of a loop that has ended. -/
def strayingSource : Source where
  functions := [
    { name := "second"
      body := [
        .loop (.bool true) [.next],
        .define "x" .int (some (.call "nope" [] 0)) none] },
    { name := "first"
      body := [
        .loop (.bool true) [.leave],
        .leave] }]

/-- The unknown callable is reported once, also after the jump in the other function. -/
theorem checking_compositional_straying :
    ∃ p, Program.load strayingSource Library.standard = .ok p ∧
      p.inspect.findings = [⟨"first", .strayJump⟩, ⟨"second", .undefinedFunction "nope"⟩] ∧
      p.functions.flatMap (fun f => (f.inspect p).findings) = p.check := by
  have hloads : Program.loadsTo strayingSource Library.standard (fun p =>
      p.check = [⟨"first", .strayJump⟩, ⟨"second", .undefinedFunction "nope"⟩]) = true := by
    rw [Program.loadsTo_standard]
    decide +kernel
  obtain ⟨p, hload, htest⟩ := Program.exists_of_loadsTo hloads
  obtain ⟨-, hcheck, hflat, -⟩ := checking_compositional hload
  exact ⟨p, hload, hcheck ▸ of_decide_eq_true htest, hflat ▸ hcheck.symm⟩

end FrameScript
