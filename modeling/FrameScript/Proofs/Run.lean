import FrameScript.Proofs.Exec

set_option autoImplicit false

/-!
# The states of a run

A run is one computation, but inside it many others are started: the calls, the statements and
expressions of the bodies that run, the writes of an assignment, the stores of results. Each is a
task that is begun in some state. Here is the relation that leads from a task and the state in which
it is begun to the tasks that are begun on its behalf, each with its own state. The states of a run
are those in which some task is begun, and those in which one ends.

## Main definitions

* `Site` — a body under way.
* `Task` — what a run can be about to do, and `Task.exec`, the computation that does it.
* `Task.Step` — the next task on behalf of another.
* `Task.Reaches` — the tasks of a whole run.
* `Task.Visits` — the states of a whole run.

## Design

A task that stands for several expressions or statements one after the other leads to each of them
in the state that those before it lead to, if they end with values. So a step never looks into the
future: it says which computations lie before it, and that they ended well.
-/

namespace FrameScript

/-- A body under way, on the innermost frame. -/
structure Site where
  /-- How many levels the calls of the body have left. -/
  levels : Nat
  /-- The function. -/
  function : Function

/-- What the body knows besides its frame. -/
def Site.code (p : Program) (rounds : Nat) (s : Site) : Code :=
  { program := p, function := s.function, call := call p rounds s.levels, rounds }

/-- Whether an expression is a call, which may have any number of values. -/
def Expr.isCall : Expr → Bool
  | .call _ _ _ => true
  | .action _ _ _ _ => true
  | _ => false

/-- What a run can be about to do. -/
inductive Task
  /-- A whole call. -/
  | call (levels : Nat) (unit : Callable) (args : List Value)
  /-- Running a callable on the frame of its call. -/
  | dispatch (levels : Nat) (unit : Callable)
  /-- Storing results of a native unit from a slot on. -/
  | store (unit : NativeUnit) (index : Nat) (vs : List Value) (tys : List Ty)
  /-- The statements of a block. -/
  | block (s : Site) (ss : List Stmt)
  /-- A statement. -/
  | stmt (s : Site) (st : Stmt)
  /-- The rounds of a loop. -/
  | loop (s : Site) (cond : Expr) (body : List Stmt) (rounds : Nat)
  /-- Storing the results of a body from a slot on. -/
  | finish (s : Site) (index : Nat) (vs : List Value)
  /-- An assignment of a value to a target. -/
  | write (s : Site) (v : Value) (target : Target)
  /-- An expression for its value. -/
  | eval (s : Site) (e : Expr)
  /-- An expression for all its values. -/
  | results (s : Site) (e : Expr)

namespace Task

variable (p : Program) (rounds : Nat)

/-- The computation of a task. -/
def exec : Task → Exec Unit
  | .call levels unit args => do let _ ← FrameScript.call p rounds levels unit args
  | .dispatch levels unit => FrameScript.dispatch p rounds (FrameScript.call p rounds levels) unit
  | .store unit index vs tys => storeResults unit index vs tys
  | .block s ss => do let _ ← execBlock (s.code p rounds) ss
  | .stmt s st => do let _ ← st.exec (s.code p rounds)
  | .loop s cond body n => do
    let _ ← runLoop (cond.holds (s.code p rounds)) (execBlock (s.code p rounds) body) n
  | .finish s index vs => writeResults s.function.sig.returns index vs
  | .write s v target => target.write (s.code p rounds) v
  | .eval s e => do let _ ← e.eval (s.code p rounds)
  | .results s e => do let _ ← e.results (s.code p rounds)

/-- The next task on behalf of another, each with the state in which it is begun. -/
inductive Step : Task → Machine → Task → Machine → Prop
  /-- A call that is admitted runs its callable on a new frame. -/
  | call {levels : Nat} {unit : Callable} {args : List Value} {m : Machine} {f : Frame}
    (hf : prepare unit args = .ok f) (hroom : m.context.depth < m.context.maxDepth) :
    Step (.call (levels + 1) unit args) m (.dispatch levels unit)
      (m.withFrames (f :: m.context.frames))
  /-- A function runs its body. -/
  | body {levels : Nat} {f : Function} {m : Machine} :
    Step (.dispatch levels (.function f)) m (.block ⟨levels, f⟩ f.body) m
  /-- A native unit stores the results that its handler hands over. -/
  | handled {levels : Nat} {unit : NativeUnit} {run : Exec (List Value)} {vs : List Value}
    {f : Frame} {fs : List Frame} {m m' : Machine} (hrun : unit.handler = .function run)
    (hvs : run.on m = (.ok vs, m')) (hf : m'.context.frames = f :: fs)
    (hcount : vs.length ≤ f.returns.length) :
    Step (.dispatch levels (.native unit)) m (.store unit 0 vs unit.sig.returns) m'
  /-- A type mapper stores the one value that its handler hands over. -/
  | mapped {levels : Nat} {unit : NativeUnit} {run : Exec Value} {v : Value} {ty : Ty}
    {tys : List Ty} {m m' : Machine} (hrun : unit.handler = .typeMapper run)
    (hv : run.on m = (.ok v, m')) (htys : unit.sig.returns = ty :: tys) :
    Step (.dispatch levels (.native unit)) m (.store unit 0 [v] [ty]) m'
  /-- Further results are stored behind the first. -/
  | stored {unit : NativeUnit} {index : Nat} {v w : Value} {vs : List Value} {ty : Ty}
    {tys : List Ty} {m m' : Machine} (hw : nativeResult unit ty v = .ok w)
    (hset : (Exec.setReturn index w).on m = (.ok (), m')) :
    Step (.store unit index (v :: vs) (ty :: tys)) m (.store unit (index + 1) vs tys) m'
  /-- A statement of a block is due if those in front of it do not end the block. -/
  | inBlock {s : Site} {before after : List Stmt} {st : Stmt} {m m' : Machine}
    (hbefore : (execBlock (s.code p rounds) before).on m = (.ok .onward, m')) :
    Step (.block s (before ++ st :: after)) m (.stmt s st) m'
  /-- A definition evaluates its start value. -/
  | start {s : Site} {name : String} {ty : Ty} {init : Expr} {slot? : Option Nat} {m : Machine} :
    Step (.stmt s (.define name ty (some init) slot?)) m (.eval s init) m
  /-- An assignment to one target evaluates its value. -/
  | assigned {s : Site} {target : Target} {value : Expr} {m : Machine} :
    Step (.stmt s (.assign [target] value)) m (.eval s value) m
  /-- An assignment to one target writes its value. -/
  | written {s : Site} {target : Target} {value : Expr} {v : Value} {m m' : Machine}
    (hv : (value.eval (s.code p rounds)).on m = (.ok v, m')) :
    Step (.stmt s (.assign [target] value)) m (.write s v target) m'
  /-- An assignment to several targets evaluates the values of a call. -/
  | assignedAll {s : Site} {targets : List Target} {value : Expr} {m : Machine}
    (htargets : targets.length ≠ 1) :
    Step (.stmt s (.assign targets value)) m (.results s value) m
  /-- An assignment to several targets writes a value once those in front of it are written. -/
  | writtenEach {s : Site} {before after : List Target} {target : Target} {value : Expr}
    {vs vs' : List Value} {v : Value} {m m₁ m₂ : Machine}
    (htargets : (before ++ target :: after).length ≠ 1)
    (hvalues : (value.results (s.code p rounds)).on m = (.ok (vs ++ v :: vs'), m₁))
    (hbefore : before.length = vs.length) (hafter : after.length = vs'.length)
    (hwritten : (writeAll (s.code p rounds) before vs).on m₁ = (.ok (), m₂)) :
    Step (.stmt s (.assign (before ++ target :: after) value)) m (.write s v target) m₂
  /-- A choice evaluates its condition. -/
  | cond {s : Site} {cond : Expr} {yes no : List Stmt} {m : Machine} :
    Step (.stmt s (.branch cond yes no)) m (.eval s cond) m
  /-- A choice goes on with one of its blocks. -/
  | chosen {s : Site} {cond : Expr} {yes no : List Stmt} {b : Bool} {m m' : Machine}
    (hcond : (cond.holds (s.code p rounds)).on m = (.ok b, m')) :
    Step (.stmt s (.branch cond yes no)) m (.block s (if b then yes else no)) m'
  /-- A loop runs its rounds. -/
  | loop {s : Site} {cond : Expr} {body : List Stmt} {m : Machine} :
    Step (.stmt s (.loop cond body)) m (.loop s cond body rounds) m
  /-- A round of a loop evaluates the condition. -/
  | roundCond {s : Site} {cond : Expr} {body : List Stmt} {n : Nat} {m : Machine} :
    Step (.loop s cond body (n + 1)) m (.eval s cond) m
  /-- A round of a loop runs the body if the condition holds. -/
  | roundBody {s : Site} {cond : Expr} {body : List Stmt} {n : Nat} {m m' : Machine}
    (hcond : (cond.holds (s.code p rounds)).on m = (.ok true, m')) :
    Step (.loop s cond body (n + 1)) m (.block s body) m'
  /-- The next round is due if the body does not end the loop. -/
  | round {s : Site} {cond : Expr} {body : List Stmt} {n : Nat} {flow : Flow} {m m₁ m₂ : Machine}
    (hcond : (cond.holds (s.code p rounds)).on m = (.ok true, m₁))
    (hbody : (execBlock (s.code p rounds) body).on m₁ = (.ok flow, m₂))
    (hflow : flow = .onward ∨ flow = .next) :
    Step (.loop s cond body (n + 1)) m (.loop s cond body n) m₂
  /-- A result that stands for several evaluates to all its values. -/
  | resultAll {s : Site} {value : Expr} {ty ty' : Ty} {tys : List Ty} {m : Machine}
    (htys : s.function.sig.returns = ty :: ty' :: tys) :
    Step (.stmt s (.result [value])) m (.results s value) m
  /-- The values of a result are evaluated one after the other. -/
  | resultEach {s : Site} {before after : List Expr} {e : Expr} {vs : List Value}
    {m m' : Machine}
    (hone : (before ++ e :: after).length = 1 → s.function.sig.returns.length < 2)
    (hbefore : (evalArgs (s.code p rounds) before).on m = (.ok vs, m')) :
    Step (.stmt s (.result (before ++ e :: after))) m (.eval s e) m'
  /-- The values of a result are stored. -/
  | result {s : Site} {values : List Expr} {vs : List Value} {m m' : Machine}
    (hvs : (resultValues (s.code p rounds) values).on m = (.ok vs, m')) :
    Step (.stmt s (.result values)) m (.finish s 0 vs) m'
  /-- Further results are stored behind the first. -/
  | finished {s : Site} {index : Nat} {v w : Value} {vs : List Value} {m m' : Machine}
    (hw : bindAs s.function.sig.returns[index]? v = .ok w)
    (hset : (Exec.setReturn index w).on m = (.ok (), m')) :
    Step (.finish s index (v :: vs)) m (.finish s (index + 1) vs) m'
  /-- An expression is evaluated for its effect. -/
  | run {s : Site} {e : Expr} {m : Machine} :
    Step (.stmt s (.run e)) m (.results s e) m
  /-- A block runs its statements. -/
  | inner {s : Site} {body : List Stmt} {m : Machine} :
    Step (.stmt s (.block body)) m (.block s body) m
  /-- A write to an element evaluates the container. -/
  | writeBase {s : Site} {v : Value} {base key : Expr} {m : Machine} :
    Step (.write s v (.index base key)) m (.eval s base) m
  /-- A write to an element evaluates the key behind the container. -/
  | writeKey {s : Site} {v container : Value} {base key : Expr} {m m' : Machine}
    (hbase : (base.eval (s.code p rounds)).on m = (.ok container, m')) :
    Step (.write s v (.index base key)) m (.eval s key) m'
  /-- A write to a field evaluates what the field is one of. -/
  | writeStruct {s : Site} {v : Value} {base : Expr} {name : String} {m : Machine} :
    Step (.write s v (.field base name)) m (.eval s base) m
  /-- An expression that is no call has its one value. -/
  | value {s : Site} {e : Expr} {m : Machine} (he : e.isCall = false) :
    Step (.results s e) m (.eval s e) m
  /-- A call in the place of a value is a call. -/
  | values {s : Site} {e : Expr} {m : Machine} (he : e.isCall = true) :
    Step (.eval s e) m (.results s e) m
  /-- An argument of a call is evaluated once those in front of it are staged. -/
  | callArg {s : Site} {callee : String} {before after : List Expr} {e : Expr} {stage : Nat}
    {unit : Callable} {m m' : Machine} (hunit : p.resolve callee = .ok unit)
    (hbefore : (stageArgs (s.code p rounds) stage before).on m = (.ok (), m')) :
    Step (.results s (.call callee (before ++ e :: after) stage)) m (.eval s e) m'
  /-- The callee is called once all arguments are staged. -/
  | called {s : Site} {callee : String} {args : List Expr} {stage : Nat} {unit : Callable}
    {vs : List Value} {m m₁ m₂ : Machine} (hunit : p.resolve callee = .ok unit)
    (hargs : (stageArgs (s.code p rounds) stage args).on m = (.ok (), m₁))
    (hvs : (takeStaged stage args.length).on m₁ = (.ok vs, m₂)) :
    Step (.results s (.call callee args stage)) m (.call s.levels unit vs) m₂
  /-- An action evaluates its connector. -/
  | actionTarget {s : Site} {target : Expr} {name : String} {args : List Expr} {stage : Nat}
    {m : Machine} :
    Step (.results s (.action target name args stage)) m (.eval s target) m
  /-- An argument of an action is evaluated once the connector and those in front are staged. -/
  | actionArg {s : Site} {target : Expr} {name connector : String} {before after : List Expr}
    {e : Expr} {stage : Nat} {v : Value} {m m₁ m₂ m₃ : Machine}
    (htarget : (target.eval (s.code p rounds)).on m = (.ok v, m₁))
    (hconnector : connectorName name v = .ok connector)
    (hstaged : (Exec.setTemp stage v).on m₁ = (.ok (), m₂))
    (hbefore : (stageArgs (s.code p rounds) (stage + 1) before).on m₂ = (.ok (), m₃)) :
    Step (.results s (.action target name (before ++ e :: after) stage)) m (.eval s e) m₃
  /-- The action is called once its connector and all arguments are staged. -/
  | acted {s : Site} {target : Expr} {name connector : String} {args : List Expr} {stage : Nat}
    {unit : Callable} {v : Value} {vs : List Value} {m m₁ m₂ m₃ m₄ : Machine}
    (htarget : (target.eval (s.code p rounds)).on m = (.ok v, m₁))
    (hconnector : connectorName name v = .ok connector)
    (hstaged : (Exec.setTemp stage v).on m₁ = (.ok (), m₂))
    (hargs : (stageArgs (s.code p rounds) (stage + 1) args).on m₂ = (.ok (), m₃))
    (hunit : p.resolve (connector ++ "." ++ name) = .ok unit)
    (hvs : (takeStaged stage (args.length + 1)).on m₃ = (.ok vs, m₄)) :
    Step (.results s (.action target name args stage)) m (.call s.levels unit vs) m₄
  /-- An element of an array is evaluated once those in front of it are. -/
  | item {s : Site} {elem : Ty} {before after : List Expr} {e : Expr} {vs : List Value}
    {m m' : Machine} (hbefore : (evalItems (s.code p rounds) elem before).on m = (.ok vs, m')) :
    Step (.eval s (.array elem (before ++ e :: after))) m (.eval s e) m'
  /-- An entry of a map is evaluated once those in front of it are. -/
  | entry {s : Site} {before after : List (String × Expr)} {key : String} {e : Expr}
    {vs : List (String × Value)} {m m' : Machine}
    (hbefore : (evalEntries (s.code p rounds) before).on m = (.ok vs, m')) :
    Step (.eval s (.map (before ++ (key, e) :: after))) m (.eval s e) m'
  /-- A field of a struct is evaluated once those in front of it are stored. -/
  | fieldValue {s : Site} {name field : String} {before after : List (String × Expr)} {e : Expr}
    {decl : StructDecl} {vs : List (String × Value)} {m m' : Machine}
    (hdecl : p.struct? name = some decl)
    (hbefore : (evalFields (s.code p rounds) decl (defaultFields decl) before).on m =
      (.ok vs, m')) :
    Step (.eval s (.struct name (before ++ (field, e) :: after))) m (.eval s e) m'
  /-- What a connector is built from is evaluated one after the other. -/
  | connectorArg {s : Site} {name : String} {before after : List Expr} {e : Expr}
    {vs : List Value} {m m' : Machine}
    (hbefore : (evalArgs (s.code p rounds) before).on m = (.ok vs, m')) :
    Step (.eval s (.connector name (before ++ e :: after))) m (.eval s e) m'
  /-- A message evaluates its payload. -/
  | payload {s : Site} {payload : Expr} {m : Machine} :
    Step (.eval s (.message payload)) m (.eval s payload) m
  /-- An element read evaluates the container. -/
  | base {s : Site} {base key : Expr} {m : Machine} :
    Step (.eval s (.index base key)) m (.eval s base) m
  /-- An element read evaluates the key behind the container. -/
  | key {s : Site} {base key : Expr} {container : Value} {m m' : Machine}
    (hbase : (base.eval (s.code p rounds)).on m = (.ok container, m')) :
    Step (.eval s (.index base key)) m (.eval s key) m'
  /-- A field read evaluates what the field is one of. -/
  | field {s : Site} {base : Expr} {name : String} {m : Machine} :
    Step (.eval s (.field base name)) m (.eval s base) m
  /-- A unary operator evaluates its operand. -/
  | operand {s : Site} {op : UnaryOp} {operand : Expr} {m : Machine} :
    Step (.eval s (.unary op operand)) m (.eval s operand) m
  /-- A binary operator evaluates its left operand. -/
  | left {s : Site} {op : BinaryOp} {left right : Expr} {m : Machine} :
    Step (.eval s (.binary op left right)) m (.eval s left) m
  /-- A binary operator evaluates its right operand, unless the left one decides. -/
  | right {s : Site} {op : BinaryOp} {left right : Expr} {l : Value} {m m' : Machine}
    (hleft : (left.eval (s.code p rounds)).on m = (.ok l, m'))
    (hopen : shortCircuit? op l = none) :
    Step (.eval s (.binary op left right)) m (.eval s right) m'
  /-- A conversion evaluates its operand. -/
  | castOperand {s : Site} {operand : Expr} {target : Ty} {m : Machine} :
    Step (.eval s (.cast operand target)) m (.eval s operand) m

/-- The tasks of a run, each with the state in which it is begun. -/
inductive Reaches (task : Task) (m : Machine) : Task → Machine → Prop
  /-- The run itself. -/
  | start : Reaches task m task m
  /-- What is done on behalf of a task of the run. -/
  | next {task₁ task₂ : Task} {m₁ m₂ : Machine} (h : Reaches task m task₁ m₁)
    (hstep : Step p rounds task₁ m₁ task₂ m₂) : Reaches task m task₂ m₂

/-- The states of a run: those in which a task of it is begun, and those in which one ends. -/
inductive Visits (task : Task) (m : Machine) : Machine → Prop
  /-- A state in which a task is begun. -/
  | begun {task₁ : Task} {m₁ : Machine} (h : Reaches p rounds task m task₁ m₁) :
    Visits task m m₁
  /-- A state in which a task ends, with a value or without. -/
  | ended {task₁ : Task} {m₁ : Machine} (h : Reaches p rounds task m task₁ m₁) :
    Visits task m ((exec p rounds task₁).on m₁).2

variable {p rounds}

/-- An invariant of tasks holds of all tasks of a run if each step keeps it. -/
theorem Reaches.invariant {I : Task → Machine → Prop} {task task' : Task} {m m' : Machine}
    (hstep : ∀ t₁ m₁ t₂ m₂, I t₁ m₁ → Step p rounds t₁ m₁ t₂ m₂ → I t₂ m₂) (h : I task m)
    (hr : Reaches p rounds task m task' m') : I task' m' := by
  induction hr with
  | start => exact h
  | next _ hlast ih => exact hstep _ _ _ _ ih hlast

end Task

end FrameScript
