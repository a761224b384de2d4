import FrameScript.Machine.Call

set_option autoImplicit false

/-!
# Reference runs

Bodies run again, in plain terms: the arguments of a call are evaluated to a list and handed over
as that list, and variables are kept in an environment that is passed along from statement to
statement. Nothing is staged in a frame. What an environment is, and how a variable is read, written
and defined in it, is left open.

## Main definitions

* `Variables` — a way to keep variables in an environment.
* `Reference.eval`, `Reference.results`, `Reference.write`, `Reference.exec` — expressions,
  assignments and statements over such environments.
* `callWith` — whole calls with a given way to run bodies.

## Main results

* `callWith_run` — with the bodies run on frames, these are the calls.

## Design

The text follows the one of bodies on frames: the same operations on objects and the same faults in
the same order. The two differ in the calls, in the variables, and in the blocks, which are entered
and left here.
-/

namespace FrameScript

/-- A way to keep variables in an environment. -/
structure Variables (σ : Type) where
  /-- The value of a variable. -/
  read : σ → Variable → Exec Value
  /-- Assigns a value to a variable. -/
  write : σ → Variable → Value → Exec σ
  /-- Makes a new variable of a type, with a start value. -/
  define : σ → String → Ty → Option Nat → Value → Exec σ
  /-- The environment inside a block that is entered. -/
  enter : σ → σ
  /-- The environment outside a block that is left. -/
  leave : σ → σ

namespace Reference

open Exec

/-! ## Calls -/

/-- Calls a named callable with the values of the arguments. -/
def callNamed (code : Code) (callee : String) (args : Exec (List Value)) : Exec (List Value) := do
  let unit ← ofExcept (code.program.resolve callee)
  let vs ← args
  code.call unit vs

/-- Calls an action of a connector with the connector in front of the values of the arguments. -/
def callAction (code : Code) (target : Value) (action : String) (args : Exec (List Value)) :
    Exec (List Value) := do
  let name ← ofExcept (connectorName action target)
  let vs ← args
  let unit ← ofExcept (code.program.resolve (name ++ "." ++ action))
  code.call unit (target :: vs)

variable {σ : Type} (V : Variables σ) (code : Code) (env : σ)

/-! ## Expressions -/

mutual

/-- Evaluates an expression in an environment. -/
def eval : Expr → Exec Value
  | .int n => pure (.int n)
  | .float x => pure (.float x)
  | .bool b => pure (.bool b)
  | .str s => pure (.str s)
  | .null => pure .bareNull
  | .json doc => pure (.json doc)
  | .xml text => pure (.xml text)
  | .var v => V.read env v
  | .array elem items => do
    let vs ← evalItems elem items
    make (Heap.newArray elem vs.toArray)
  | .map entries => do
    let vs ← evalEntries entries
    make (Heap.newMap (Dict.ofList vs))
  | .struct name fields => do
    match code.program.struct? name with
    | none => fault (.analyzerDefect (.unknownStruct name))
    | some decl =>
      let vs ← evalFields decl (defaultFields decl) fields
      make (Heap.newStruct name vs)
  | .connector name args => do
    let vs ← evalArgs args
    make (Heap.newConnector name vs)
  | .message payload => do
    let v ← eval payload
    makeMessage v
  | .index base key => do
    let container ← eval base
    let key ← eval key
    let h ← heap
    ofExcept (element h base container key)
  | .field base name => do
    let target ← eval base
    let h ← heap
    ofExcept (fieldOf code.program h base target name)
  | .unary op operand => do
    let v ← eval operand
    ofExcept (op.apply v)
  | .binary op left right => do
    let l ← eval left
    match shortCircuit? op l with
    | some v => pure v
    | none =>
      let r ← eval right
      let h ← heap
      ofExcept (op.apply h l r)
  | .cast operand target => do
    let v ← eval operand
    ofExcept (v.cast target)
  | .call callee args _ => do
    let vs ← callNamed code callee (evalArgs args)
    firstResult vs
  | .action target name args _ => do
    let v ← eval target
    let vs ← callAction code v name (evalArgs args)
    firstResult vs

/-- Evaluates the elements of an array of the given element type. -/
def evalItems (elem : Ty) : List Expr → Exec (List Value)
  | [] => pure []
  | e :: es => do
    let v ← eval e
    let v ← ofExcept (v.bind elem)
    let vs ← evalItems elem es
    pure (v :: vs)

/-- Evaluates the entries of a map. -/
def evalEntries : List (String × Expr) → Exec (List (String × Value))
  | [] => pure []
  | (key, e) :: entries => do
    let v ← eval e
    let vs ← evalEntries entries
    pure ((key, v) :: vs)

/-- Evaluates the given fields of a struct into the fields it has so far. -/
def evalFields (decl : StructDecl) (fields : List (String × Value)) :
    List (String × Expr) → Exec (List (String × Value))
  | [] => pure fields
  | (name, e) :: rest => do
    let v ← eval e
    let fields ← ofExcept (initField decl name v fields)
    evalFields decl fields rest

/-- Evaluates expressions one after the other. -/
def evalArgs : List Expr → Exec (List Value)
  | [] => pure []
  | e :: es => do
    let v ← eval e
    let vs ← evalArgs es
    pure (v :: vs)

end

/-- Evaluates an expression to all its values. -/
def results : Expr → Exec (List Value)
  | .call callee args _ => callNamed code callee (evalArgs V code env args)
  | .action target name args _ => do
    let v ← eval V code env target
    callAction code v name (evalArgs V code env args)
  | e => do
    let v ← eval V code env e
    pure [v]

/-- Evaluates a condition. -/
def holds (cond : Expr) : Exec Bool := do
  match ← eval V code env cond with
  | .bool b => pure b
  | other => fault (.analyzerDefect (.condition other.ty))

/-! ## Assignments -/

/-- Writes a value to a target, which leads to the environment afterwards. -/
def write (v : Value) : Target → Exec σ
  | .var x => V.write env x v
  | .index base key => do
    let container ← eval V code env base
    let key ← eval V code env key
    match container with
    | .null _ => fault (nullFault base)
    | .array elem id => do
      let index ← ofExcept (arrayIndex key)
      writeElement elem id index v
      pure env
    | .map id => do
      let key ← ofExcept (mapKey key)
      modifyHeap (Heap.setMap id (Dict.insert key v))
      pure env
    | other => fault (.analyzerDefect (.notIndexable other.ty))
  | .field base name => do
    match ← eval V code env base with
    | .null _ => fault (nullFault base)
    | .struct struct id => do
      writeField code.program struct id name v
      pure env
    | other => fault (.analyzerDefect (.noField other.ty name))

/-- Writes values to targets in order. -/
def writeAll (env : σ) : List Target → List Value → Exec σ
  | t :: ts, v :: vs => do
    let env ← write V code env v t
    writeAll env ts vs
  | _, _ => pure env

/-- Assigns the value of an expression to a target, or its several values to several targets. -/
def assign (targets : List Target) (value : Expr) : Exec σ :=
  match targets with
  | [target] => do
    let v ← eval V code env value
    write V code env v target
  | targets => do
    let vs ← results V code env value
    if vs.length != targets.length then
      fault (.analyzerDefect (.assignmentCount targets.length vs.length))
    else writeAll V code env targets vs

/-! ## Statements -/

/-- Evaluates the values of a result. -/
def resultValues (values : List Expr) : Exec (List Value) :=
  match values, code.function.sig.returns with
  | [single], _ :: _ :: _ => results V code env single
  | values, _ => evalArgs V code env values

/-- Runs the rounds of a loop. -/
def runLoop (cond : σ → Exec Bool) (body : σ → Exec (Flow × σ)) : Nat → σ → Exec (Flow × σ)
  | 0, _ => throw .exhausted
  | rounds + 1, env => do
    if ← cond env then
      let (flow, env) ← body env
      match flow with
      | .leave => pure (.onward, env)
      | .done => pure (.done, env)
      | .onward | .next => runLoop cond body rounds env
    else pure (.onward, env)

mutual

/-- Runs a statement in an environment, which leads to the environment behind it. -/
def exec (env : σ) : Stmt → Exec (Flow × σ)
  | .define name ty init? slot? => do
    let v ← match init? with
      | some init => eval V code env init
      | none => pure ty.default
    let env ← V.define env name ty slot? v
    pure (.onward, env)
  | .assign targets value => do
    let env ← assign V code env targets value
    pure (.onward, env)
  | .branch cond yes no => do
    if ← holds V code env cond then
      let (flow, env) ← execAll (V.enter env) yes
      pure (flow, V.leave env)
    else
      let (flow, env) ← execAll (V.enter env) no
      pure (flow, V.leave env)
  | .loop cond body =>
    runLoop (fun env => holds V code env cond)
      (fun env => do
        let (flow, env) ← execAll (V.enter env) body
        pure (flow, V.leave env))
      code.rounds env
  | .leave => pure (.leave, env)
  | .next => pure (.next, env)
  | .result values => do
    let vs ← resultValues V code env values
    writeResults code.function.sig.returns 0 vs
    pure (.done, env)
  | .run e => do
    let _ ← results V code env e
    pure (.onward, env)
  | .block body => do
    let (flow, env) ← execAll (V.enter env) body
    pure (flow, V.leave env)

/-- Runs statements up to the first that ends their block early. -/
def execAll (env : σ) : List Stmt → Exec (Flow × σ)
  | [] => pure (.onward, env)
  | s :: ss => do
    let (flow, env) ← exec env s
    match flow with
    | .onward => execAll env ss
    | flow => pure (flow, env)

end

/-- Runs a body from an environment on. -/
def run (body : List Stmt) : Exec Unit := do
  let (flow, _) ← execAll V code env body
  match flow with
  | .onward | .done => pure ()
  | .leave | .next => fault (.analyzerDefect .strayJump)

end Reference

/-! ## Whole calls -/

open Exec

/-- Calls a callable with a number of levels left, where `run` runs the bodies of functions. -/
def callWith (run : Code → Exec Unit) (p : Program) (rounds : Nat) :
    Nat → Callable → List Value → Exec (List Value)
  | 0, unit, args => do
    let _ ← recording (ofExcept (prepare unit args))
    recording (fault (.stackOverflow (← context).depth))
  | levels + 1, unit, args => do
    let f ← recording (ofExcept (prepare unit args))
    recording (push f)
    unwinding (match unit with
      | .function function =>
        run { program := p, function, call := callWith run p rounds levels, rounds }
      | .native unit => unit.run)

/-- With bodies run on frames these are the calls. -/
theorem callWith_run (p : Program) (rounds levels : Nat) :
    callWith Function.run p rounds levels = call p rounds levels := by
  induction levels with
  | zero => rfl
  | succ levels ih =>
    funext unit args
    simp only [callWith, call, ih]
    cases unit <;> rfl

end FrameScript
