import FrameScript.Machine.State
import FrameScript.Operation
import FrameScript.Program.Basic

set_option autoImplicit false

/-!
# Running bodies

Expressions and statements of a function, on the frame of its call.

## Main definitions

* `Code` — what a body needs to know: its program, its function, how to call others, and how many
  rounds a loop may take.
* `Expr.eval` — the value of an expression.
* `Expr.results` — all values of an expression; only calls have other than one.
* `Target.write` — an assignment.
* `Stmt.exec`, `Function.run` — statements and whole bodies.

## Design

Expressions and statements recurse on their structure. A call leaves the body through `Code.call`,
so the recursion of functions lies outside, and a loop takes at most a given number of rounds, so
that every run is a total function. Arguments of a call are staged in the frame of the caller and
taken out together once the last one is there.
-/

namespace FrameScript

/-- What a body needs to know besides its frame. -/
structure Code where
  /-- The program. -/
  program : Program
  /-- The function whose body runs. -/
  function : Function
  /-- Calls a callable. -/
  call : Callable → List Value → Exec (List Value)
  /-- How many rounds a loop may take. -/
  rounds : Nat

/-- How a statement ended. -/
inductive Flow
  /-- The next statement is due. -/
  | onward
  /-- The innermost loop is to be left. -/
  | leave
  /-- The next round of the innermost loop is due. -/
  | next
  /-- The function is to be left. -/
  | done
  deriving DecidableEq, Repr

open Exec

/-! ## Elements and fields -/

/-- The fault of looking into a null that `base` has evaluated to. -/
def nullFault : Expr → Fault
  | .var v => .nullReference (.variable v.name)
  | .field _ name => .nullReference (.field name)
  | .index base _ => nullFault base
  | _ => .nullReference .value

/-- A key of an array. -/
def arrayIndex (key : Value) : Except Fault Int64 :=
  match key with
  | .int n => .ok n
  | key => .error (.analyzerDefect (.arrayIndex key.ty))

/-- A key of a map. -/
def mapKey (key : Value) : Except Fault String :=
  match key with
  | .str s => .ok s
  | key => .error (.analyzerDefect (.mapKey key.ty))

/-- The part of a document that a key leads to; where there is none, the null of its type. -/
def documentPart (doc : Json) (key : Value) : Value :=
  let part := match key with
    | .int n =>
      match n.toInt with
      | .ofNat i => doc.item? i
      | .negSucc _ => none
    | .str s => doc.member? s
    | _ => none
  match part with
  | some part => .json part
  | none => .null .json

/-- The element of a container, which `base` has evaluated to. -/
def element (h : Heap) (base : Expr) (container key : Value) : Except Fault Value :=
  match container with
  | .null _ => .error (nullFault base)
  | .array _ id => do
    let index ← arrayIndex key
    Heap.element (h.array id) index
  | .map id => do
    let key ← mapKey key
    match Dict.find? key (h.map id) with
    | some v => .ok v
    | none => .error (.keyNotFound key)
  | .json doc => .ok (documentPart doc key)
  | other => .error (.analyzerDefect (.notIndexable other.ty))

/-- The value a connector was built with for a parameter. -/
def connectorField (p : Program) (h : Heap) (connector : String) (id : Nat) (name : String) :
    Except Fault Value :=
  match ((p.connectorParams? connector).getD []).findIdx? (·.name == name) with
  | none => .error (.analyzerDefect (.noConnectorParam connector name))
  | some i =>
    match (h.connector id)[i]? with
    | some v => .ok v
    | none => .error (.wiring (.missingConnectorParam connector name))

/-- The field of a value, which `base` has evaluated to. -/
def fieldOf (p : Program) (h : Heap) (base : Expr) (target : Value) (name : String) :
    Except Fault Value :=
  match target with
  | .null _ => .error (nullFault base)
  | .struct struct id =>
    match Heap.field? name (h.struct id) with
    | some v => .ok v
    | none => .error (.analyzerDefect (.noStructField struct name))
  | .connector connector id => connectorField p h connector id name
  | .json doc => .ok (documentPart doc (.str name))
  | other => .error (.analyzerDefect (.noField other.ty name))

/-! ## Parts of evaluation -/

/-- A value as it is stored under a declared type, if there is one. -/
def bindAs (ty? : Option Ty) (v : Value) : Except Fault Value :=
  match ty? with
  | some ty => v.bind ty
  | none => .ok v

/-- The slot of a variable. -/
def slotOf (name : String) (slot? : Option Nat) : Exec Nat :=
  match slot? with
  | some slot => pure slot
  | none => fault (.wiring (.noSlot name))

/-- Takes out values staged from `stage` on. -/
def takeTemps (stage : Nat) : Nat → Exec (List Value)
  | 0 => pure []
  | count + 1 => do
    let v ← takeTemp stage
    let vs ← takeTemps (stage + 1) count
    pure (v :: vs)

/-- Takes the values staged from `stage` on out of the frame, which has to be there even if none
are staged. -/
def takeStaged (stage count : Nat) : Exec (List Value) := do
  let _ ← frame
  takeTemps stage count

/-- The first of the results of a call. -/
def firstResult : List Value → Exec Value
  | v :: _ => pure v
  | [] => fault (.analyzerDefect .noValue)

/-- Calls a named callable with arguments that `stageArgs` stages from `stage` on. -/
def callNamed (code : Code) (callee : String) (stage count : Nat) (stageArgs : Exec Unit) :
    Exec (List Value) := do
  let unit ← ofExcept (code.program.resolve callee)
  stageArgs
  let args ← takeStaged stage count
  code.call unit args

/-- The name of the connector type of a value. -/
def connectorName (action : String) : Value → Except Fault String
  | .null _ => .error (.nullReference .connector)
  | .connector name _ => .ok name
  | other => .error (.analyzerDefect (.notConnector action other.ty))

/-- Calls an action of a connector with arguments that `stageArgs` stages behind it. -/
def callAction (code : Code) (target : Value) (action : String) (stage count : Nat)
    (stageArgs : Exec Unit) : Exec (List Value) := do
  let name ← ofExcept (connectorName action target)
  setTemp stage target
  stageArgs
  let unit ← ofExcept (code.program.resolve (name ++ "." ++ action))
  let args ← takeStaged stage (count + 1)
  code.call unit args

/-- The fields of a struct, each at the default of its type. -/
def defaultFields (decl : StructDecl) : List (String × Value) :=
  decl.fields.map fun p => (p.name, p.ty.default)

/-- A field of a struct under construction. -/
def initField (decl : StructDecl) (name : String) (v : Value) (fields : List (String × Value)) :
    Except Fault (List (String × Value)) := do
  let v ← bindAs (decl.fieldType? name) v
  if (Heap.field? name fields).isSome then .ok (Heap.withField name v fields)
  else .error (.analyzerDefect (.noStructField decl.name name))

/-- A message with the given payload. -/
def makeMessage (payload : Value) : Exec Value :=
  match payload with
  | .str s => make (Heap.newMessage s)
  | other => fault (.analyzerDefect (.payload other.ty))

/-- Whether an operator needs no right operand. -/
def shortCircuit? (op : BinaryOp) (left : Value) : Option Value :=
  match op, left with
  | .and, .bool false => some (.bool false)
  | .or, .bool true => some (.bool true)
  | _, _ => none

/-! ## Expressions -/

mutual

/-- Evaluates an expression. -/
def Expr.eval (code : Code) : Expr → Exec Value
  | .int n => pure (.int n)
  | .float x => pure (.float x)
  | .bool b => pure (.bool b)
  | .str s => pure (.str s)
  | .null => pure .bareNull
  | .json doc => pure (.json doc)
  | .xml text => pure (.xml text)
  | .var v => do
    let slot ← slotOf v.name v.slot?
    getSlot slot
  | .array elem items => do
    let vs ← evalItems code elem items
    make (Heap.newArray elem vs.toArray)
  | .map entries => do
    let vs ← evalEntries code entries
    make (Heap.newMap (Dict.ofList vs))
  | .struct name fields => do
    match code.program.struct? name with
    | none => fault (.analyzerDefect (.unknownStruct name))
    | some decl =>
      let vs ← evalFields code decl (defaultFields decl) fields
      make (Heap.newStruct name vs)
  | .connector name args => do
    let vs ← evalArgs code args
    make (Heap.newConnector name vs)
  | .message payload => do
    let v ← payload.eval code
    makeMessage v
  | .index base key => do
    let container ← base.eval code
    let key ← key.eval code
    let h ← heap
    ofExcept (element h base container key)
  | .field base name => do
    let target ← base.eval code
    let h ← heap
    ofExcept (fieldOf code.program h base target name)
  | .unary op operand => do
    let v ← operand.eval code
    ofExcept (op.apply v)
  | .binary op left right => do
    let l ← left.eval code
    match shortCircuit? op l with
    | some v => pure v
    | none =>
      let r ← right.eval code
      let h ← heap
      ofExcept (op.apply h l r)
  | .cast operand target => do
    let v ← operand.eval code
    ofExcept (v.cast target)
  | .call callee args stage => do
    let vs ← callNamed code callee stage args.length (stageArgs code stage args)
    firstResult vs
  | .action target name args stage => do
    let v ← target.eval code
    let vs ← callAction code v name stage args.length (stageArgs code (stage + 1) args)
    firstResult vs

/-- Evaluates the elements of an array of the given element type. -/
def evalItems (code : Code) (elem : Ty) : List Expr → Exec (List Value)
  | [] => pure []
  | e :: es => do
    let v ← e.eval code
    let v ← ofExcept (v.bind elem)
    let vs ← evalItems code elem es
    pure (v :: vs)

/-- Evaluates the entries of a map. -/
def evalEntries (code : Code) : List (String × Expr) → Exec (List (String × Value))
  | [] => pure []
  | (key, e) :: entries => do
    let v ← e.eval code
    let vs ← evalEntries code entries
    pure ((key, v) :: vs)

/-- Evaluates the given fields of a struct into the fields it has so far. -/
def evalFields (code : Code) (decl : StructDecl) (fields : List (String × Value)) :
    List (String × Expr) → Exec (List (String × Value))
  | [] => pure fields
  | (name, e) :: rest => do
    let v ← e.eval code
    let fields ← ofExcept (initField decl name v fields)
    evalFields code decl fields rest

/-- Evaluates the values a connector is built from. -/
def evalArgs (code : Code) : List Expr → Exec (List Value)
  | [] => pure []
  | e :: es => do
    let v ← e.eval code
    let vs ← evalArgs code es
    pure (v :: vs)

/-- Evaluates arguments and stages them from `stage` on. -/
def stageArgs (code : Code) (stage : Nat) : List Expr → Exec Unit
  | [] => pure ()
  | e :: es => do
    let v ← e.eval code
    setTemp stage v
    stageArgs code (stage + 1) es

end

/-- Evaluates an expression to all its values. -/
def Expr.results (code : Code) : Expr → Exec (List Value)
  | .call callee args stage => callNamed code callee stage args.length (stageArgs code stage args)
  | .action target name args stage => do
    let v ← target.eval code
    callAction code v name stage args.length (stageArgs code (stage + 1) args)
  | e => do
    let v ← e.eval code
    pure [v]

/-- Evaluates a condition. -/
def Expr.holds (code : Code) (cond : Expr) : Exec Bool := do
  match ← cond.eval code with
  | .bool b => pure b
  | other => fault (.analyzerDefect (.condition other.ty))

/-! ## Assignments -/

/-- Stores an element of an array as it is. -/
def storeElement (elem : Ty) (id : Nat) (index : Int64) (v : Value) : Exec Unit := do
  match index.toInt with
  | .ofNat i => modifyHeap (Heap.setArray id (Heap.withElement elem i v))
  | .negSucc _ => fault (.indexOutOfRange index (((← heap).array id).size))

/-- Writes an element of an array. -/
def writeElement (elem : Ty) (id : Nat) (index : Int64) (v : Value) : Exec Unit := do
  let v ← ofExcept (v.bind elem)
  storeElement elem id index v

/-- Writes a field of a struct. -/
def writeField (p : Program) (struct : String) (id : Nat) (name : String) (v : Value) :
    Exec Unit := do
  let v ← ofExcept (bindAs ((p.struct? struct).bind (·.fieldType? name)) v)
  if (Heap.field? name ((← heap).struct id)).isSome then
    modifyHeap (Heap.setStruct id (Heap.withField name v))
  else fault (.analyzerDefect (.noStructField struct name))

/-- Writes a value to a target. -/
def Target.write (code : Code) (v : Value) : Target → Exec Unit
  | .var x => do
    let slot ← slotOf x.name x.slot?
    let v ← ofExcept (bindAs code.function.layout.slots[slot]? v)
    setSlot slot v
  | .index base key => do
    let container ← base.eval code
    let key ← key.eval code
    match container with
    | .null _ => fault (nullFault base)
    | .array elem id => do
      let index ← ofExcept (arrayIndex key)
      writeElement elem id index v
    | .map id => do
      let key ← ofExcept (mapKey key)
      modifyHeap (Heap.setMap id (Dict.insert key v))
    | other => fault (.analyzerDefect (.notIndexable other.ty))
  | .field base name => do
    match ← base.eval code with
    | .null _ => fault (nullFault base)
    | .struct struct id => writeField code.program struct id name v
    | other => fault (.analyzerDefect (.noField other.ty name))

/-- Writes values to targets in order. -/
def writeAll (code : Code) : List Target → List Value → Exec Unit
  | t :: ts, v :: vs => do
    t.write code v
    writeAll code ts vs
  | _, _ => pure ()

/-- Assigns the value of an expression to a target, or its several values to several targets. -/
def assign (code : Code) (targets : List Target) (value : Expr) : Exec Unit :=
  match targets with
  | [target] => do
    let v ← value.eval code
    target.write code v
  | targets => do
    let vs ← value.results code
    if vs.length != targets.length then
      fault (.analyzerDefect (.assignmentCount targets.length vs.length))
    else writeAll code targets vs

/-! ## Statements -/

/-- Evaluates the values of a result. A single expression stands for all declared results if there
are several. -/
def resultValues (code : Code) (values : List Expr) : Exec (List Value) :=
  match values, code.function.sig.returns with
  | [single], _ :: _ :: _ => single.results code
  | values, _ => evalArgs code values

/-- Writes results from the slot `index` on, each as its declared type. -/
def writeResults (returns : List Ty) (index : Nat) : List Value → Exec Unit
  | [] => pure ()
  | v :: vs => do
    let v ← ofExcept (bindAs returns[index]? v)
    setReturn index v
    writeResults returns (index + 1) vs

/-- Runs the rounds of a loop. -/
def runLoop (cond : Exec Bool) (body : Exec Flow) : Nat → Exec Flow
  | 0 => throw .exhausted
  | rounds + 1 => do
    if ← cond then
      match ← body with
      | .leave => pure .onward
      | .done => pure .done
      | .onward | .next => runLoop cond body rounds
    else pure .onward

mutual

/-- Runs a statement. -/
def Stmt.exec (code : Code) : Stmt → Exec Flow
  | .define name ty init? slot? => do
    let v ← match init? with
      | some init => init.eval code
      | none => pure ty.default
    let slot ← slotOf name slot?
    let _ ← frame
    let v ← ofExcept (v.bind ty)
    setSlot slot v
    pure .onward
  | .assign targets value => do
    assign code targets value
    pure .onward
  | .branch cond yes no => do
    if ← cond.holds code then execBlock code yes else execBlock code no
  | .loop cond body => runLoop (cond.holds code) (execBlock code body) code.rounds
  | .leave => pure .leave
  | .next => pure .next
  | .result values => do
    let vs ← resultValues code values
    let _ ← frame
    writeResults code.function.sig.returns 0 vs
    pure .done
  | .run e => do
    let _ ← e.results code
    pure .onward
  | .block body => execBlock code body

/-- Runs the statements of a block up to the first that ends it early. -/
def execBlock (code : Code) : List Stmt → Exec Flow
  | [] => pure .onward
  | s :: ss => do
    match ← s.exec code with
    | .onward => execBlock code ss
    | flow => pure flow

end

/-- Runs the body of a function on the frame of its call. -/
def Function.run (code : Code) : Exec Unit := do
  match ← execBlock code code.function.body with
  | .onward | .done => pure ()
  | .leave | .next => fault (.analyzerDefect .strayJump)

end FrameScript
