import FrameScript.Proofs.Congruence

set_option autoImplicit false

/-!
# Properties that every body has

A body is put together from a handful of steps: reading and writing the frame of its call, making
and changing objects, failing, and calling others. A property of computations that these steps have
and that survives sequencing is therefore a property of every expression, statement and body. It is
a congruence that takes no notice of the second of two computations, so nothing is to be shown here
along expressions and statements again.

## Main definitions

* `Exec.ClosedFor` — a property of computations that all steps of expressions other than calls
  have, and that sequences inherit from their parts.
* `Exec.Closed` — a property of computations that all steps of bodies other than calls have.
* `Library.ClosedFor`, `Library.Closed` — a property that the steps of the standard library have, on
  the types of the parameters or whatever these are.

## Main results

* `Exec.ClosedFor.eval`, `Exec.Closed.exec`, `Exec.Closed.run` — what a closed property of all
  calls says about expressions, statements and whole bodies.
* `Exec.Closed.native_run` — what it says about native units.
* `Library.ClosedFor.handler` — what holds of the steps of the standard library holds of its units.
-/

namespace FrameScript

namespace Exec

/-- A property of computations that all steps of expressions other than calls have, as long as they
stage arguments in the given slots only, and that sequences inherit from their parts. -/
structure ClosedFor (staged : Nat → Prop) (P : (α : Type) → Exec α → Prop) : Prop where
  pure {α : Type} (a : α) : P α (pure a)
  bind {α β : Type} {x : Exec α} {f : α → Exec β} : P α x → (∀ a, P β (f a)) → P β (x >>= f)
  fault {α : Type} (f : Fault) : P α (fault f)
  heap : P Heap heap
  frame {α : Type} {x : Exec α} : P α x → P α (frame >>= fun _ => x)
  getSlot (index : Nat) : P Value (getSlot index)
  setTemp {index : Nat} (h : staged index) (v : Value) : P Unit (setTemp index v)
  takeTemp {index : Nat} (h : staged index) : P Value (takeTemp index)
  newArray (elem : Ty) (items : Array Value) : P Value (make (Heap.newArray elem items))
  newMap (entries : Dict Value) : P Value (make (Heap.newMap entries))
  newStruct (name : String) (fields : List (String × Value)) :
    P Value (make (Heap.newStruct name fields))
  newConnector (name : String) (args : List Value) : P Value (make (Heap.newConnector name args))
  newMessage (payload : String) : P Value (make (Heap.newMessage payload))

/-- A property of computations that all steps of bodies other than calls have, and that sequences
inherit from their parts. -/
structure Closed (P : (α : Type) → Exec α → Prop) : Prop extends ClosedFor (fun _ => True) P where
  exhausted {α : Type} : P α (throw .exhausted)
  setSlot (index : Nat) (v : Value) : P Unit (setSlot index v)
  setReturn (index : Nat) (v : Value) : P Unit (setReturn index v)
  withElement (elem : Ty) (id index : Nat) (v : Value) :
    P Unit (modifyHeap (Heap.setArray id (Heap.withElement elem index v)))
  setEntry (id : Nat) (key : String) (v : Value) :
    P Unit (modifyHeap (Heap.setMap id (Dict.insert key v)))
  withField (id : Nat) (name : String) (v : Value) :
    P Unit (modifyHeap (Heap.setStruct id (Heap.withField name v)))

namespace ClosedFor

variable {staged : Nat → Prop} {P : (α : Type) → Exec α → Prop} (h : ClosedFor staged P)

include h

/-- A property of computations as a relation that takes no notice of the second one. -/
theorem congruenceFor : CongruenceFor staged fun α x _ => P α x where
  pure := h.pure
  bind hx hk := h.bind hx hk
  fault := h.fault
  heap := h.heap
  frame hx := h.frame hx
  getSlot := h.getSlot
  setTemp := h.setTemp
  takeTemp := h.takeTemp
  newArray := h.newArray
  newMap := h.newMap
  newStruct := h.newStruct
  newConnector := h.newConnector
  newMessage := h.newMessage

theorem ofExcept {α : Type} (r : Except Fault α) : P α (ofExcept r) :=
  h.congruenceFor.ofExcept r

section Body

variable {code : Code} (hcall : ∀ name unit, code.program.resolve name = .ok unit →
  ∀ args, P (List Value) (code.call unit args))

include hcall

/-- A closed property of all calls is one of every expression. -/
theorem eval (e : Expr) (hstaged : ∀ i ∈ e.staged, staged i) : P Value (e.eval code) :=
  h.congruenceFor.eval (.refl code) hcall e hstaged

theorem results (e : Expr) (hstaged : ∀ i ∈ e.staged, staged i) :
    P (List Value) (e.results code) :=
  h.congruenceFor.results (.refl code) hcall e hstaged

end Body

end ClosedFor

/-- Two closed properties together are closed. -/
theorem Closed.and {P Q : (α : Type) → Exec α → Prop} (hP : Closed P) (hQ : Closed Q) :
    Closed fun α x => P α x ∧ Q α x where
  pure a := ⟨hP.pure a, hQ.pure a⟩
  bind hx hk := ⟨hP.bind hx.1 fun a => (hk a).1, hQ.bind hx.2 fun a => (hk a).2⟩
  fault f := ⟨hP.fault f, hQ.fault f⟩
  exhausted := ⟨hP.exhausted, hQ.exhausted⟩
  heap := ⟨hP.heap, hQ.heap⟩
  frame h := ⟨hP.frame h.1, hQ.frame h.2⟩
  getSlot i := ⟨hP.getSlot i, hQ.getSlot i⟩
  setSlot i v := ⟨hP.setSlot i v, hQ.setSlot i v⟩
  setTemp h v := ⟨hP.setTemp h v, hQ.setTemp h v⟩
  takeTemp h := ⟨hP.takeTemp h, hQ.takeTemp h⟩
  setReturn i v := ⟨hP.setReturn i v, hQ.setReturn i v⟩
  newArray elem items := ⟨hP.newArray elem items, hQ.newArray elem items⟩
  newMap entries := ⟨hP.newMap entries, hQ.newMap entries⟩
  newStruct name fields := ⟨hP.newStruct name fields, hQ.newStruct name fields⟩
  newConnector name args := ⟨hP.newConnector name args, hQ.newConnector name args⟩
  newMessage payload := ⟨hP.newMessage payload, hQ.newMessage payload⟩
  withElement elem id i v := ⟨hP.withElement elem id i v, hQ.withElement elem id i v⟩
  setEntry id key v := ⟨hP.setEntry id key v, hQ.setEntry id key v⟩
  withField id name v := ⟨hP.withField id name v, hQ.withField id name v⟩

namespace Closed

variable {P : (α : Type) → Exec α → Prop} (h : Closed P)

include h

/-- A property of computations as a relation that takes no notice of the second one. -/
theorem congruence : Congruence fun α x _ => P α x where
  toCongruenceFor := h.toClosedFor.congruenceFor
  setSlot := h.setSlot
  setReturn := h.setReturn
  withElement := h.withElement
  setEntry := h.setEntry
  withField := h.withField

theorem loopsAlike (rounds : Nat) : LoopsAlike (fun α x _ => P α x) rounds rounds :=
  h.congruence.loopsAlike h.exhausted rounds

section Body

variable {code : Code} (hcall : ∀ name unit, code.program.resolve name = .ok unit →
  ∀ args, P (List Value) (code.call unit args))

include hcall

/-- A closed property of all calls is one of every expression. -/
theorem eval (e : Expr) : P Value (e.eval code) :=
  h.congruence.eval (.refl code) hcall e

theorem evalItems (elem : Ty) (items : List Expr) :
    P (List Value) (evalItems code elem items) :=
  h.congruence.evalItems (.refl code) hcall elem items fun _ _ _ _ => trivial

theorem evalEntries (entries : List (String × Expr)) :
    P (List (String × Value)) (evalEntries code entries) :=
  h.congruence.evalEntries (.refl code) hcall entries fun _ _ _ _ _ => trivial

theorem evalFields (decl : StructDecl) (fields : List (String × Value))
    (given : List (String × Expr)) :
    P (List (String × Value)) (evalFields code decl fields given) :=
  h.congruence.evalFields (.refl code) hcall decl fields given fun _ _ _ _ _ => trivial

theorem evalArgs (args : List Expr) : P (List Value) (evalArgs code args) :=
  h.congruence.evalArgs (.refl code) hcall args

theorem stageArgs (stage : Nat) (args : List Expr) : P Unit (stageArgs code stage args) :=
  h.congruence.stageArgs (.refl code) hcall stage args (fun _ _ => trivial) fun _ _ _ _ => trivial

theorem results (e : Expr) : P (List Value) (e.results code) :=
  h.congruence.results (.refl code) hcall e

theorem holds (cond : Expr) : P Bool (cond.holds code) :=
  h.congruence.holds (.refl code) hcall cond

theorem write (v : Value) (target : Target) : P Unit (target.write code v) :=
  h.congruence.write (.refl code) hcall v target

theorem writeAll (targets : List Target) (vs : List Value) : P Unit (writeAll code targets vs) :=
  h.congruence.writeAll (.refl code) hcall targets vs

theorem resultValues (values : List Expr) : P (List Value) (resultValues code values) :=
  h.congruence.resultValues (.refl code) hcall values

/-- A closed property of all calls is one of every statement. -/
theorem exec (s : Stmt) : P Flow (s.exec code) :=
  h.congruence.exec (.refl code) hcall s fun _ _ _ => h.loopsAlike code.rounds

theorem execBlock (ss : List Stmt) : P Flow (execBlock code ss) :=
  h.congruence.execBlock (.refl code) hcall ss fun _ _ _ => h.loopsAlike code.rounds

/-- A closed property of the calls is one of the rounds of a loop. -/
theorem runLoop (cond : Expr) (body : List Stmt) (rounds : Nat) :
    P Flow (runLoop (cond.holds code) (FrameScript.execBlock code body) rounds) :=
  h.loopsAlike rounds _ (cond.holds code) _ (FrameScript.execBlock code body) (h.holds hcall cond)
    (h.execBlock hcall body)

/-- A closed property of all calls is one of every body. -/
theorem run : P Unit (Function.run code) :=
  h.congruence.run (.refl code) hcall fun _ _ _ => h.loopsAlike code.rounds

end Body

end Closed

/-- A relation that computations with a closed property bear to themselves, and that sequences
inherit from their parts, is a congruence. -/
theorem Congruence.of_closed {P : (α : Type) → Exec α → Prop} (h : Closed P)
    (hframe : P Frame Exec.frame) {R : (α : Type) → Exec α → Exec α → Prop}
    (hrefl : ∀ {α : Type} {x : Exec α}, P α x → R α x x)
    (hbind : ∀ {α β : Type} {x y : Exec α} {f g : α → Exec β},
      R α x y → (∀ a, R β (f a) (g a)) → R β (x >>= f) (y >>= g)) : Congruence R where
  pure a := hrefl (h.pure a)
  bind := hbind
  fault f := hrefl (h.fault f)
  heap := hrefl h.heap
  frame hx := hbind (hrefl hframe) fun _ => hx
  getSlot index := hrefl (h.getSlot index)
  setSlot index v := hrefl (h.setSlot index v)
  setTemp hi v := hrefl (h.setTemp hi v)
  takeTemp hi := hrefl (h.takeTemp hi)
  setReturn index v := hrefl (h.setReturn index v)
  newArray elem items := hrefl (h.newArray elem items)
  newMap entries := hrefl (h.newMap entries)
  newStruct name fields := hrefl (h.newStruct name fields)
  newConnector name args := hrefl (h.newConnector name args)
  newMessage payload := hrefl (h.newMessage payload)
  withElement elem id index v := hrefl (h.withElement elem id index v)
  setEntry id key v := hrefl (h.setEntry id key v)
  withField id name v := hrefl (h.withField id name v)

end Exec

/-! ## Native units -/

open Exec

/-- A property of bodies that handlers have is one of native units. -/
theorem Exec.Closed.native_run {P : (α : Type) → Exec α → Prop} (h : Closed P)
    (hframe : P Frame frame) {unit : NativeUnit} (hunit : unit.handler.Has P) :
    P Unit unit.run :=
  h.congruence.native_run hframe hunit

section Readings

variable {v : Value}

/-! ### Values that are read as what they are -/

theorem Value.isSome_str? (h : v.ty = .string) : v.str?.isSome = true := by
  cases v <;> simp_all [Value.ty, Value.str?]

theorem Value.isSome_int? (h : v.ty = .int) : v.int?.isSome = true := by
  cases v <;> simp_all [Value.ty, Value.int?]

theorem Value.isSome_bool? (h : v.ty = .boolean) : v.bool?.isSome = true := by
  cases v <;> simp_all [Value.ty, Value.bool?]

theorem isSome_exactFloat? (h : v.ty = .float) : (exactFloat? v).isSome = true := by
  cases v <;> simp_all [Value.ty, exactFloat?]

end Readings

namespace Library

/-- A property of computations that the steps of units of the standard library have, by the types of
the parameters of the unit, and that sequences inherit from their parts. A unit reads arguments as
what their parameters are declared as. -/
structure ClosedFor (P : List Ty → (α : Type) → Exec α → Prop) : Prop where
  pure {params : List Ty} {α : Type} (a : α) : P params α (pure a)
  bind {params : List Ty} {α β : Type} {x : Exec α} {f : α → Exec β} :
    P params α x → (∀ a, P params β (f a)) → P params β (x >>= f)
  hostError {params : List Ty} {α : Type} (message : String) : P params α (hostError message)
  argument {params : List Ty} (index : Nat) : P params Value (argument index)
  argumentAs {params : List Ty} {α : Type} {read : Value → Option α} {ty : Ty} {index : Nat}
    (hread : ∀ v, v.ty = ty → (read v).isSome = true) (hvalue : ty.isValueType = true)
    (hparam : params[index]? = some ty) : P params α (argumentAs read ty index)
  heap {params : List Ty} : P params Heap heap
  newArray {params : List Ty} (elem : Ty) (items : Array Value) :
    P params Value (make (Heap.newArray elem items))
  eraseEntry {params : List Ty} (id : Nat) (key : String) :
    P params Unit (modifyHeap (Heap.setMap id (Dict.erase key)))
  print {params : List Ty} (s : String) : P params Unit (print s)
  property? {params : List Ty} (key : String) : P params (Option String) (property? key)

namespace ClosedFor

variable {P : List Ty → (α : Type) → Exec α → Prop} (h : ClosedFor P) {params : List Ty}

include h

theorem stringArgument {index : Nat} (hparam : params[index]? = some .string) :
    P params String (stringArgument index) :=
  h.argumentAs (fun _ => Value.isSome_str?) rfl hparam

theorem intArgument {index : Nat} (hparam : params[index]? = some .int) :
    P params Int64 (intArgument index) :=
  h.argumentAs (fun _ => Value.isSome_int?) rfl hparam

theorem floatArgument {index : Nat} (hparam : params[index]? = some .float) :
    P params Float (floatArgument index) :=
  h.argumentAs (fun _ => isSome_exactFloat?) rfl hparam

theorem boolArgument {index : Nat} (hparam : params[index]? = some .boolean) :
    P params Bool (boolArgument index) :=
  h.argumentAs (fun _ => Value.isSome_bool?) rfl hparam

theorem mapArgument (index : Nat) : P params Nat (mapArgument index) := by
  refine h.bind (h.argument index) fun v => ?_
  split
  · exact h.pure _
  · exact h.hostError _

/-- A unit of the string package reads its arguments and computes its results from them. -/
theorem of_strings {unit : NativeUnit} (hunit : unit ∈ strings.units) :
    unit.handler.Has (P unit.sig.paramTypes) := by
  simp only [strings, List.mem_cons, List.not_mem_nil, or_false] at hunit
  rcases hunit with rfl | rfl | rfl | rfl | rfl | rfl | rfl
  · exact h.bind (h.intArgument rfl) fun _ => h.pure _
  · exact h.bind (h.floatArgument rfl) fun _ => h.pure _
  · exact h.bind (h.boolArgument rfl) fun _ => h.pure _
  · exact h.bind (h.stringArgument rfl) fun _ => h.pure _
  · exact h.bind (h.stringArgument rfl) fun _ => h.pure _
  · exact h.bind (h.stringArgument rfl) fun _ => h.pure _
  · exact h.bind (h.stringArgument rfl) fun _ => h.bind (h.stringArgument rfl) fun _ => h.pure _

theorem of_arrays {unit : NativeUnit} (hunit : unit ∈ arrays.units) :
    unit.handler.Has (P unit.sig.paramTypes) := by
  simp only [arrays, List.mem_cons, List.not_mem_nil, or_false] at hunit
  subst hunit
  refine h.bind (h.argument 0) fun v => ?_
  split
  · exact h.bind h.heap fun _ => h.pure _
  · exact h.hostError _

theorem of_maps {unit : NativeUnit} (hunit : unit ∈ maps.units) :
    unit.handler.Has (P unit.sig.paramTypes) := by
  simp only [maps, List.mem_cons, List.not_mem_nil, or_false] at hunit
  rcases hunit with rfl | rfl | rfl
  · refine h.bind (h.mapArgument 0) fun id => h.bind h.heap fun heap => ?_
    exact h.bind (h.newArray _ _) fun v => h.pure _
  · refine h.bind (h.mapArgument 0) fun id => h.bind (h.stringArgument rfl) fun key => ?_
    exact h.bind h.heap fun heap => h.pure _
  · refine h.bind (h.mapArgument 0) fun id => h.bind (h.stringArgument rfl) fun key => ?_
    exact h.bind (h.eraseEntry _ _) fun _ => h.pure _

theorem of_system {unit : NativeUnit} (hunit : unit ∈ system.units) :
    unit.handler.Has (P unit.sig.paramTypes) := by
  simp only [system, List.mem_cons, List.not_mem_nil, or_false] at hunit
  rcases hunit with rfl | rfl | rfl
  · exact h.bind (h.stringArgument rfl) fun s => h.bind (h.print _) fun _ => h.pure _
  · exact h.bind (h.stringArgument rfl) fun s => h.bind (h.print _) fun _ => h.pure _
  · exact h.bind (h.stringArgument rfl) fun s => h.bind (h.property? _) fun _ => h.pure _

theorem of_convertors {unit : NativeUnit} (hunit : unit ∈ convertors.units) :
    unit.handler.Has (P unit.sig.paramTypes) := by
  simp only [convertors, List.mem_cons, List.not_mem_nil, or_false] at hunit
  rcases hunit with rfl | rfl | rfl | rfl
  · refine h.bind (h.argument 0) fun v => ?_
    split
    · exact h.pure _
    · exact h.hostError _
  · refine h.bind (h.argument 0) fun v => ?_
    split
    · exact h.pure _
    · exact h.hostError _
  · refine h.bind (h.stringArgument rfl) fun s => ?_
    split
    · exact h.pure _
    · exact h.hostError _
  · exact h.bind (h.stringArgument rfl) fun s => h.pure _

/-- What holds of the steps of the standard library holds of all its units. -/
theorem handler {package : NativePackage} (hpackage : package ∈ packages) {unit : NativeUnit}
    (hunit : unit ∈ package.units) : unit.handler.Has (P unit.sig.paramTypes) := by
  simp only [packages, List.mem_cons, List.not_mem_nil, or_false] at hpackage
  rcases hpackage with rfl | rfl | rfl | rfl | rfl
  · exact h.of_strings hunit
  · exact h.of_arrays hunit
  · exact h.of_maps hunit
  · exact h.of_system hunit
  · exact h.of_convertors hunit

end ClosedFor

/-- A property of computations that the steps of the standard library have, whatever the arguments
are, and that sequences inherit from their parts. -/
structure Closed (P : (α : Type) → Exec α → Prop) : Prop where
  pure {α : Type} (a : α) : P α (pure a)
  bind {α β : Type} {x : Exec α} {f : α → Exec β} : P α x → (∀ a, P β (f a)) → P β (x >>= f)
  hostError {α : Type} (message : String) : P α (hostError message)
  defect {α : Type} (d : Defect) : P α (fault (.analyzerDefect d))
  argument (index : Nat) : P Value (argument index)
  heap : P Heap heap
  newArray (elem : Ty) (items : Array Value) : P Value (make (Heap.newArray elem items))
  eraseEntry (id : Nat) (key : String) : P Unit (modifyHeap (Heap.setMap id (Dict.erase key)))
  print (s : String) : P Unit (print s)
  property? (key : String) : P (Option String) (property? key)

namespace Closed

variable {P : (α : Type) → Exec α → Prop} (h : Closed P)

include h

theorem closedFor : ClosedFor fun _ => P where
  pure := h.pure
  bind := h.bind
  hostError := h.hostError
  argument := h.argument
  argumentAs _ _ _ := by
    refine h.bind (h.argument _) fun v => ?_
    split
    · exact h.pure _
    · exact h.defect _
  heap := h.heap
  newArray := h.newArray
  eraseEntry := h.eraseEntry
  print := h.print
  property? := h.property?

/-- What holds of the steps of the standard library holds of all its units. -/
theorem handler {package : NativePackage} (hpackage : package ∈ packages) {unit : NativeUnit}
    (hunit : unit ∈ package.units) : unit.handler.Has P :=
  h.closedFor.handler hpackage hunit

end Closed

end Library

end FrameScript
