import FrameScript.Library.Standard
import FrameScript.Proofs.Exec
import FrameScript.Proofs.Subterms

set_option autoImplicit false
set_option linter.unusedSectionVars false

/-!
# One body served in two ways

A body leaves itself only through the calls it makes, and only its loops depend on how many rounds
they may take. Here two runs of one body are compared that differ in who serves the calls and in the
rounds. A relation of computations that every step of bodies bears to itself, and that sequences
inherit from their parts, relates the two runs if it relates the calls, and the loops if there are
any.

## Main definitions

* `Code.SameBody` — the same body, served in two ways.
* `Exec.CongruenceFor` — a relation of computations that all steps of expressions other than calls
  bear to themselves, and that sequences inherit from their parts.
* `Exec.CongruenceOf`, `Exec.Congruence` — the same for all steps of bodies, as long as they store
  results as these are declared, and whatever they store.
* `Exec.LoopsAlike` — a relation that loops of given rounds inherit from conditions and bodies.

## Main results

* `Exec.CongruenceFor.eval`, `Exec.CongruenceOf.exec`, `Exec.CongruenceOf.run` — what a congruence
  that relates the calls says about expressions, statements and whole bodies.
* `Exec.Congruence.native_run` — what it says about native units.
-/

namespace FrameScript

/-- The same body, whoever serves its calls and however many rounds its loops may take. -/
structure Code.SameBody (code code' : Code) : Prop where
  program : code'.program = code.program
  function : code'.function = code.function

theorem Code.SameBody.refl (code : Code) : code.SameBody code :=
  ⟨rfl, rfl⟩

namespace Exec

/-- A relation of computations that all steps of expressions other than calls bear to themselves, as
long as they stage arguments in the given slots only, and that sequences inherit from their
parts. -/
structure CongruenceFor (staged : Nat → Prop) (R : (α : Type) → Exec α → Exec α → Prop) :
    Prop where
  pure {α : Type} (a : α) : R α (pure a) (pure a)
  bind {α β : Type} {x y : Exec α} {f g : α → Exec β} :
    R α x y → (∀ a, R β (f a) (g a)) → R β (x >>= f) (y >>= g)
  fault {α : Type} (f : Fault) : R α (fault f) (fault f)
  heap : R Heap heap heap
  frame {α : Type} {x y : Exec α} : R α x y → R α (frame >>= fun _ => x) (frame >>= fun _ => y)
  getSlot (index : Nat) : R Value (getSlot index) (getSlot index)
  setTemp {index : Nat} (h : staged index) (v : Value) :
    R Unit (setTemp index v) (setTemp index v)
  takeTemp {index : Nat} (h : staged index) : R Value (takeTemp index) (takeTemp index)
  newArray (elem : Ty) (items : Array Value) :
    R Value (make (Heap.newArray elem items)) (make (Heap.newArray elem items))
  newMap (entries : Dict Value) :
    R Value (make (Heap.newMap entries)) (make (Heap.newMap entries))
  newStruct (name : String) (fields : List (String × Value)) :
    R Value (make (Heap.newStruct name fields)) (make (Heap.newStruct name fields))
  newConnector (name : String) (args : List Value) :
    R Value (make (Heap.newConnector name args)) (make (Heap.newConnector name args))
  newMessage (payload : String) :
    R Value (make (Heap.newMessage payload)) (make (Heap.newMessage payload))

/-- A relation of computations that all steps of bodies other than calls bear to themselves, as long
as they store results as the given types declare them, and that sequences inherit from their
parts. -/
structure CongruenceOf (returns : List Ty) (R : (α : Type) → Exec α → Exec α → Prop) : Prop
    extends CongruenceFor (fun _ => True) R where
  setSlot (index : Nat) (v : Value) : R Unit (setSlot index v) (setSlot index v)
  writeResults (index : Nat) (vs : List Value) :
    R Unit (writeResults returns index vs) (writeResults returns index vs)
  withElement (elem : Ty) (id index : Nat) (v : Value) :
    R Unit (modifyHeap (Heap.setArray id (Heap.withElement elem index v)))
      (modifyHeap (Heap.setArray id (Heap.withElement elem index v)))
  setEntry (id : Nat) (key : String) (v : Value) :
    R Unit (modifyHeap (Heap.setMap id (Dict.insert key v)))
      (modifyHeap (Heap.setMap id (Dict.insert key v)))
  withField (id : Nat) (name : String) (v : Value) :
    R Unit (modifyHeap (Heap.setStruct id (Heap.withField name v)))
      (modifyHeap (Heap.setStruct id (Heap.withField name v)))

/-- A relation of computations that all steps of bodies other than calls bear to themselves, and
that sequences inherit from their parts. -/
structure Congruence (R : (α : Type) → Exec α → Exec α → Prop) : Prop
    extends CongruenceFor (fun _ => True) R where
  setSlot (index : Nat) (v : Value) : R Unit (setSlot index v) (setSlot index v)
  setReturn (index : Nat) (v : Value) : R Unit (setReturn index v) (setReturn index v)
  withElement (elem : Ty) (id index : Nat) (v : Value) :
    R Unit (modifyHeap (Heap.setArray id (Heap.withElement elem index v)))
      (modifyHeap (Heap.setArray id (Heap.withElement elem index v)))
  setEntry (id : Nat) (key : String) (v : Value) :
    R Unit (modifyHeap (Heap.setMap id (Dict.insert key v)))
      (modifyHeap (Heap.setMap id (Dict.insert key v)))
  withField (id : Nat) (name : String) (v : Value) :
    R Unit (modifyHeap (Heap.setStruct id (Heap.withField name v)))
      (modifyHeap (Heap.setStruct id (Heap.withField name v)))

/-- A relation that loops of the given rounds inherit from their conditions and bodies. -/
def LoopsAlike (R : (α : Type) → Exec α → Exec α → Prop) (rounds rounds' : Nat) : Prop :=
  ∀ (cond cond' : Exec Bool) (body body' : Exec Flow), R Bool cond cond' → R Flow body body' →
    R Flow (runLoop cond body rounds) (runLoop cond' body' rounds')

namespace CongruenceFor

variable {staged : Nat → Prop} {R : (α : Type) → Exec α → Exec α → Prop}
  (h : CongruenceFor staged R)

include h

/-! ## Parts of evaluation -/

theorem ofExcept {α : Type} (r : Except Fault α) : R α (ofExcept r) (ofExcept r) := by
  cases r with
  | ok a => exact h.pure a
  | error f => exact h.fault f

/-- What follows a result that may be a fault only matters for results that are none. -/
theorem ofExcept_bind {α β : Type} (r : Except Fault α) {f g : α → Exec β}
    (hf : ∀ a, r = .ok a → R β (f a) (g a)) :
    R β (Exec.ofExcept r >>= f) (Exec.ofExcept r >>= g) := by
  cases r with
  | ok a => exact hf a rfl
  | error e => exact h.fault e

theorem slotOf (name : String) (slot? : Option Nat) :
    R Nat (slotOf name slot?) (slotOf name slot?) := by
  cases slot? with
  | some slot => exact h.pure slot
  | none => exact h.fault _

theorem takeTemps (stage count : Nat) (hstaged : ∀ i ∈ List.range' stage count, staged i) :
    R (List Value) (takeTemps stage count) (takeTemps stage count) := by
  induction count generalizing stage with
  | zero => exact h.pure []
  | succ count ih =>
    obtain ⟨hfirst, hrest⟩ := List.forall_mem_cons.mp hstaged
    exact h.bind (h.takeTemp hfirst) fun v => h.bind (ih (stage + 1) hrest) fun vs => h.pure _

theorem takeStaged (stage count : Nat) (hstaged : ∀ i ∈ List.range' stage count, staged i) :
    R (List Value) (takeStaged stage count) (takeStaged stage count) :=
  h.frame (h.takeTemps stage count hstaged)

theorem firstResult (vs : List Value) : R Value (firstResult vs) (firstResult vs) := by
  cases vs with
  | nil => exact h.fault _
  | cons v vs => exact h.pure v

theorem makeMessage (payload : Value) : R Value (makeMessage payload) (makeMessage payload) := by
  unfold FrameScript.makeMessage
  split
  · exact h.newMessage _
  · exact h.fault _

section Body

variable {code code' : Code} (hcode : code.SameBody code')
  (hcall : ∀ name unit, code.program.resolve name = .ok unit →
    ∀ args, R (List Value) (code.call unit args) (code'.call unit args))

include hcode hcall

theorem callNamed (callee : String) (stage count : Nat) {stageArgs stageArgs' : Exec Unit}
    (hstaged : ∀ i ∈ List.range' stage count, staged i) (hargs : R Unit stageArgs stageArgs') :
    R (List Value) (callNamed code callee stage count stageArgs)
      (callNamed code' callee stage count stageArgs') := by
  rw [FrameScript.callNamed, FrameScript.callNamed, hcode.program]
  refine h.ofExcept_bind _ fun unit hunit => h.bind hargs fun _ => ?_
  exact h.bind (h.takeStaged stage count hstaged) fun args => hcall _ unit hunit args

theorem callAction (target : Value) (action : String) (stage count : Nat)
    {stageArgs stageArgs' : Exec Unit}
    (hstaged : ∀ i ∈ List.range' stage (count + 1), staged i)
    (hargs : R Unit stageArgs stageArgs') :
    R (List Value) (callAction code target action stage count stageArgs)
      (callAction code' target action stage count stageArgs') := by
  have hfirst : staged stage := hstaged stage (by simp)
  refine h.bind (h.ofExcept _) fun name => h.bind (h.setTemp hfirst target) fun _ => ?_
  rw [hcode.program]
  refine h.bind hargs fun _ => h.ofExcept_bind _ fun unit hunit => ?_
  exact h.bind (h.takeStaged stage (count + 1) hstaged) fun args => hcall _ unit hunit args

/-! ## Expressions -/

mutual

/-- A congruence that relates the calls relates the two runs of every expression. -/
theorem eval (e : Expr) (hstaged : ∀ i ∈ e.staged, staged i) :
    R Value (e.eval code) (e.eval code') := by
  have hpart {part : Expr} (hpart : part ∈ e.parts) : ∀ i ∈ part.staged, staged i :=
    fun i hi => hstaged i (Expr.mem_staged_of_part hpart hi)
  have hown : ∀ i ∈ e.ownStaged, staged i := fun i hi => hstaged i (Expr.mem_staged_of_own hi)
  cases e with
  | int n => simpa only [Expr.eval] using h.pure _
  | float x => simpa only [Expr.eval] using h.pure _
  | bool b => simpa only [Expr.eval] using h.pure _
  | str s => simpa only [Expr.eval] using h.pure _
  | null => simpa only [Expr.eval] using h.pure _
  | json doc => simpa only [Expr.eval] using h.pure _
  | xml text => simpa only [Expr.eval] using h.pure _
  | var v =>
    simp only [Expr.eval]
    exact h.bind (h.slotOf v.name v.slot?) fun slot => h.getSlot slot
  | array elem items =>
    simp only [Expr.eval]
    exact h.bind (evalItems elem items fun x hx => hpart hx) fun vs => h.newArray elem vs.toArray
  | map entries =>
    simp only [Expr.eval]
    refine h.bind (evalEntries entries fun key x hx => ?_) fun vs => h.newMap _
    exact hpart (List.mem_map_of_mem hx)
  | struct name fields =>
    simp only [Expr.eval, hcode.program]
    split
    · exact h.fault _
    · refine h.bind (evalFields _ _ fields fun key x hx => ?_) fun vs => h.newStruct name vs
      exact hpart (List.mem_map_of_mem hx)
  | connector name args =>
    simp only [Expr.eval]
    exact h.bind (evalArgs args fun x hx => hpart hx) fun vs => h.newConnector name vs
  | message payload =>
    simp only [Expr.eval]
    exact h.bind (eval payload (hpart (by simp [Expr.parts]))) fun v => h.makeMessage v
  | index base key =>
    simp only [Expr.eval]
    refine h.bind (eval base (hpart (by simp [Expr.parts]))) fun container => ?_
    refine h.bind (eval key (hpart (by simp [Expr.parts]))) fun key => ?_
    exact h.bind h.heap fun heap => h.ofExcept _
  | field base name =>
    simp only [Expr.eval, hcode.program]
    refine h.bind (eval base (hpart (by simp [Expr.parts]))) fun target => ?_
    exact h.bind h.heap fun heap => h.ofExcept _
  | unary op operand =>
    simp only [Expr.eval]
    exact h.bind (eval operand (hpart (by simp [Expr.parts]))) fun v => h.ofExcept _
  | binary op left right =>
    simp only [Expr.eval]
    refine h.bind (eval left (hpart (by simp [Expr.parts]))) fun l => ?_
    split
    · exact h.pure _
    · refine h.bind (eval right (hpart (by simp [Expr.parts]))) fun r => ?_
      exact h.bind h.heap fun heap => h.ofExcept _
  | cast operand target =>
    simp only [Expr.eval]
    exact h.bind (eval operand (hpart (by simp [Expr.parts]))) fun v => h.ofExcept _
  | call callee args stage =>
    simp only [Expr.eval]
    have hargs := stageArgs stage args hown fun x hx => hpart hx
    exact h.bind (h.callNamed hcode hcall _ _ _ hown hargs) fun vs => h.firstResult vs
  | action target name args stage =>
    simp only [Expr.eval]
    refine h.bind (eval target (hpart List.mem_cons_self)) fun v => ?_
    have hargs := stageArgs (stage + 1) args (List.forall_mem_cons.mp hown).2
      fun x hx => hpart (List.mem_cons_of_mem _ hx)
    exact h.bind (h.callAction hcode hcall _ _ _ _ hown hargs) fun vs => h.firstResult vs

theorem evalItems (elem : Ty) (items : List Expr)
    (hstaged : ∀ x ∈ items, ∀ i ∈ x.staged, staged i) :
    R (List Value) (evalItems code elem items)
      (evalItems code' elem items) := by
  cases items with
  | nil => simpa only [FrameScript.evalItems] using h.pure _
  | cons e es =>
    simp only [FrameScript.evalItems]
    obtain ⟨hfirst, hrest⟩ := List.forall_mem_cons.mp hstaged
    refine h.bind (eval e hfirst) fun v => h.bind (h.ofExcept _) fun v => ?_
    exact h.bind (evalItems elem es hrest) fun vs => h.pure _

theorem evalEntries (entries : List (String × Expr))
    (hstaged : ∀ key x, (key, x) ∈ entries → ∀ i ∈ x.staged, staged i) :
    R (List (String × Value)) (evalEntries code entries)
      (evalEntries code' entries) := by
  cases entries with
  | nil => simpa only [FrameScript.evalEntries] using h.pure _
  | cons entry entries =>
    obtain ⟨key, e⟩ := entry
    simp only [FrameScript.evalEntries]
    refine h.bind (eval e (hstaged key e List.mem_cons_self)) fun v => ?_
    have hrest := evalEntries entries fun key x hx => hstaged key x (List.mem_cons_of_mem _ hx)
    exact h.bind hrest fun vs => h.pure _

theorem evalFields (decl : StructDecl) (fields : List (String × Value))
    (given : List (String × Expr))
    (hstaged : ∀ key x, (key, x) ∈ given → ∀ i ∈ x.staged, staged i) :
    R (List (String × Value)) (evalFields code decl fields given)
      (evalFields code' decl fields given) := by
  cases given with
  | nil => simpa only [FrameScript.evalFields] using h.pure _
  | cons entry rest =>
    obtain ⟨name, e⟩ := entry
    simp only [FrameScript.evalFields]
    refine h.bind (eval e (hstaged name e List.mem_cons_self)) fun v => ?_
    refine h.bind (h.ofExcept _) fun fields => ?_
    exact evalFields decl fields rest fun key x hx => hstaged key x (List.mem_cons_of_mem _ hx)

theorem evalArgs (args : List Expr) (hstaged : ∀ x ∈ args, ∀ i ∈ x.staged, staged i) :
    R (List Value) (evalArgs code args)
      (evalArgs code' args) := by
  cases args with
  | nil => simpa only [FrameScript.evalArgs] using h.pure _
  | cons e es =>
    simp only [FrameScript.evalArgs]
    obtain ⟨hfirst, hrest⟩ := List.forall_mem_cons.mp hstaged
    exact h.bind (eval e hfirst) fun v => h.bind (evalArgs es hrest) fun vs => h.pure _

theorem stageArgs (stage : Nat) (args : List Expr)
    (hown : ∀ i ∈ List.range' stage args.length, staged i)
    (hstaged : ∀ x ∈ args, ∀ i ∈ x.staged, staged i) :
    R Unit (stageArgs code stage args)
      (stageArgs code' stage args) := by
  cases args with
  | nil => simpa only [FrameScript.stageArgs] using h.pure _
  | cons e es =>
    simp only [FrameScript.stageArgs]
    obtain ⟨hfirst, hrest⟩ := List.forall_mem_cons.mp hstaged
    obtain ⟨hslot, hslots⟩ := List.forall_mem_cons.mp hown
    refine h.bind (eval e hfirst) fun v => h.bind (h.setTemp hslot v) fun _ => ?_
    exact stageArgs (stage + 1) es hslots hrest

end

theorem results (e : Expr) (hstaged : ∀ i ∈ e.staged, staged i) :
    R (List Value) (e.results code) (e.results code') := by
  have hpart {part : Expr} (hpart : part ∈ e.parts) : ∀ i ∈ part.staged, staged i :=
    fun i hi => hstaged i (Expr.mem_staged_of_part hpart hi)
  have hown : ∀ i ∈ e.ownStaged, staged i := fun i hi => hstaged i (Expr.mem_staged_of_own hi)
  unfold Expr.results
  split
  · exact h.callNamed hcode hcall _ _ _ hown (h.stageArgs hcode hcall _ _ hown fun x hx => hpart hx)
  · refine h.bind (h.eval hcode hcall _ (hpart List.mem_cons_self)) fun v => ?_
    refine h.callAction hcode hcall _ _ _ _ hown (h.stageArgs hcode hcall _ _ ?_ fun x hx => ?_)
    · exact (List.forall_mem_cons.mp hown).2
    · exact hpart (List.mem_cons_of_mem _ hx)
  · exact h.bind (h.eval hcode hcall _ hstaged) fun v => h.pure _

end Body

/-- Loops of the same rounds are alike if running out of rounds is. -/
theorem loopsAlike (hexhausted : R Flow (throw .exhausted) (throw .exhausted)) (rounds : Nat) :
    LoopsAlike R rounds rounds := by
  intro cond cond' body body' hcond hbody
  induction rounds with
  | zero => exact hexhausted
  | succ rounds ih =>
    refine h.bind hcond fun b => ?_
    split
    · refine h.bind hbody fun flow => ?_
      cases flow with
      | leave => exact h.pure _
      | done => exact h.pure _
      | onward => exact ih
      | next => exact ih
    · exact h.pure _

end CongruenceFor

namespace CongruenceOf

variable {returns : List Ty} {R : (α : Type) → Exec α → Exec α → Prop} (h : CongruenceOf returns R)

include h

section Body

variable {code code' : Code} (hcode : code.SameBody code')
  (hcall : ∀ name unit, code.program.resolve name = .ok unit →
    ∀ args, R (List Value) (code.call unit args) (code'.call unit args))

include hcode hcall

theorem eval (e : Expr) :
    R Value (e.eval code) (e.eval code') :=
  h.toCongruenceFor.eval hcode hcall e fun _ _ => trivial

theorem evalArgs (args : List Expr) :
    R (List Value) (evalArgs code args)
      (evalArgs code' args) :=
  h.toCongruenceFor.evalArgs hcode hcall args fun _ _ _ _ => trivial

theorem results (e : Expr) :
    R (List Value) (e.results code) (e.results code') :=
  h.toCongruenceFor.results hcode hcall e fun _ _ => trivial

theorem holds (cond : Expr) :
    R Bool (cond.holds code) (cond.holds code') := by
  refine h.bind (h.eval hcode hcall cond) fun v => ?_
  split
  · exact h.pure _
  · exact h.fault _

/-! ## Assignments -/

theorem write (v : Value) (target : Target) :
    R Unit (target.write code v) (target.write code' v) := by
  cases target with
  | var x =>
    simp only [Target.write, hcode.function]
    refine h.bind (h.slotOf _ _) fun slot => h.bind (h.ofExcept _) fun v => ?_
    exact h.setSlot slot v
  | index base key =>
    refine h.bind (h.eval hcode hcall base) fun container => ?_
    refine h.bind (h.eval hcode hcall key) fun key => ?_
    split
    · exact h.fault _
    · refine h.bind (h.ofExcept _) fun index => h.bind (h.ofExcept _) fun v => ?_
      unfold storeElement
      split
      · exact h.withElement _ _ _ _
      · exact h.bind h.heap fun heap => h.fault _
    · exact h.bind (h.ofExcept _) fun key => h.setEntry _ _ _
    · exact h.fault _
  | field base name =>
    simp only [Target.write, hcode.program]
    refine h.bind (h.eval hcode hcall base) fun container => ?_
    split
    · exact h.fault _
    · refine h.bind (h.ofExcept _) fun v => h.bind h.heap fun heap => ?_
      split
      · exact h.withField _ _ _
      · exact h.fault _
    · exact h.fault _

theorem writeAll (targets : List Target) (vs : List Value) :
    R Unit (writeAll code targets vs)
      (writeAll code' targets vs) := by
  induction targets generalizing vs with
  | nil => exact h.pure ()
  | cons t ts ih =>
    cases vs with
    | nil => exact h.pure ()
    | cons v vs => exact h.bind (h.write hcode hcall v t) fun _ => ih vs

theorem assign (targets : List Target) (value : Expr) :
    R Unit (assign code targets value)
      (assign code' targets value) := by
  unfold FrameScript.assign
  split
  · exact h.bind (h.eval hcode hcall value) fun v => h.write hcode hcall v _
  · refine h.bind (h.results hcode hcall value) fun vs => ?_
    split
    · exact h.fault _
    · exact h.writeAll hcode hcall _ vs

/-! ## Statements -/

theorem resultValues (values : List Expr) :
    R (List Value) (resultValues code values)
      (resultValues code' values) := by
  unfold FrameScript.resultValues
  rw [hcode.function]
  split
  · exact h.results hcode hcall _
  · exact h.evalArgs hcode hcall _

variable (hreturns : code.function.sig.returns = returns)

include hreturns

mutual

/-- A congruence that relates the calls, and the loops if there are any, relates the two runs of
every statement. -/
theorem exec (s : Stmt)
    (hloops : ∀ cond body, Stmt.loop cond body ∈ s.withInner →
      LoopsAlike R code.rounds code'.rounds) :
    R Flow (s.exec code) (s.exec code') := by
  have hinner {ss : List Stmt} (hss : ∀ st ∈ ss, st ∈ s.inner) :
      ∀ cond body, Stmt.loop cond body ∈ statementsOf ss →
        LoopsAlike R code.rounds code'.rounds := by
    intro cond body hmem
    obtain ⟨st, hst, hmem⟩ := exists_of_mem_statementsOf hmem
    exact hloops cond body (Stmt.mem_withInner (hss st hst) hmem)
  cases s with
  | define name ty init? slot? =>
    have hset (v : Value) : R Flow
        (do
          let slot ← FrameScript.slotOf name slot?
          let _ ← Exec.frame
          let v ← Exec.ofExcept (v.bind ty)
          Exec.setSlot slot v
          Pure.pure .onward)
        (do
          let slot ← FrameScript.slotOf name slot?
          let _ ← Exec.frame
          let v ← Exec.ofExcept (v.bind ty)
          Exec.setSlot slot v
          Pure.pure .onward) := by
      refine h.bind (h.slotOf name slot?) fun slot => h.frame ?_
      refine h.bind (h.ofExcept _) fun v => h.bind (h.setSlot slot v) fun _ => ?_
      exact h.pure _
    simp only [Stmt.exec]
    cases init? with
    | none => exact h.bind (h.pure _) hset
    | some init => exact h.bind (h.eval hcode hcall init) hset
  | assign targets value =>
    simp only [Stmt.exec]
    exact h.bind (h.assign hcode hcall targets value) fun _ => h.pure _
  | branch cond yes no =>
    simp only [Stmt.exec]
    refine h.bind (h.holds hcode hcall cond) fun b => ?_
    split
    · exact execBlock yes (hinner fun _ hst => List.mem_append_left _ hst)
    · exact execBlock no (hinner fun _ hst => List.mem_append_right _ hst)
  | loop cond body =>
    simp only [Stmt.exec]
    have hbody := execBlock body (hinner fun _ hst => hst)
    exact hloops cond body (Stmt.mem_withInner_self _) _ _ _ _ (h.holds hcode hcall cond) hbody
  | leave => simpa only [Stmt.exec] using h.pure _
  | next => simpa only [Stmt.exec] using h.pure _
  | result values =>
    simp only [Stmt.exec, hcode.function, hreturns]
    refine h.bind (h.resultValues hcode hcall values) fun vs => h.frame ?_
    exact h.bind (h.writeResults _ vs) fun _ => h.pure _
  | run e =>
    simp only [Stmt.exec]
    exact h.bind (h.results hcode hcall e) fun _ => h.pure _
  | block body =>
    simp only [Stmt.exec]
    exact execBlock body (hinner fun _ hst => hst)

theorem execBlock (ss : List Stmt)
    (hloops : ∀ cond body, Stmt.loop cond body ∈ statementsOf ss →
      LoopsAlike R code.rounds code'.rounds) :
    R Flow (execBlock code ss) (execBlock code' ss) := by
  cases ss with
  | nil => simpa only [FrameScript.execBlock] using h.pure _
  | cons s ss =>
    simp only [FrameScript.execBlock]
    refine h.bind (exec s fun cond body hmem => ?_) fun flow => ?_
    · exact hloops cond body (List.mem_append_left _ hmem)
    · split
      · exact execBlock ss fun cond body hmem => hloops cond body (List.mem_append_right _ hmem)
      · exact h.pure _

end

/-- A congruence that relates the calls, and the loops if there are any, relates the two runs of
every body. -/
theorem run
    (hloops : ∀ cond body, Stmt.loop cond body ∈ statementsOf code.function.body →
      LoopsAlike R code.rounds code'.rounds) :
    R Unit (Function.run code) (Function.run code') := by
  rw [Function.run, Function.run, hcode.function]
  refine h.bind (h.execBlock hcode hcall hreturns _ hloops) fun flow => ?_
  split
  · exact h.pure ()
  · exact h.pure ()
  · exact h.fault _
  · exact h.fault _

end Body

end CongruenceOf

namespace Congruence

variable {R : (α : Type) → Exec α → Exec α → Prop} (h : Congruence R)

include h

theorem storeResults (unit : NativeUnit) (index : Nat) (vs : List Value) (tys : List Ty) :
    R Unit (storeResults unit index vs tys) (storeResults unit index vs tys) := by
  induction vs generalizing index tys with
  | nil => exact h.pure ()
  | cons v vs ih =>
    cases tys with
    | nil => exact h.pure ()
    | cons ty tys =>
      refine h.bind (h.ofExcept _) fun v => h.bind (h.setReturn index v) fun _ => ?_
      exact ih (index + 1) tys

theorem writeResults (returns : List Ty) (index : Nat) (vs : List Value) :
    R Unit (writeResults returns index vs) (writeResults returns index vs) := by
  induction vs generalizing index with
  | nil => exact h.pure ()
  | cons v vs ih =>
    refine h.bind (h.ofExcept _) fun v => h.bind (h.setReturn index v) fun _ => ?_
    exact ih (index + 1)

/-- A relation that the steps of bodies bear to themselves, whatever results they store. -/
theorem of (returns : List Ty) : CongruenceOf returns R where
  toCongruenceFor := h.toCongruenceFor
  setSlot := h.setSlot
  writeResults := h.writeResults returns
  withElement := h.withElement
  setEntry := h.setEntry
  withField := h.withField

section Body

variable {code code' : Code} (hcode : code.SameBody code')
  (hcall : ∀ name unit, code.program.resolve name = .ok unit →
    ∀ args, R (List Value) (code.call unit args) (code'.call unit args))

include hcode hcall

theorem eval (e : Expr) : R Value (e.eval code) (e.eval code') :=
  (h.of []).eval hcode hcall e

theorem evalArgs (args : List Expr) :
    R (List Value) (evalArgs code args) (evalArgs code' args) :=
  (h.of []).evalArgs hcode hcall args

theorem results (e : Expr) : R (List Value) (e.results code) (e.results code') :=
  (h.of []).results hcode hcall e

theorem holds (cond : Expr) : R Bool (cond.holds code) (cond.holds code') :=
  (h.of []).holds hcode hcall cond

theorem write (v : Value) (target : Target) :
    R Unit (target.write code v) (target.write code' v) :=
  (h.of []).write hcode hcall v target

theorem writeAll (targets : List Target) (vs : List Value) :
    R Unit (writeAll code targets vs) (writeAll code' targets vs) :=
  (h.of []).writeAll hcode hcall targets vs

theorem resultValues (values : List Expr) :
    R (List Value) (resultValues code values) (resultValues code' values) :=
  (h.of []).resultValues hcode hcall values

/-- A congruence that relates the calls, and the loops if there are any, relates the two runs of
every statement. -/
theorem exec (s : Stmt)
    (hloops : ∀ cond body, Stmt.loop cond body ∈ s.withInner →
      LoopsAlike R code.rounds code'.rounds) :
    R Flow (s.exec code) (s.exec code') :=
  (h.of _).exec hcode hcall rfl s hloops

theorem execBlock (ss : List Stmt)
    (hloops : ∀ cond body, Stmt.loop cond body ∈ statementsOf ss →
      LoopsAlike R code.rounds code'.rounds) :
    R Flow (execBlock code ss) (execBlock code' ss) :=
  (h.of _).execBlock hcode hcall rfl ss hloops

/-- A congruence that relates the calls, and the loops if there are any, relates the two runs of
every body. -/
theorem run
    (hloops : ∀ cond body, Stmt.loop cond body ∈ statementsOf code.function.body →
      LoopsAlike R code.rounds code'.rounds) :
    R Unit (Function.run code) (Function.run code') :=
  (h.of _).run hcode hcall rfl hloops

end Body

/-! ## Native units -/

/-- A congruence that relates what a handler does to itself does so for the whole unit. -/
theorem native_run {unit : NativeUnit} (hframe : R Frame frame frame)
    (hunit : unit.handler.Has fun _ run => R _ run run) : R Unit unit.run unit.run := by
  unfold Handler.Has at hunit
  unfold NativeUnit.run
  split <;> rename_i run heq <;> rw [heq] at hunit
  · refine h.bind hunit fun vs => h.bind hframe fun f => ?_
    split
    · exact h.fault _
    · exact h.storeResults unit 0 vs _
  · refine h.bind hunit fun v => ?_
    split
    · exact h.bind (h.ofExcept _) fun v => h.setReturn 0 v
    · exact h.pure ()

end Congruence

end Exec

end FrameScript
