import FrameScript.Proofs.Frames
import FrameScript.Proofs.Origins
import FrameScript.Proofs.Structure

set_option autoImplicit false

/-!
# What a null reference names

A run that looks into a null ends with a fault that names a variable or a field. The name is read
off the text of the access alone: through elements of elements down to what the first of them is
taken from. Here is what became of the thing that is named.

## Main definitions

* `Expr.root` — what the first of a chain of elements is taken from.
* `Machine.local?` — the value of a variable on the innermost frame.
* `Task.LooksInto` — a task that looks into the value of an expression.

## Main results

* `Expr.isNull_root` — the root of an access to a null is null exactly if it is all of the access.
* `Task.Arises.looksInto` — faults over nulls come up where nulls are looked into.
* `nullReference_names_root` — which variable or field is named.
* `nullReference_misnames` — the one that is named need not be null.
-/

namespace FrameScript

open Exec

/-! ## Roots of accesses -/

/-- What the first of a chain of elements is taken from. -/
def Expr.root : Expr → Expr
  | .index base _ => base.root
  | e => e

theorem nullFault_root (base : Expr) : nullFault base.root = nullFault base := by
  cases base with
  | index base key => exact nullFault_root base
  | _ => rfl

theorem Expr.root_ne_index (e base key : Expr) : e.root ≠ .index base key := by
  cases e with
  | index e k => exact root_ne_index e base key
  | _ => exact Expr.noConfusion

/-- A fault that names a variable names the root of the access. -/
theorem root_of_variable {base : Expr} {x : String}
    (h : nullFault base = .nullReference (.variable x)) :
    ∃ v, base.root = .var v ∧ v.name = x := by
  rw [← nullFault_root] at h
  cases hroot : base.root with
  | var v =>
    rw [hroot] at h
    cases h
    exact ⟨v, rfl, rfl⟩
  | index e key => exact absurd hroot (base.root_ne_index e key)
  | _ =>
    rw [hroot] at h
    cases h

/-- A fault that names a field names the root of the access. -/
theorem root_of_field {base : Expr} {name : String}
    (h : nullFault base = .nullReference (.field name)) :
    ∃ target, base.root = .field target name := by
  rw [← nullFault_root] at h
  cases hroot : base.root with
  | field target name' =>
    rw [hroot] at h
    cases h
    exact ⟨target, rfl⟩
  | index e key => exact absurd hroot (base.root_ne_index e key)
  | _ =>
    rw [hroot] at h
    cases h

/-! ## What the root evaluates to -/

/-- A value that an element is taken from is no null. -/
theorem not_isNull_of_element {h : Heap} {base : Expr} {container key w : Value}
    (hw : element h base container key = .ok w) : container.isNull = false := by
  cases container with
  | null tag => cases hw
  | _ => rfl

/-- An access evaluates its root first. Unless the root is all of the access, an element has been
taken from it, so it is no null. -/
theorem Expr.eval_root {code : Code} {m m' : Machine} {c : Value} (base : Expr)
    (h : (base.eval code).on m = (.ok c, m')) :
    ∃ w m₁, (base.root.eval code).on m = (.ok w, m₁) ∧
      ((base = base.root ∧ w = c) ∨ (base ≠ base.root ∧ w.isNull = false)) := by
  cases base with
  | index base key =>
    obtain ⟨container, m₁, hcontainer, h⟩ := (bind_ok m).mp h
    obtain ⟨k, m₂, hkey, h⟩ := (bind_ok m₁).mp h
    obtain ⟨heap, m₃, -, h⟩ := (bind_ok m₂).mp h
    obtain ⟨helement, -⟩ := (ofExcept_ok m₃).mp h
    obtain ⟨w, m₄, hw, hroot⟩ := base.eval_root hcontainer
    refine ⟨w, m₄, hw, .inr ⟨(base.root_ne_index base key).symm, ?_⟩⟩
    rcases hroot with ⟨-, rfl⟩ | ⟨-, hnull⟩
    · exact not_isNull_of_element helement
    · exact hnull
  | _ => exact ⟨c, m', h, .inl ⟨rfl, rfl⟩⟩

/-- The root of an access to a null is null exactly if it is all of the access. -/
theorem Expr.isNull_root {code : Code} {m m' : Machine} {tag : RefTy} {base : Expr}
    (h : (base.eval code).on m = (.ok (.null tag), m')) :
    ∃ w m₁, (base.root.eval code).on m = (.ok w, m₁) ∧ (w.isNull = true ↔ base = base.root) := by
  obtain ⟨w, m₁, hw, ⟨heq, rfl⟩ | ⟨hne, hnull⟩⟩ := base.eval_root h
  · exact ⟨.null tag, m₁, hw, iff_of_true rfl heq⟩
  · exact ⟨w, m₁, hw, iff_of_false (by simp [hnull]) hne⟩

/-! ## Variables -/

/-- The value of a variable on the innermost frame. -/
def Machine.local? (m : Machine) (v : Variable) : Option Value := do
  let slot ← v.slot?
  let f ← m.context.frames.head?
  f.slots[slot]?

theorem Machine.local?_eq_some {m : Machine} {v : Variable} {w : Value} :
    m.local? v = some w ↔ ∃ slot f fs, v.slot? = some slot ∧ m.context.frames = f :: fs ∧
      f.slots[slot]? = some w := by
  simp only [Machine.local?, Option.bind_eq_bind, Option.bind_eq_some_iff, List.head?_eq_some_iff]
  constructor
  · rintro ⟨slot, hslot, f, ⟨fs, hfs⟩, hw⟩
    exact ⟨slot, f, fs, hslot, hfs, hw⟩
  · rintro ⟨slot, f, fs, hslot, hfs, hw⟩
    exact ⟨slot, hslot, f, ⟨fs, hfs⟩, hw⟩

/-- A variable evaluates to its value. -/
theorem Expr.local?_of_eval {code : Code} {m m' : Machine} {v : Variable} {w : Value}
    (h : ((Expr.var v).eval code).on m = (.ok w, m')) : m.local? v = some w := by
  obtain ⟨slot, m₁, hslot, h⟩ := (bind_ok m).mp h
  obtain ⟨f, m₂, hf, h⟩ := (bind_ok m₁).mp h
  obtain ⟨hget, -⟩ := (ofExcept_ok m₂).mp h
  unfold slotOf at hslot
  split at hslot <;> cases hslot
  next hslot =>
  rw [on_frame] at hf
  split at hf <;> cases hf
  next hframes =>
  unfold Frame.get at hget
  split at hget <;> cases hget
  next hw =>
  exact Machine.local?_eq_some.mpr ⟨slot, f, _, hslot, hframes, hw⟩

section Keeping

variable {p : Program} (hp : p.NativesKeepCallers)

include hp

/-- Evaluating an expression changes no variable of the body. -/
theorem Site.eval_keepsSlots (rounds : Nat) (s : Site) (e : Expr) :
    WorksOnTop (fun f g => g.slots = f.slots) (e.eval (s.code p rounds)) := by
  have hclosed : ClosedFor (fun _ => True) fun _ x => WorksOnTop (fun f g => g.slots = f.slots) x :=
    WorksOnTop.closedFor (r := fun f g => g.slots = f.slots) (fun _ => rfl)
      (fun _ _ _ h h' => h'.trans h)
      (fun i hi v f g h => (@Frame.AgreesOff.of_setTemp (fun _ => True) i hi v f g h).slots)
      (fun i hi v f g h => (@Frame.AgreesOff.of_takeTemp (fun _ => True) i hi v f g h).slots)
  refine hclosed.eval (fun name unit hunit args => ?_) e fun _ _ => trivial
  exact WorksOnTop.of_keepsStack (r := fun f g => g.slots = f.slots) (fun _ => rfl)
    (call_keepsStack hp rounds s.levels (hp name unit (Program.find?_of_resolve hunit)) args)

/-- Variables hold after an evaluation what they held before. -/
theorem Site.local?_eval {rounds : Nat} {s : Site} {e : Expr} {m m' : Machine} {c : Value}
    (he : (e.eval (s.code p rounds)).on m = (.ok c, m')) {v : Variable} {w : Value}
    (hw : m.local? v = some w) : m'.local? v = some w := by
  obtain ⟨slot, f, fs, hslot, hfs, hget⟩ := Machine.local?_eq_some.mp hw
  obtain ⟨g, hgs, hslots⟩ := s.eval_keepsSlots hp rounds e m m' _ f fs hfs he (by simp)
  exact Machine.local?_eq_some.mpr ⟨slot, g, fs, hslot, hgs, hslots ▸ hget⟩

end Keeping

/-! ## Looking into values -/

namespace Task

section LookingInto

variable (p : Program) (rounds : Nat)

/-- A task that looks into the value of an expression, to read or write an element or a field. The
second state is the one in which it does. -/
inductive LooksInto : Task → Machine → Site → Expr → Value → Machine → Prop
  /-- An element is read. -/
  | element {s : Site} {base key : Expr} {c k : Value} {m m₁ m₂ : Machine}
    (hbase : (base.eval (s.code p rounds)).on m = (.ok c, m₁))
    (hkey : (key.eval (s.code p rounds)).on m₁ = (.ok k, m₂)) :
    LooksInto (.eval s (.index base key)) m s base c m₂
  /-- A field is read. -/
  | field {s : Site} {base : Expr} {name : String} {c : Value} {m m₁ : Machine}
    (hbase : (base.eval (s.code p rounds)).on m = (.ok c, m₁)) :
    LooksInto (.eval s (.field base name)) m s base c m₁
  /-- An element is written. -/
  | writeElement {s : Site} {v : Value} {base key : Expr} {c k : Value} {m m₁ m₂ : Machine}
    (hbase : (base.eval (s.code p rounds)).on m = (.ok c, m₁))
    (hkey : (key.eval (s.code p rounds)).on m₁ = (.ok k, m₂)) :
    LooksInto (.write s v (.index base key)) m s base c m₂
  /-- A field is written. -/
  | writeField {s : Site} {v : Value} {base : Expr} {name : String} {c : Value} {m m₁ : Machine}
    (hbase : (base.eval (s.code p rounds)).on m = (.ok c, m₁)) :
    LooksInto (.write s v (.field base name)) m s base c m₁

end LookingInto

variable {p : Program} {rounds : Nat} {task : Task} {s : Site} {base : Expr} {c : Value}
  {m m' : Machine}

/-- The value that is looked into is that of the expression. -/
theorem LooksInto.eval (h : task.LooksInto p rounds m s base c m') :
    ∃ m₁, (base.eval (s.code p rounds)).on m = (.ok c, m₁) := by
  cases h with
  | element hbase | field hbase | writeElement hbase | writeField hbase => exact ⟨_, hbase⟩

/-- Variables hold what they held when the task was begun. -/
theorem LooksInto.local? (hp : p.NativesKeepCallers) (h : task.LooksInto p rounds m s base c m')
    {v : Variable} {w : Value} (hw : m.local? v = some w) : m'.local? v = some w := by
  cases h with
  | element hbase hkey | writeElement hbase hkey =>
    exact Site.local?_eval hp hkey (Site.local?_eval hp hbase hw)
  | field hbase | writeField hbase => exact Site.local?_eval hp hbase hw

/-- Looking into a null fails. -/
theorem LooksInto.arises {tag : RefTy} (h : task.LooksInto p rounds m s base (.null tag) m') :
    task.Arises p rounds m (.fault (nullFault base)) m' := by
  cases h with
  | element hbase hkey => exact .element hbase hkey rfl
  | field hbase => exact .member hbase rfl
  | writeElement hbase hkey => exact .writeToNull hbase hkey
  | writeField hbase => exact .writeFieldOfNull hbase

/-- A field that is not there because of a null is one of a null. -/
theorem exists_null_of_fieldOf {h : Heap} {target : Value} {name : String} {cause : NullCause}
    (hfault : fieldOf p h base target name = .error (.nullReference cause)) :
    ∃ tag, target = .null tag := by
  unfold fieldOf connectorField at hfault
  split at hfault
  · exact ⟨_, rfl⟩
  · split at hfault <;> cases hfault
  · split at hfault
    · cases hfault
    · split at hfault <;> cases hfault
  · cases hfault
  · cases hfault

/-- A fault over a null other than the connector of an action comes up where a null is looked into,
if native units raise no such fault. -/
theorem Arises.looksInto {cause : NullCause} {f : Fault}
    (hnatives : ∀ name unit, p.find? name = some (.native unit) →
      unit.handler.Has fun _ run => RaisesIn (· ≠ .nullReference cause) run)
    (hlinked : task.Linked p) (hcause : cause ≠ .connector) (hf : f = .nullReference cause)
    (h : task.Arises p rounds m (.fault f) m') :
    ∃ s base tag, task.LooksInto p rounds m s base (.null tag) m' ∧ nullFault base = f := by
  have hoperations {α : Type} {r : Except Fault α} (hr : OfOperations r) (h : r = .error f) :
      False :=
    hr.ne_nullReference cause (hf ▸ h)
  have hcalls {α : Type} {r : Except Fault α} (hr : OfCalls r) (h : r = .error f) : False :=
    hr.ne_nullReference cause (hf ▸ h)
  cases h with
  | writeToNull hbase hkey => exact ⟨_, _, _, .writeElement hbase hkey, rfl⟩
  | writeFieldOfNull hbase => exact ⟨_, _, _, .writeField hbase, rfl⟩
  | @element s base key container k _ _ _ _ hbase hkey h =>
    cases hnull : container.isNull with
    | false => exact (hoperations (OfOperations.element _ _ _ hnull) h).elim
    | true =>
      cases container with
      | null tag => exact ⟨s, base, tag, .element hbase hkey, Except.error.inj h⟩
      | _ => cases hnull
  | member hbase h =>
    obtain ⟨tag, rfl⟩ := exists_null_of_fieldOf (hf ▸ h)
    exact ⟨_, _, tag, .field hbase, Except.error.inj h⟩
  | frame hfails huses hy hon =>
    obtain ⟨e, he, hframe⟩ := hy.fault _ _ _ hon
    cases he
    rw [hf] at hframe
    cases hframe
  | handler hrun hon | mapper hrun hon =>
    obtain ⟨name, hunit⟩ := hlinked
    have hraises := hnatives name _ hunit
    rw [hrun] at hraises
    exact absurd hf (hraises _ _ _ hon)
  | notConnector _ h =>
    unfold connectorName at h
    split at h <;> cases h <;> cases hf
    exact absurd rfl hcause
  | notAdmitted h => exact (hcalls (OfCalls.prepare _ _) h).elim
  | nativeResult h => exact (hcalls (OfCalls.nativeResult _ _ _) h).elim
  | unresolved h | unresolvedAction _ _ _ _ h => exact (hcalls (OfCalls.resolve _ _) h).elim
  | start _ h | default h | elementBind _ _ h | item _ _ h =>
    exact (hoperations (OfOperations.valueBind _ _) h).elim
  | result h | slot _ h | fieldBind _ h => exact (hoperations (OfOperations.bindAs _ _) h).elim
  | arrayIndex _ _ h => exact (hoperations (OfOperations.arrayIndex _) h).elim
  | mapKey _ _ h => exact (hoperations (OfOperations.mapKey _) h).elim
  | initField _ _ _ h => exact (hoperations (OfOperations.initField _ _ _ _) h).elim
  | unary _ h => exact (hoperations (OfOperations.unaryApply _ _) h).elim
  | binary _ _ _ h => exact (hoperations (OfOperations.binaryApply _ _ _ _) h).elim
  | cast _ h => exact (hoperations (OfOperations.cast _ _) h).elim
  | _ => cases hf

end Task

/-! ## Runs -/

/-- Native units of the standard library raise no fault over a null. -/
theorem Program.Linked.handler_ne_nullReference {p : Program} (hp : p.Linked Library.standard)
    (cause : NullCause) (name : String) (unit : NativeUnit)
    (hunit : p.find? name = some (.native unit)) :
    unit.handler.Has fun _ run => RaisesIn (· ≠ .nullReference cause) run := by
  refine (hp.handler_raises hunit).imp fun _ _ h => h.imp ?_
  rintro _ hkind rfl
  cases hkind

section Runs

variable {p : Program} (hp : p.Linked Library.standard) {name : String} {unit : Callable}
  (hunit : p.find? name = some unit) {rounds levels : Nat} {args : List Value} {m m' : Machine}

include hp hunit

/-- A call that ends with a fault over a null other than the connector of an action has a task that
looks into a null. -/
theorem exists_looksInto {cause : NullCause}
    (hfails : (call p rounds levels unit args).on m =
      (.error (.failed (.fault (.nullReference cause))), m')) (hcause : cause ≠ .connector) :
    ∃ task m₀ s base tag m₁, Task.Reaches p rounds (.call levels unit args) m task m₀ ∧
      task.LooksInto p rounds m₀ s base (.null tag) m₁ ∧
      nullFault base = .nullReference cause := by
  have hfails : (Task.call levels unit args).Fails p rounds m (.fault (.nullReference cause)) m' :=
    (bind_error _).mpr (.inl hfails)
  obtain ⟨task, m₀, m₁, hr, harises⟩ := hfails.arises
  have hcall : (Task.call levels unit args).Linked p := ⟨name, hunit⟩
  have hlinked : task.Linked p :=
    hr.invariant (I := fun task _ => task.Linked p) (fun _ _ _ _ h hstep => hstep.linked h) hcall
  obtain ⟨s, base, tag, hlooks, hnull⟩ :=
    harises.looksInto (hp.handler_ne_nullReference cause) hlinked hcause rfl
  exact ⟨task, m₀, s, base, tag, m₁, hr, hlooks, hnull⟩

end Runs

/-- **What a null reference names** is the root of an access to a null. Let a program load with the
standard library, and let a call of one of its callables, with any arguments in any state, end with
the complaint that a variable or a field is null. Then some task of the run looks into a null, and
fails with this complaint. The variable is the root of the access to the null, and it still holds
what it held when the access was begun; the field access is the root, and has been evaluated first.
But the root is null only if it is all of the access: where an element of it is null, the root is
named as well, and is not null.

**Proof sketch.** Native units raise no such fault, so it comes up in a task that looks into a null
(`Task.Arises.looksInto`), and its name is read off the root of the access (`nullFault_root`). The
root of an access is evaluated first, and no element can be taken from it if it is null
(`Expr.isNull_root`). Expressions change no variables of the body. -/
theorem nullReference_names_root {source : Source} {p : Program}
    (hload : Program.load source Library.standard = .ok p) {name : String} {unit : Callable}
    (hunit : p.find? name = some unit) (rounds levels : Nat) (args : List Value)
    (m m' : Machine) :
    (∀ x : String, (call p rounds levels unit args).on m =
        (.error (.failed (.fault (.nullReference (.variable x)))), m') →
      ∃ task m₀ s base tag m₁ v w,
        Task.Reaches p rounds (.call levels unit args) m task m₀ ∧
        task.LooksInto p rounds m₀ s base (.null tag) m₁ ∧
        task.Arises p rounds m₀ (.fault (.nullReference (.variable x))) m₁ ∧
        base.root = .var v ∧ v.name = x ∧ m₁.local? v = some w ∧
        (w.isNull = true ↔ base = .var v)) ∧
    ∀ field : String, (call p rounds levels unit args).on m =
        (.error (.failed (.fault (.nullReference (.field field)))), m') →
      ∃ task m₀ s base tag m₁ target w m₂,
        Task.Reaches p rounds (.call levels unit args) m task m₀ ∧
        task.LooksInto p rounds m₀ s base (.null tag) m₁ ∧
        task.Arises p rounds m₀ (.fault (.nullReference (.field field))) m₁ ∧
        base.root = .field target field ∧
        ((Expr.field target field).eval (s.code p rounds)).on m₀ = (.ok w, m₂) ∧
        (w.isNull = true ↔ base = .field target field) := by
  have hp := Program.load_linked hload
  have hkeep : p.NativesKeepCallers :=
    (hp.nativesConfined fun _ _ => Library.standard_confined).keepCallers
  refine ⟨fun x hfails => ?_, fun field hfails => ?_⟩
  · obtain ⟨task, m₀, s, base, tag, m₁, hr, hlooks, hnull⟩ :=
      exists_looksInto hp hunit hfails nofun
    obtain ⟨v, hroot, hname⟩ := root_of_variable hnull
    obtain ⟨_, hbase⟩ := hlooks.eval
    obtain ⟨w, _, hw, hiff⟩ := Expr.isNull_root hbase
    rw [hroot] at hw hiff
    exact ⟨task, m₀, s, base, tag, m₁, v, w, hr, hlooks, hnull ▸ hlooks.arises, hroot, hname,
      hlooks.local? hkeep (Expr.local?_of_eval hw), hiff⟩
  · obtain ⟨task, m₀, s, base, tag, m₁, hr, hlooks, hnull⟩ :=
      exists_looksInto hp hunit hfails nofun
    obtain ⟨target, hroot⟩ := root_of_field hnull
    obtain ⟨_, hbase⟩ := hlooks.eval
    obtain ⟨w, m₂, hw, hiff⟩ := Expr.isNull_root hbase
    rw [hroot] at hw hiff
    exact ⟨task, m₀, s, base, tag, m₁, target, w, m₂, hr, hlooks, hnull ▸ hlooks.arises, hroot,
      hw, hiff⟩

/-- A function that reads an element of an element. -/
def cellDecl : FunctionDecl where
  name := "cell"
  params := [⟨"grid", .arrayOf (.arrayOf .int)⟩]
  returns := [.int]
  body := [.result [.index (.index (.var ⟨"grid", none⟩) (.int 0)) (.int 0)]]

/-- A program with an access to an element of an element, and one to an element of a field. -/
def gridSource : Source where
  structs := [⟨"Box", [⟨"items", .arrayOf .int⟩]⟩]
  functions := [
    cellDecl,
    { name := "item"
      params := [⟨"box", .ref (.struct "Box")⟩]
      returns := [.int]
      body := [.result [.index (.field (.var ⟨"box", none⟩) "items") (.int 0)]] }]

/-- An array of arrays, the first of which is null, and a struct with a null in its field. -/
def gridMachine : Machine where
  heap := { arrays := #[#[.null (.array .int)]], structs := #[[("items", .null (.array .int))]] }
  context := { maxDepth := 5 }

theorem gridSource_loadsTo : Program.loadsTo gridSource Library.standard (fun p =>
    p.check.isEmpty &&
      (p.functionPasses "cell" fun cell =>
        faultOf? ((call p 10 5 (.function cell) [.array (.arrayOf .int) 0]).on gridMachine).1 ==
          some (.nullReference (.variable "grid"))) &&
      p.functionPasses "item" fun item =>
        faultOf? ((call p 10 5 (.function item) [.struct "Box" 0]).on gridMachine).1 ==
          some (.nullReference (.field "items"))) = true := by
  rw [Program.loadsTo_standard]
  decide +kernel

/-- The root of the access is named, whether it is null or an element of it is. -/
theorem nullReference_names_root_grid :
    ∃ (p : Program) (cell item : Function),
      Program.load gridSource Library.standard = .ok p ∧ p.check = [] ∧
      p.find? "cell" = some (.function cell) ∧ p.find? "item" = some (.function item) ∧
      (∃ task m₀ s base tag m₁ v w,
        Task.Reaches p 10 (.call 5 (.function cell) [.array (.arrayOf .int) 0])
          gridMachine task m₀ ∧
        task.LooksInto p 10 m₀ s base (.null tag) m₁ ∧
        base.root = .var v ∧ v.name = "grid" ∧ m₁.local? v = some w ∧
        (w.isNull = true ↔ base = .var v)) ∧
      ∃ task m₀ s base tag m₁ target w m₂,
        Task.Reaches p 10 (.call 5 (.function item) [.struct "Box" 0]) gridMachine task m₀ ∧
        task.LooksInto p 10 m₀ s base (.null tag) m₁ ∧
        base.root = .field target "items" ∧
        ((Expr.field target "items").eval (s.code p 10)).on m₀ = (.ok w, m₂) ∧
        (w.isNull = true ↔ base = .field target "items") := by
  obtain ⟨p, hload, htest⟩ := Program.exists_of_loadsTo gridSource_loadsTo
  simp only [Bool.and_eq_true, List.isEmpty_iff] at htest
  obtain ⟨⟨hcheck, hcell⟩, hitem⟩ := htest
  obtain ⟨cell, hcell, -, hfault⟩ := Program.exists_of_functionPasses hcell
  obtain ⟨item, hitem, -, hfault'⟩ := Program.exists_of_functionPasses hitem
  obtain ⟨hvariable, -⟩ := nullReference_names_root hload hcell 10 5 [.array (.arrayOf .int) 0]
    gridMachine _
  obtain ⟨-, hfield⟩ := nullReference_names_root hload hitem 10 5 [.struct "Box" 0] gridMachine _
  obtain ⟨task, m₀, s, base, tag, m₁, v, w, hr, hlooks, -, hroot⟩ :=
    hvariable _ (on_of_faultOf? _ (beq_iff_eq.mp hfault))
  obtain ⟨task', m₀', s', base', tag', m₁', target, w', m₂, hr', hlooks', -, hroot'⟩ :=
    hfield _ (on_of_faultOf? _ (beq_iff_eq.mp hfault'))
  exact ⟨p, cell, item, hload, hcheck, hcell, hitem,
    ⟨task, m₀, s, base, tag, m₁, v, w, hr, hlooks, hroot⟩,
    task', m₀', s', base', tag', m₁', target, w', m₂, hr', hlooks', hroot'⟩

/-- The access, laid out. -/
def cellAccess : Expr :=
  .index (.index (.var ⟨"grid", some 0⟩) (.int 0)) (.int 0)

/-- The function, laid out. -/
def cellFunction : Function where
  sig := cellDecl.signature ""
  body := [.result [cellAccess]]
  layout := { slots := [.arrayOf (.arrayOf .int)] }
  stackSize := some 1
  tempSize := some 0

/-- The frame of a call of the function. -/
def cellFrame : Frame where
  unit := "cell"
  argCount := 1
  slots := [.array (.arrayOf .int) 0]
  temps := []
  returns := [.int 0]

/-- **A null reference may name what is not null**: the array of arrays is said to be null where an
element of it is, and the variable holds the array. -/
theorem nullReference_misnames :
    ∃ (p : Program) (m' m₀ m₁ : Machine),
      Program.load gridSource Library.standard = .ok p ∧ p.check = [] ∧
      p.find? "cell" = some (.function cellFunction) ∧
      (call p 10 5 (.function cellFunction) [.array (.arrayOf .int) 0]).on gridMachine =
        (.error (.failed (.fault (.nullReference (.variable "grid")))), m') ∧
      Task.Reaches p 10 (.call 5 (.function cellFunction) [.array (.arrayOf .int) 0]) gridMachine
        (.eval ⟨4, cellFunction⟩ cellAccess) m₀ ∧
      Task.Arises p 10 (.eval ⟨4, cellFunction⟩ cellAccess) m₀
        (.fault (.nullReference (.variable "grid"))) m₁ ∧
      m₁.local? ⟨"grid", some 0⟩ = some (.array (.arrayOf .int) 0) := by
  obtain ⟨p, hload, htest⟩ := Program.exists_of_loadsTo gridSource_loadsTo
  simp only [Bool.and_eq_true, List.isEmpty_iff] at htest
  obtain ⟨⟨hcheck, hcell⟩, -⟩ := htest
  obtain ⟨cell, hcell, hname, hfault⟩ := Program.exists_of_functionPasses hcell
  have hbuild := Program.build_of_name hload hcell cellDecl
    (by simp [gridSource, Source.declarations, hname])
  obtain rfl : cellFunction = cell := Except.ok.inj hbuild
  let s : Site := ⟨4, cellFunction⟩
  let m₀ := gridMachine.withFrames [cellFrame]
  have hcall : Task.Step p 10 (.call 5 (.function cellFunction) [.array (.arrayOf .int) 0])
      gridMachine (.dispatch 4 (.function cellFunction)) m₀ := .call rfl (by decide)
  have hblock : Task.Step p 10 (.block s ([] ++ .result [cellAccess] :: [])) m₀
      (.stmt s (.result [cellAccess])) m₀ := .inBlock rfl
  have hresult : Task.Step p 10 (.stmt s (.result ([] ++ cellAccess :: []))) m₀
      (.eval s cellAccess) m₀ := .resultEach (fun _ => by decide) rfl
  have hbase : ((Expr.index (.var ⟨"grid", some 0⟩) (.int 0)).eval (s.code p 10)).on m₀ =
      (.ok (.null (.array .int)), m₀) := rfl
  have hkey : ((Expr.int 0).eval (s.code p 10)).on m₀ = (.ok (.int 0), m₀) := rfl
  exact ⟨p, _, m₀, m₀, hload, hcheck, hcell, on_of_faultOf? _ (beq_iff_eq.mp hfault),
    (((Task.Reaches.start.next hcall).next .body).next hblock).next hresult,
    (Task.LooksInto.element hbase hkey).arises, rfl⟩

end FrameScript
