import FrameScript.Proofs.Inputs
import FrameScript.Proofs.Preservation

set_option autoImplicit false
set_option linter.unusedSectionVars false

/-!
# Nulls stay where they are declared

No slot, result, element or field of a value type ever holds a null, and a null in a place of a
reference type carries the tag of that type. This holds of every state of every run of a loaded
program, whether or not it has been analysed: every way into such a place retags a null or refuses
it.

## Main definitions

* `Value.HeldAs` — what a place of a declared type may hold as far as nulls are concerned.
* `nullDiscipline`, `nullJudgement` — the discipline that admits just that, and a judgement that
  lets expressions evaluate to anything.

## Main results

* `nullDiscipline_judges` — every linked program is judged by the discipline.
* `holdsNullsAsDeclared_of_visits` — every state of every run holds nulls as declared.
-/

namespace FrameScript

open Exec Keeps

/-! ## The discipline -/

/-- A value as a place of the type may hold it: under a value type it is no null, and under a
reference type other than that of the bare null, a null carries the tag of the type. -/
structure Value.HeldAs (ty : Ty) (v : Value) : Prop where
  present : ty.isValueType = true → v.isNull = false
  tagged : ∀ r tag, ty = .ref r → r ≠ .null → v = .null tag → tag = r

/-- A value that is bound to a place is one that the place may hold. -/
theorem Value.heldAs_of_bind {ty : Ty} {v w : Value} (h : v.bind ty = .ok w) : w.HeldAs ty := by
  unfold Value.bind at h
  split at h
  · cases h
  next hfits =>
    cases h
    constructor
    · intro hty
      rw [hty, Bool.true_and, Bool.not_eq_true] at hfits
      cases v with
      | null tag => cases hfits
      | _ => cases ty with
        | ref r => cases hty
        | _ => rfl
    · rintro r tag rfl hr heq
      cases v with
      | null tag' => cases r <;> cases heq <;> first | rfl | contradiction
      | _ => cases r <;> cases heq

/-- Places of value types hold no nulls, and nulls carry the tag of their place. -/
def nullDiscipline : Discipline where
  Holds ty v := v.HeldAs ty
  Builds _ _ _ := True
  Hands _ _ := True
  default ty := by
    refine Value.heldAs_of_bind (v := ty.default) ?_
    cases ty with
    | ref r => cases r <;> rfl
    | _ => rfl
  admits ty v h _ := by
    refine Value.heldAs_of_bind (v := v) ?_
    unfold Value.bind
    rw [if_neg]
    intro hnull
    rw [Bool.and_eq_true] at hnull
    simp [refused?, hnull.1, hnull.2] at h
  handsPresent _ _ _ := trivial

/-- Whatever is bound to a place is something that the place may hold. -/
theorem nullDiscipline_binds (ty : Ty) (v : Value) : nullDiscipline.Binds ty v :=
  fun _ hw => Value.heldAs_of_bind hw

/-- The judgement that asks for nothing but slots for all definitions. -/
def nullJudgement (f : Function) : Judgement where
  Admits _ := True
  Yields _ _ := True
  YieldsAll _ _ := True
  Takes _ _ := True
  Runs s := s.Slotted f.layout.slots

/-! ## Soundness -/

/-- In a slotted body nulls stay where they are declared, whatever its expressions evaluate to. -/
theorem nullJudgement_sound (p : Program) {f : Function}
    (hbody : BlockSlotted f.layout.slots f.body) : (nullJudgement f).Sound nullDiscipline p f where
  exprs := by
    constructor <;> intros <;> first | trivial | exact nullDiscipline_binds _ _
  targets := by
    constructor <;> intros <;> first | trivial | exact nullDiscipline_binds _ _
  stmts := {
    body := fun s hs => hbody.of_mem hs
    expr := fun _ _ => trivial
    inner := fun h hs => h.inner hs
    place := fun h => by simpa only [nullJudgement, Stmt.Slotted] using h
    start := fun _ _ => nullDiscipline_binds _ _
    assigned := fun _ _ => trivial
    assignedAll := fun _ _ _ hlen => List.forall₂_iff_get.mpr ⟨hlen.symm, fun _ _ _ => trivial⟩
    returns := fun _ _ _ _ ty v _ _ => nullDiscipline_binds ty v
    returnsAll := fun _ _ _ _ ty v _ _ => nullDiscipline_binds ty v }

/-- The discipline of nulls judges every linked program. -/
theorem nullDiscipline_judges {p : Program} (hp : p.Linked Library.standard) :
    nullDiscipline.Judges nullJudgement Library.standard p where
  linked := hp
  natives := by
    intro key u hu
    obtain ⟨package, hpackage, hmem⟩ := Library.mem_standard hu
    exact Library.keeps hpackage hmem
  sound := by
    intro name f hfound
    obtain ⟨decl, hlaid⟩ := hp.laidOut hfound
    exact nullJudgement_sound p hlaid.slotted
  handsOver _ _ _ _ := .of_all fun _ _ => trivial

/-! ## States -/

/-- All slots and results of the active calls, and the elements and fields of everything that occurs
in the state, are as they are declared as far as nulls are concerned. -/
structure Machine.HoldsNullsAsDeclared (p : Program) (m : Machine) : Prop where
  frames : ∀ f ∈ m.context.frames, ∃ unit, Dict.find? f.unit p.units = some unit ∧
    List.Forall₂ (fun ty v => v.HeldAs ty) unit.slotTypes f.slots ∧
      List.Forall₂ (fun ty v => v.HeldAs ty) unit.sig.returns f.returns
  elements : ∀ elem id, m.Mentions (.array elem id) → ∀ v ∈ m.heap.array id, v.HeldAs elem
  fields : ∀ name id, m.Mentions (.struct name id) → ∃ decl, p.struct? name = some decl ∧
    List.Forall₂ (fun (param : Param) (field : String × Value) =>
      field.1 = param.name ∧ field.2.HeldAs param.ty) decl.fields (m.heap.struct id)

/-- A state that obeys the discipline holds nulls as declared. -/
theorem Machine.Obeys.holdsNullsAsDeclared {p : Program} {t : HeapTyping} {m : Machine}
    (hm : m.Obeys nullDiscipline p t) : m.HoldsNullsAsDeclared p where
  frames f hf := by
    obtain ⟨unit, hunit, hf⟩ := hm.frames f hf
    exact ⟨unit, hunit, hf.slots.imp fun _ _ h => h.holds, hf.returns.imp fun _ _ h => h.holds⟩
  elements elem id h v hv := (hm.heap.array id elem (h.knows hm) v hv).holds
  fields name id h := by
    obtain ⟨decl, hdecl, hfields⟩ := hm.heap.struct id name (h.knows hm)
    exact ⟨decl, hdecl, List.Forall₂.imp (fun _ _ h => ⟨h.1, h.2.holds⟩) hfields⟩

/-- **Nulls are held as declared in every state of every run.** Let a program load with the standard
library, and let a run start with values read from documents at any types. In each state of the run
no slot, result, element or field of a value type holds a null, and a null in a place of a
reference type carries the tag of that type. Each call that ends with values ends with one value
for every result its callee declares, and so does the call from outside.

**Proof sketch.** The inputs lie in a heap that obeys the discipline of nulls, each step of the run
keeps the discipline, and so does the computation of each task. -/
theorem holdsNullsAsDeclared_of_visits {source : Source} {e : Engine}
    (hload : Program.load source Library.standard = .ok e.program)
    {inputs : List (Json × Ty)} {args : List Value} {heap : Heap}
    (hread : (e.program.readInputs inputs).run {} = .ok (args, heap))
    {name : String} {unit : Callable} (hunit : e.program.find? name = some unit)
    (properties : Dict String) (rounds levels : Nat) :
    (∀ m, Task.Visits e.program rounds (.call levels unit args) (e.machine heap properties) m →
      m.HoldsNullsAsDeclared e.program) ∧
    (∀ levels' unit' args' m vs m',
      Task.Reaches e.program rounds (.call levels unit args) (e.machine heap properties)
        (.call levels' unit' args') m →
      (call e.program rounds levels' unit' args').on m = (.ok vs, m') →
      List.Forall₂ (fun ty v => v.HeldAs ty) unit'.sig.returns vs) ∧
    ∀ vs m, e.invoke name args heap properties = (.ok vs, m) →
      List.Forall₂ (fun ty v => v.HeldAs ty) unit.sig.returns vs := by
  have hD := nullDiscipline_judges (Program.load_linked hload)
  have hbegun (levels : Nat) : (Task.call levels unit args).BegunWell nullDiscipline nullJudgement
      e.program (e.machine heap properties) :=
    Task.begunWell_of_inputs hread hunit (fun _ _ _ _ _ => trivial) properties levels
  refine ⟨fun m hvisits => ?_, fun levels' unit' args' m vs m' hr hrun => ?_, fun vs m hrun => ?_⟩
  · obtain ⟨u, hm⟩ := hvisits.obeys hD (hbegun levels)
    exact hm.holdsNullsAsDeclared
  · exact (hr.begunWell hD (hbegun levels)).returns hD hrun
  · rw [Engine.invoke_eq hunit] at hrun
    exact (hbegun e.config.maxCallDepth).returns hD hrun

/-- A program that takes the first of some messages and stores a bare null behind the last. -/
def messagesSource : Source where
  functions := [{
    name := "first"
    params := [⟨"ms", .arrayOf (.ref .message)⟩]
    returns := [.ref .message]
    body := [
      .define "m" (.ref .message) (some (.index (.var ⟨"ms", none⟩) (.int 0))) none,
      .assign [.index (.var ⟨"ms", none⟩) (.int 2)] .null,
      .result [.var ⟨"m", none⟩]] }]

/-- The theorem applies to this program with an array that holds a null. -/
theorem holdsNullsAsDeclared_messages :
    ∃ (e : Engine) (unit : Callable) (heap : Heap) (args : List Value),
      Program.load messagesSource Library.standard = .ok e.program ∧
      e.program.find? "first" = some unit ∧
      (e.program.readInputs [(.arr [.null], .arrayOf (.ref .message))]).run {} = .ok (args, heap) ∧
      ∀ m, Task.Visits e.program 10 (.call 5 unit args) (e.machine heap []) m →
        m.HoldsNullsAsDeclared e.program := by
  have hloads : Program.loadsWith messagesSource Library.standard "first" = true := by
    decide +kernel
  obtain ⟨p, unit, hload, hunit⟩ := Program.exists_of_loadsWith hloads
  let e : Engine := ⟨p, {}⟩
  have hread : (e.program.readInputs [(.arr [.null], .arrayOf (.ref .message))]).run {} =
      .ok ([.array (.ref .message) 0], { arrays := #[#[.null .message]] }) := rfl
  exact ⟨e, unit, _, _, hload, hunit, hread,
    (holdsNullsAsDeclared_of_visits (e := e) hload hread hunit [] 10 5).1⟩

end FrameScript
