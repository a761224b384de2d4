import FrameScript.Proofs.Soundness
import FrameScript.Proofs.Standard

set_option autoImplicit false

/-!
# Slots of value types

Where the top type occurs in a program, values get to places whose types nobody has tested: a value
of the top type is stored under a reference type as it is, and an array of integers is an array of
anything, too. So a text may end up in a slot that is declared to hold an integer, and only there
where it is read from such a place. In programs that guard the top type this does not happen.

## Main definitions

* `Machine.KeepsValueSlots` — states in which slots of value types hold values of just these types.

## Main results

* `keepsValueSlots_of_visits` — every state of every run of a program that guards the top type.
* `keepsValueSlots_fails_alias`, `keepsValueSlots_fails_through`, `keepsValueSlots_fails_stored` —
  no part of the guard can be left out.
-/

namespace FrameScript

/-! ## States -/

/-- Each slot and each result of a value type, in all active calls, holds a value of just that
type. -/
def Machine.KeepsValueSlots (p : Program) (m : Machine) : Prop :=
  ∀ f ∈ m.context.frames, ∃ unit, Dict.find? f.unit p.units = some unit ∧
    List.Forall₂ (fun ty v => ty.isValueType = true → Value.ty v = ty) unit.slotTypes f.slots ∧
      List.Forall₂ (fun ty v => ty.isValueType = true → Value.ty v = ty) unit.sig.returns f.returns

/-- Places that hold values of their declared types hold values of just these types, where these are
value types. -/
theorem Machine.HoldsTypesAsDeclared.keepsValueSlots {p : Program} {m : Machine}
    (h : m.HoldsTypesAsDeclared p) : m.KeepsValueSlots p := by
  intro f hf
  obtain ⟨unit, hunit, hslots, hreturns⟩ := h.frames f hf
  exact ⟨unit, hunit, hslots.imp fun _ _ hv hty => hv.ty_eq hty,
    hreturns.imp fun _ _ hv hty => hv.ty_eq hty⟩

/-! ## Runs -/

/-- **Slots of value types hold values of just these types.** Let a program load with the standard
library, let the analysis find nothing in it, and let it guard the top type: values for which the
top type is inferred are stored, other than by calls, in places of the top type only, and nothing is
assigned through an expression for which the top type or an array of it is inferred. Let a run start
with values read from documents at any types. Then in each state of the run, each slot and each
result of a value type holds a value of just that type.

**Proof sketch.** The program is judged by the discipline of types (`typeDiscipline_judges`), so all
places hold values of their declared types, and value types accept nothing but themselves. -/
theorem keepsValueSlots_of_visits {source : Source} {e : Engine}
    (hload : Program.load source Library.standard = .ok e.program)
    (hcheck : e.program.check = []) (hguards : e.program.GuardsAny)
    {inputs : List (Json × Ty)} {args : List Value} {heap : Heap}
    (hread : (e.program.readInputs inputs).run {} = .ok (args, heap))
    {name : String} {unit : Callable} (hunit : e.program.find? name = some unit)
    (properties : Dict String) (rounds levels : Nat) (m : Machine)
    (hvisits : Task.Visits e.program rounds (.call levels unit args) (e.machine heap properties)
      m) :
    m.KeepsValueSlots e.program := by
  have hD := typeDiscipline_judges (Program.load_linked hload) hcheck hguards
  have hbegun : (Task.call levels unit args).BegunWell typeDiscipline (typeJudgement e.program)
      e.program (e.machine heap properties) :=
    Task.begunWell_of_inputs hread hunit (fun _ _ _ _ _ => trivial) properties levels
  obtain ⟨u, hm⟩ := hvisits.obeys hD hbegun
  exact hm.holdsTypesAsDeclared.keepsValueSlots

/-- A program that looks at the elements of an array and at the value of a map without knowing their
types, and converts what it finds. -/
def tallySource : Source where
  functions := [{
    name := "tally"
    params := [⟨"first", .any⟩, ⟨"rest", .arrayOf .int⟩]
    returns := [.int]
    body := [
      .define "m" (.ref .map) (some (.map [("first", .var ⟨"first", none⟩)])) none,
      .define "xs" (.arrayOf .any) (some (.var ⟨"rest", none⟩)) none,
      .define "x" .any (some (.index (.var ⟨"xs", none⟩) (.int 0))) none,
      .define "n" .int
        (some (.cast (.index (.var ⟨"m", none⟩) (.str "first")) .int)) none,
      .result [.binary .add (.var ⟨"n", none⟩) (.cast (.var ⟨"x", none⟩) .int)]] }]

/-- The theorem applies to this program, which knows an array of integers as one of anything. -/
theorem keepsValueSlots_tally :
    ∃ (e : Engine) (unit : Callable) (heap : Heap) (args : List Value),
      Program.load tallySource Library.standard = .ok e.program ∧
      e.program.check = [] ∧ e.program.GuardsAny ∧
      e.program.find? "tally" = some unit ∧
      (e.program.readInputs [(.int 2, .any), (.arr [.int 3], .arrayOf .int)]).run {} =
        .ok (args, heap) ∧
      ∀ m, Task.Visits e.program 10 (.call 5 unit args) (e.machine heap []) m →
        m.KeepsValueSlots e.program := by
  have hloads : Program.loadsTo tallySource Library.standard (fun p =>
      p.check.isEmpty && decide p.GuardsAny && (p.find? "tally").isSome) = true := by
    decide +kernel
  obtain ⟨p, hload, htest⟩ := Program.exists_of_loadsTo hloads
  simp only [Bool.and_eq_true, List.isEmpty_iff, decide_eq_true_eq] at htest
  obtain ⟨⟨hcheck, hguards⟩, hfound⟩ := htest
  obtain ⟨unit, hunit⟩ := Option.isSome_iff_exists.mp hfound
  let e : Engine := ⟨p, {}⟩
  have hread : (e.program.readInputs [(.int 2, .any), (.arr [.int 3], .arrayOf .int)]).run {} =
      .ok ([.int 2, .array .int 0], { arrays := #[#[.int 3]] }) := rfl
  exact ⟨e, unit, _, _, hload, hcheck, hguards, hunit, hread,
    keepsValueSlots_of_visits (e := e) hload hcheck hguards hread hunit [] 10 5⟩

/-! ## Programs without the guard -/

/-- The frame of the call of `main` when its body has ended. -/
def Program.mainFrame? (p : Program) : Option Frame := do
  let unit ← p.find? "main"
  let g ← (prepare unit []).toOption
  let start : Machine := Engine.machine ⟨p, {}⟩ {} []
  (((Task.dispatch 4 unit).exec p 10).on (start.withFrames [g])).2.context.frames.head?

/-- The analysis finds nothing in the program, and `main` ends with a text for an integer. -/
def Program.misplacesText (p : Program) : Bool :=
  p.check.isEmpty && p.mainFrame?.any fun f =>
    (Dict.find? f.unit p.units).map (·.sig.returns) == some [.int] &&
      f.returns.map (·.ty) == [.string]

/-- A run that comes to a text in the place of an integer, in a program that is linked to the
standard library for evaluation. -/
theorem exists_of_misplacesText {source : Source}
    (h : (Program.link source (Program.standard source.package)).toOption.any
      Program.misplacesText = true) :
    ∃ (e : Engine) (unit : Callable) (heap : Heap) (args : List Value) (m : Machine),
      Program.load source Library.standard = .ok e.program ∧ e.program.check = [] ∧
      e.program.find? "main" = some unit ∧
      (e.program.readInputs []).run {} = .ok (args, heap) ∧
      Task.Visits e.program 10 (.call 5 unit args) (e.machine heap []) m ∧
      ¬ m.KeepsValueSlots e.program := by
  rw [← Program.loadsTo_standard] at h
  obtain ⟨p, hload, htest⟩ := Program.exists_of_loadsTo h
  simp only [Program.misplacesText, Bool.and_eq_true, List.isEmpty_iff, Option.any_eq_true,
    beq_iff_eq] at htest
  obtain ⟨hcheck, f, hf, hreturns, htypes⟩ := htest
  simp only [Program.mainFrame?, Option.bind_eq_bind, Option.bind_eq_some_iff] at hf
  obtain ⟨unit, hunit, g, hg, hf⟩ := hf
  have hg : prepare unit [] = .ok g := by
    rcases hprepare : prepare unit [] with fault | g' <;> rw [hprepare] at hg <;> cases hg
    rfl
  let e : Engine := ⟨p, {}⟩
  have hstep : Task.Step p 10 (.call 5 unit []) (e.machine {} []) (.dispatch 4 unit)
      ((e.machine {} []).withFrames [g]) := .call hg (by simp [e, Engine.machine, Context.depth])
  refine ⟨e, unit, _, [], _, hload, hcheck, hunit, rfl, .ended (.next .start hstep),
    fun hkeeps => ?_⟩
  obtain ⟨unit', hunit', -, hvalues⟩ := hkeeps f (List.mem_of_head? hf)
  rw [hunit', Option.map_some, Option.some.injEq] at hreturns
  rw [hreturns] at hvalues
  obtain ⟨v, vs, hv, hvs, heq⟩ := List.forall₂_cons_left_iff.mp hvalues
  rw [heq, List.map_cons, hv rfl] at htypes
  cases htypes

/-- A program that knows one array of integers as an array of anything, too, and puts a text into
it. -/
def aliasSource : Source where
  functions := [{
    name := "main"
    params := []
    returns := [.int]
    body := [
      .define "ints" (.arrayOf .int) (some (.array .int [.int 1])) none,
      .define "anys" (.arrayOf .any) (some (.var ⟨"ints", none⟩)) none,
      .assign [.index (.var ⟨"anys", none⟩) (.int 0)] (.str "one"),
      .result [.index (.var ⟨"ints", none⟩) (.int 0)]] }]

/-- **Slots of value types are not kept without the guard**: in this program, in which the analysis
finds nothing, an assignment through an array of anything is enough. -/
theorem keepsValueSlots_fails_alias :
    ∃ (e : Engine) (unit : Callable) (heap : Heap) (args : List Value) (m : Machine),
      Program.load aliasSource Library.standard = .ok e.program ∧ e.program.check = [] ∧
      e.program.find? "main" = some unit ∧
      (e.program.readInputs []).run {} = .ok (args, heap) ∧
      Task.Visits e.program 10 (.call 5 unit args) (e.machine heap []) m ∧
      ¬ m.KeepsValueSlots e.program :=
  exists_of_misplacesText (by decide +kernel)

/-- A program that puts a text into an array of integers that it knows as anything. -/
def throughSource : Source where
  functions := [{
    name := "main"
    params := []
    returns := [.int]
    body := [
      .define "ints" (.arrayOf .int) (some (.array .int [.int 1])) none,
      .define "x" .any (some (.var ⟨"ints", none⟩)) none,
      .assign [.index (.var ⟨"x", none⟩) (.int 0)] (.str "one"),
      .result [.index (.var ⟨"ints", none⟩) (.int 0)]] }]

/-- An assignment through an expression of the top type is enough, too. -/
theorem keepsValueSlots_fails_through :
    ∃ (e : Engine) (unit : Callable) (heap : Heap) (args : List Value) (m : Machine),
      Program.load throughSource Library.standard = .ok e.program ∧ e.program.check = [] ∧
      e.program.find? "main" = some unit ∧
      (e.program.readInputs []).run {} = .ok (args, heap) ∧
      Task.Visits e.program 10 (.call 5 unit args) (e.machine heap []) m ∧
      ¬ m.KeepsValueSlots e.program :=
  exists_of_misplacesText (by decide +kernel)

/-- A program that stores a value of the top type, which is an array of texts, as an array of
integers. -/
def storedSource : Source where
  functions := [{
    name := "main"
    params := []
    returns := [.int]
    body := [
      .define "x" .any (some (.array .string [.str "one"])) none,
      .define "ints" (.arrayOf .int) (some (.var ⟨"x", none⟩)) none,
      .result [.index (.var ⟨"ints", none⟩) (.int 0)]] }]

/-- And so is a value of the top type under a reference type. -/
theorem keepsValueSlots_fails_stored :
    ∃ (e : Engine) (unit : Callable) (heap : Heap) (args : List Value) (m : Machine),
      Program.load storedSource Library.standard = .ok e.program ∧ e.program.check = [] ∧
      e.program.find? "main" = some unit ∧
      (e.program.readInputs []).run {} = .ok (args, heap) ∧
      Task.Visits e.program 10 (.call 5 unit args) (e.machine heap []) m ∧
      ¬ m.KeepsValueSlots e.program :=
  exists_of_misplacesText (by decide +kernel)

end FrameScript
