import FrameScript.Proofs.Admission
import FrameScript.Proofs.Assignments
import FrameScript.Proofs.Nulls
import FrameScript.Proofs.Standard

set_option autoImplicit false

/-!
# Reading and rendering fields

The fields of a struct are seen in two ways: one by one, when a body reads them, and all together,
when the struct is rendered as a document. A read takes the first field of a name, and so does a
write, whereas the document keeps the last. The two agree on the fields that are declared once, in
every struct that a run of a loaded program comes across, and after every write to one of them. They
do not if a declaration has two fields of one name, which no part of the loader rejects.

## Main definitions

* `Heap.lastField?` — the last field of a name.
* `Heap.Shows` — a field is read and rendered as a value.
* `Task.Meets` — the values that a run comes across, each with the state in which it does.

## Main results

* `Dict.find?_ofList_eq` — the last entry of a key is the one in a dictionary.
* `Heap.member?_toJsonWithin` — the last field of a name is the one in the document of a struct.
* `Task.Meets.knows` — everything that a run comes across refers to objects as what they are.
* `fields_shown` — fields that are declared once are rendered as they are read.
* `fields_shown_fails_repeated` — fields that are declared twice are not.
-/

namespace FrameScript

/-! ## First and last fields -/

/-- Of several entries of a key, the last is the one in the dictionary. -/
theorem Dict.find?_ofList_eq {α : Type} (key : String) (entries : List (String × α)) :
    find? key (ofList entries) = (entries.reverse.find? (·.1 == key)).map (·.2) := by
  rw [ofList, ← List.foldr_reverse]
  induction entries.reverse with
  | nil => rfl
  | cons entry rest ih =>
    rw [List.foldr_cons, find?_insert, ih, List.find?_cons]
    cases entry.1 == key <;> rfl

namespace Heap

variable {p : Program} {h : Heap} {struct name : String} {id : Nat} {v : Value}
  {fields : List (String × Value)}

/-- The last field of a name. -/
def lastField? (name : String) (fields : List (String × Value)) : Option Value :=
  field? name fields.reverse

/-- A name that occurs once among fields has the same first and last field. -/
theorem lastField?_of_count (hcount : (fields.map (·.1)).count name = 1) :
    lastField? name fields = field? name fields := by
  induction fields with
  | nil => rfl
  | cons field fields ih =>
    rw [List.map_cons, List.count_cons] at hcount
    simp only [lastField?, field?, List.reverse_cons, List.find?_append, List.find?_cons] at ih ⊢
    cases heq : field.1 == name with
    | true =>
      have hrest : name ∉ fields.map (·.1) := by
        rw [← List.count_eq_zero]
        simpa [heq] using hcount
      have hnone : fields.reverse.find? (·.1 == name) = none := by
        rw [List.find?_eq_none]
        rintro ⟨n, w⟩ hmem hn
        exact hrest (List.mem_map.mpr ⟨(n, w), List.mem_reverse.mp hmem, by simpa using hn⟩)
      rw [hnone]
      rfl
    | false =>
      rw [← ih (by simpa [heq] using hcount)]
      simp

theorem isSome_field?_of_mem (hname : name ∈ fields.map (·.1)) :
    (field? name fields).isSome = true := by
  obtain ⟨⟨n, w⟩, hmem, rfl⟩ := List.mem_map.mp hname
  rw [field?, Option.isSome_map, List.find?_isSome]
  exact ⟨(n, w), hmem, by simp⟩

/-- A written field has the value that was written. -/
theorem field?_withField (hfield : (field? name fields).isSome = true) :
    field? name (withField name v fields) = some v := by
  rw [isSome_field?_eq, Option.isSome_iff_exists] at hfield
  obtain ⟨i, hposition⟩ := hfield
  obtain ⟨field, hfield⟩ := getElem?_of_position? hposition
  rw [field?_eq, position?, map_fst_withField, ← position?, hposition]
  simp [getElem?_withField, hposition, hfield]

/-- The document of a struct has the last field of a name. -/
theorem member?_toJsonWithin (h : Heap) (struct : String) (id depth : Nat) (name : String) :
    ((Value.struct struct id).toJsonWithin h (depth + 1)).member? name =
      (lastField? name (h.struct id)).map (·.toJsonWithin h depth) := by
  simp only [Value.toJsonWithin, Json.ofMembers, Json.member?, Dict.find?_ofList_eq, lastField?,
    field?, ← List.map_reverse, List.find?_map, Option.map_map]
  rfl

/-- A field of a struct has a value in both views: a body that reads the field has it, whatever the
struct was taken from, and the document of the struct has its document, one level deeper. -/
structure Shows (p : Program) (h : Heap) (struct : String) (id : Nat) (name : String)
    (v : Value) : Prop where
  read : ∀ base, fieldOf p h base (.struct struct id) name = .ok v
  rendered : ∀ depth, ((Value.struct struct id).toJsonWithin h (depth + 1)).member? name =
    some (v.toJsonWithin h depth)

/-- The value of a field is read. -/
theorem fieldOf_struct (hfield : field? name (h.struct id) = some v) (base : Expr) :
    fieldOf p h base (.struct struct id) name = .ok v := by
  simp only [fieldOf, hfield]

/-- A field whose name occurs once shows its value. -/
theorem shows_of_count (hcount : ((h.struct id).map (·.1)).count name = 1)
    (hfield : field? name (h.struct id) = some v) : h.Shows p struct id name v where
  read := fieldOf_struct hfield
  rendered depth := by
    rw [member?_toJsonWithin, lastField?_of_count hcount, hfield, Option.map_some]

/-- A field whose name occurs once shows what is written to it. -/
theorem shows_withField (hcount : ((h.struct id).map (·.1)).count name = 1) (v : Value) :
    (h.setStruct id (withField name v)).Shows p struct id name v := by
  have hsome : (field? name (h.struct id)).isSome = true :=
    isSome_field?_of_mem (List.count_pos_iff.mp (by omega))
  obtain ⟨i, hposition⟩ := Option.isSome_iff_exists.mp (isSome_field?_eq ▸ hsome)
  have hstruct : (h.setStruct id (withField name v)).struct id =
      withField name v (h.struct id) := by
    rw [struct_setStruct, if_pos ⟨rfl, lt_size_of_position? hposition⟩]
  apply shows_of_count
  · rw [hstruct, map_fst_withField, hcount]
  · rw [hstruct, field?_withField hsome]

end Heap

/-! ## What a run comes across -/

/-- What a value has inside is known if the value is. -/
theorem Value.Contains.knows {D : Discipline} {p : Program} {t : HeapTyping} {h : Heap}
    (hh : h.Obeys D p t) {v w : Value} (hv : t.Knows v) (hw : v.Contains h w) : t.Knows w := by
  induction hw with
  | self => exact hv
  | element _ hw ih => exact (hh.array _ _ ih _ hw).knows
  | entry _ hw _ => exact hh.map _ _ hw
  | field _ hw ih =>
    obtain ⟨decl, _, hfields⟩ := hh.struct _ _ ih
    obtain ⟨param, _, hplaces⟩ := forall₂_right_mem hfields hw
    exact hplaces.knows
  | argument _ hw ih => exact (hh.connector _ _ ih).knows _ hw

namespace Task

/-- The values that a run comes across, each with a state in which it does. -/
inductive Meets (p : Program) (rounds : Nat) (task : Task) (m : Machine) : Machine → Value → Prop
  /-- A value occurs in a state of the run. -/
  | mentioned {m' : Machine} {v : Value} (hvisits : Visits p rounds task m m')
    (hv : m'.Mentions v) : Meets p rounds task m m' v
  /-- A call is begun with a value. -/
  | passed {levels : Nat} {unit : Callable} {args : List Value} {m' : Machine} {v : Value}
    (hr : Reaches p rounds task m (.call levels unit args) m') (hv : v ∈ args) :
    Meets p rounds task m m' v
  /-- An expression evaluates to a value. -/
  | evaluated {s : Site} {e : Expr} {m₁ m' : Machine} {v : Value}
    (hr : Reaches p rounds task m (.eval s e) m₁)
    (hv : (e.eval (s.code p rounds)).on m₁ = (.ok v, m')) : Meets p rounds task m m' v
  /-- A call ends with a value. -/
  | returned {levels : Nat} {unit : Callable} {args vs : List Value} {m₁ m' : Machine} {v : Value}
    (hr : Reaches p rounds task m (.call levels unit args) m₁)
    (hvs : (FrameScript.call p rounds levels unit args).on m₁ = (.ok vs, m')) (hv : v ∈ vs) :
    Meets p rounds task m m' v
  /-- A value lies in another. -/
  | inside {m' : Machine} {v w : Value} (h : Meets p rounds task m m' v)
    (hw : v.Contains m'.heap w) : Meets p rounds task m m' w

/-- Everything that a run comes across is known. -/
theorem Meets.knows {D : Discipline} {J : Function → Judgement} {natives : Registry} {p : Program}
    (hD : D.Judges J natives p) {rounds : Nat} {task : Task} {m m' : Machine} {v : Value}
    (hbegun : task.BegunWell D J p m) (h : Meets p rounds task m m' v) :
    ∃ t, m'.Obeys D p t ∧ t.Knows v := by
  induction h with
  | mentioned hvisits hv =>
    obtain ⟨t, hm⟩ := hvisits.obeys hD hbegun
    exact ⟨t, hm, hv.knows hm⟩
  | passed hr hv =>
    obtain ⟨t, hm, -, hargs, -⟩ := hr.begunWell hD hbegun
    exact ⟨t, hm, hargs _ hv⟩
  | @evaluated s e m₁ m' v hr hv =>
    obtain ⟨t, hm, hs, he⟩ := hr.begunWell hD hbegun
    obtain ⟨u, -, hm', -, hknows, -⟩ := hs.after hm
      (fun _ => eval_keeps (Site.code_keeps hD rounds hs) (hs.sound hD).exprs e he t) hv
    exact ⟨u, hm', hknows⟩
  | @returned levels unit args vs m₁ m' v hr hvs hv =>
    obtain ⟨t, hm, ⟨name, hfound⟩, hargs, hhands⟩ := hr.begunWell hD hbegun
    obtain ⟨u, -, hm', -, hpost⟩ := hD.governs.call levels hfound _ t args hargs hhands m₁ hm rfl
    rw [hvs] at hm' hpost
    obtain ⟨ty, hplaces⟩ := forall₂_right_mem (hpost vs rfl) hv
    exact ⟨u, hm', hplaces.knows⟩
  | inside _ hw ih =>
    obtain ⟨t, hm, hv⟩ := ih
    exact ⟨t, hm, hw.knows hm.heap hv⟩

end Task

/-! ## Declared fields -/

/-- The names of fields as declared are the declared names. -/
theorem Discipline.FieldsOf.map_fst {D : Discipline} {t : HeapTyping} {decl : StructDecl}
    {fields : List (String × Value)} (h : D.FieldsOf t decl fields) :
    fields.map (·.1) = decl.fields.map (·.name) := by
  obtain ⟨_, params⟩ := decl
  simp only [FieldsOf] at h ⊢
  induction h with
  | nil => rfl
  | cons hfield _ ih => rw [List.map_cons, List.map_cons, hfield.1, ih]

/-- **Fields are rendered as they are read.** Let a program load with the standard library, and let
a run start with values read from documents. Every struct that the run comes across is one of a
declared type, and every field that is declared for it can be read. If it is declared once, then the
document of the struct has the document of just the value that is read, one level deeper, and after
any write to the field both have the value that was written.

**Proof sketch.** Every state of the run obeys the discipline of nulls, so the fields of a struct
have the declared names in their order. A read takes the first field of a name and the document the
last, which are the same if the name occurs once; a write changes no names. -/
theorem fields_shown {source : Source} {e : Engine}
    (hload : Program.load source Library.standard = .ok e.program)
    {inputs : List (Json × Ty)} {args : List Value} {heap : Heap}
    (hread : (e.program.readInputs inputs).run {} = .ok (args, heap))
    {name : String} {unit : Callable} (hunit : e.program.find? name = some unit)
    (properties : Dict String) (rounds levels : Nat) {m : Machine} {struct : String} {id : Nat}
    (hmeets : Task.Meets e.program rounds (.call levels unit args) (e.machine heap properties) m
      (.struct struct id)) :
    ∃ decl, e.program.struct? struct = some decl ∧ ∀ field ∈ decl.fields.map (·.name),
      (∃ v, ∀ base, fieldOf e.program m.heap base (.struct struct id) field = .ok v) ∧
      ((decl.fields.map (·.name)).count field = 1 →
        (∃ v, m.heap.Shows e.program struct id field v) ∧
          ∀ v, (m.heap.setStruct id (Heap.withField field v)).Shows e.program struct id field v) := by
  have hD := nullDiscipline_judges (Program.load_linked hload)
  have hbegun : (Task.call levels unit args).BegunWell nullDiscipline nullJudgement
      e.program (e.machine heap properties) :=
    Task.begunWell_of_inputs hread hunit (fun _ _ _ _ _ => trivial) properties levels
  obtain ⟨t, hm, hknows⟩ := hmeets.knows hD hbegun
  obtain ⟨decl, hdecl, hfields⟩ := hm.heap.struct id struct hknows
  refine ⟨decl, hdecl, fun field hfield => ?_⟩
  rw [← hfields.map_fst] at hfield ⊢
  obtain ⟨v, hv⟩ := Option.isSome_iff_exists.mp (Heap.isSome_field?_of_mem hfield)
  exact ⟨⟨v, Heap.fieldOf_struct hv⟩, fun hcount =>
    ⟨⟨v, Heap.shows_of_count hcount hv⟩, Heap.shows_withField hcount⟩⟩

/-! ## Fields that are declared twice -/

/-- A program that makes a point, of which it gives the first of two fields. -/
def pointSource (second : String) : Source where
  structs := [⟨"point", [⟨"x", .int⟩, ⟨second, .int⟩]⟩]
  functions := [{
    name := "make"
    returns := [.ref (.struct "point")]
    body := [.result [.struct "point" [("x", .int 1)]]] }]

/-- The two views of a field of the one struct that a call ends with: what is read, and what stands
in the document. -/
def bothViews? (name : String) : Except Stop (List Value) × Machine → Option (Int64 × Int)
  | (.ok [.struct struct id], m) =>
    match Heap.field? name (m.heap.struct id),
      ((Value.struct struct id).toJson m.heap).member? name with
    | some (.int read), some (.int rendered) => some (read, rendered)
    | _, _ => none
  | _ => none

theorem of_bothViews? {name : String} {ending : Except Stop (List Value) × Machine}
    {read : Int64} {rendered : Int} (h : bothViews? name ending = some (read, rendered)) :
    ∃ struct id m, ending = (.ok [.struct struct id], m) ∧
      Heap.field? name (m.heap.struct id) = some (.int read) ∧
      ((Value.struct struct id).toJson m.heap).member? name = some (.int rendered) := by
  unfold bothViews? at h
  split at h
  next struct id m =>
    split at h
    next hread hrendered =>
      cases h
      exact ⟨struct, id, m, rfl, hread, hrendered⟩
    · cases h
  · cases h

/-- The theorem applies to a point with two different fields. -/
theorem fields_shown_point :
    ∃ (e : Engine) (unit : Callable) (m : Machine) (struct : String) (id : Nat),
      Program.load (pointSource "y") Library.standard = .ok e.program ∧
      (e.program.readInputs []).run {} = .ok ([], {}) ∧
      e.program.find? "make" = some unit ∧
      Task.Meets e.program 10 (.call 5 unit []) (e.machine {} []) m (.struct struct id) ∧
      ∃ decl, e.program.struct? struct = some decl ∧ ∀ field ∈ decl.fields.map (·.name),
        (∃ v, ∀ base, fieldOf e.program m.heap base (.struct struct id) field = .ok v) ∧
        ((decl.fields.map (·.name)).count field = 1 →
          (∃ v, m.heap.Shows e.program struct id field v) ∧
            ∀ v, (m.heap.setStruct id (Heap.withField field v)).Shows e.program struct id field
              v) := by
  have hloads : Program.loadsTo (pointSource "y") Library.standard (fun p =>
      (p.find? "make").any fun unit =>
        bothViews? "x" ((call p 10 5 unit []).on ((Engine.mk p {}).machine {} [])) ==
          some (1, 1)) = true := by
    rw [Program.loadsTo_standard]
    decide +kernel
  obtain ⟨p, hload, htest⟩ := Program.exists_of_loadsTo hloads
  obtain ⟨unit, hunit, hviews⟩ := (Option.any_eq_true _ _).mp htest
  obtain ⟨struct, id, m, hrun, -, -⟩ := of_bothViews? (beq_iff_eq.mp hviews)
  let e : Engine := ⟨p, {}⟩
  have hread : (e.program.readInputs []).run {} = .ok ([], {}) := rfl
  have hmeets := Task.Meets.returned .start hrun (List.mem_singleton_self _)
  exact ⟨e, unit, m, struct, id, hload, hread, hunit, hmeets,
    fields_shown (e := e) hload hread hunit [] 10 5 hmeets⟩

/-- **A field that is declared twice is not rendered as it is read.** The loader takes a struct type
with two fields of one name; the value that is given for the name is stored in the first of them and
read from there, while the document has the second, still at its default. -/
theorem fields_shown_fails_repeated :
    ∃ (e : Engine) (unit : Callable) (m : Machine) (struct : String) (id : Nat),
      Program.load (pointSource "x") Library.standard = .ok e.program ∧
      (e.program.readInputs []).run {} = .ok ([], {}) ∧
      e.program.find? "make" = some unit ∧
      Task.Meets e.program 10 (.call 5 unit []) (e.machine {} []) m (.struct struct id) ∧
      (∀ base, fieldOf e.program m.heap base (.struct struct id) "x" = .ok (.int 1)) ∧
      ((Value.struct struct id).toJson m.heap).member? "x" = some (.int 0) := by
  have hloads : Program.loadsTo (pointSource "x") Library.standard (fun p =>
      (p.find? "make").any fun unit =>
        bothViews? "x" ((call p 10 5 unit []).on ((Engine.mk p {}).machine {} [])) ==
          some (1, 0)) = true := by
    rw [Program.loadsTo_standard]
    decide +kernel
  obtain ⟨p, hload, htest⟩ := Program.exists_of_loadsTo hloads
  obtain ⟨unit, hunit, hviews⟩ := (Option.any_eq_true _ _).mp htest
  obtain ⟨struct, id, m, hrun, hread, hrendered⟩ := of_bothViews? (beq_iff_eq.mp hviews)
  exact ⟨⟨p, {}⟩, unit, m, struct, id, hload, rfl, hunit,
    .returned .start hrun (List.mem_singleton_self _), Heap.fieldOf_struct hread, hrendered⟩

end FrameScript
