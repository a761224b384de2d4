import FrameScript.Engine
import FrameScript.Proofs.Discipline

set_option autoImplicit false

/-!
# Inputs read from documents

A value read from a document at a declared type is one that a place of the type may hold, and all
objects made on the way hold what their own types and declarations ask for. So a run on such inputs
starts in a state that obeys any discipline.

## Main definitions

* `Reads` — a triple for computations that make objects.
* `Program.readInputs` — the values of documents, each read at a type of its own.

## Main results

* `reads_ofJson` — what a document is read as.
* `Program.readInputs_obeys`, `Program.readArgs_eq` — the inputs of a run, and those of a call from
  outside as a case of them.
-/

namespace FrameScript

variable {D : Discipline} {p : Program} {α β : Type} {t u : HeapTyping}

/-! ## Making objects -/

/-- From objects that obey the discipline the computation leads to objects that do, and a value it
ends with satisfies the postcondition. -/
def Reads (D : Discipline) (p : Program) {α : Type} (t : HeapTyping) (x : Builder α)
    (post : HeapTyping → α → Prop) : Prop :=
  ∀ (h : Heap) (a : α) (h' : Heap), h.Obeys D p t → x.run h = .ok (a, h') →
    ∃ u, t ≤ u ∧ h'.Obeys D p u ∧ post u a

namespace Reads

theorem pure {a : α} {post : HeapTyping → α → Prop} (ha : post t a) :
    Reads D p t (pure a) post := by
  intro h b h' hh hrun
  cases hrun
  exact ⟨t, t.le_refl, hh, ha⟩

theorem throw (e : ConversionError) {post : HeapTyping → α → Prop} :
    Reads D p t (throw e : Builder α) post :=
  fun _ _ _ _ hrun => by cases hrun

theorem bind {x : Builder α} {f : α → Builder β} {q : HeapTyping → α → Prop}
    {post : HeapTyping → β → Prop} (hx : Reads D p t x q)
    (hf : ∀ u a, t ≤ u → q u a → Reads D p u (f a) post) : Reads D p t (x >>= f) post := by
  intro h b h' hh hrun
  rw [StateT.run_bind] at hrun
  obtain ⟨⟨a, h₁⟩, hfirst, hrun⟩ := bind_eq_ok.mp hrun
  obtain ⟨u, htu, hh₁, ha⟩ := hx h a h₁ hh hfirst
  obtain ⟨w, huw, hrest⟩ := hf u a htu ha h₁ b h' hh₁ hrun
  exact ⟨w, HeapTyping.le_trans htu huw, hrest⟩

theorem make {new : Heap → Value × Heap} {post : HeapTyping → Value → Prop}
    (h : ∀ h : Heap, h.Obeys D p t →
      ∃ u, t ≤ u ∧ (new h).2.Obeys D p u ∧ post u (new h).1) :
    Reads D p t (Value.make new) post := by
  intro h₀ v h' hh hrun
  have hnew : new h₀ = (v, h') := Except.ok.inj hrun
  have := h h₀ hh
  rwa [hnew] at this

end Reads

/-! ## Values of documents -/

/-- A value that is there may be held where its type is accepted. -/
theorem Discipline.places_of_accepts {ty : Ty} {v : Value} (hknows : t.Knows v)
    (hnull : v.isNull = false) (hty : ty.accepts v.ty = true) : D.Places t ty v := by
  have h := D.admits ty v (by simp [refused?, hnull, hty]) (D.handsPresent ty v hnull)
  have hstored : v.declaredAs ty = v := by
    cases v with
    | null tag => cases hnull
    | _ => cases ty with
      | ref r => cases r <;> rfl
      | _ => rfl
  exact ⟨hknows, hstored ▸ h⟩

theorem Ty.accepts_self (ty : Ty) : ty.accepts ty = true := by
  simp [Ty.accepts]

theorem Ty.accepts_of_any (ty : Ty) : Ty.any.accepts ty = true := by
  simp [Ty.accepts]

/-- A document that is neither array nor object is read as a value of the type. -/
theorem reads_ofScalarJson (doc : Json) (ty : Ty) :
    Reads D p t (Value.ofScalarJson doc ty) fun u v => D.Places u ty v := by
  unfold Value.ofScalarJson
  split
  · exact .pure (D.places_default t _)
  · exact .pure (D.places_of_accepts trivial rfl (Ty.accepts_self _))
  · split
    · exact .pure (D.places_of_accepts trivial rfl (Ty.accepts_self _))
    · exact .throw _
  · exact .pure (D.places_of_accepts trivial rfl (Ty.accepts_self _))
  · exact .pure (D.places_of_accepts trivial rfl (Ty.accepts_self _))
  · exact .pure (D.places_of_accepts trivial rfl (Ty.accepts_self _))
  · exact .pure (D.places_of_accepts trivial rfl (Ty.accepts_self _))
  · exact .pure (D.places_of_accepts trivial rfl (Ty.accepts_self _))
  · refine .make fun h hh => ⟨t, t.le_refl, hh.newMessage _, ?_⟩
    exact D.places_of_accepts trivial rfl (Ty.accepts_self _)
  · exact .pure (D.places_default t .any)
  · exact .pure (D.places_of_accepts trivial rfl (Ty.accepts_of_any _))
  · split
    · exact .pure (D.places_of_accepts trivial rfl (Ty.accepts_of_any _))
    · exact .pure (D.places_of_accepts trivial rfl (Ty.accepts_of_any _))
  · exact .pure (D.places_of_accepts trivial rfl (Ty.accepts_of_any _))
  · exact .pure (D.places_of_accepts trivial rfl (Ty.accepts_of_any _))
  · exact .throw _

/-- A new array of read values is one of their type. -/
theorem reads_newArray {elem ty : Ty} {vs : List Value} (hty : ty.accepts (.arrayOf elem) = true)
    (hvs : ∀ v ∈ vs, D.Places t elem v) :
    Reads D p t (Value.make (Heap.newArray elem vs.toArray)) fun u v => D.Places u ty v := by
  refine .make fun h hh => ?_
  have hitems : ∀ v ∈ vs.toArray, D.Places t elem v := by simpa using hvs
  obtain ⟨u, htu, hh', hv⟩ := hh.newArray hitems
  exact ⟨u, htu, hh', D.places_of_accepts hv rfl hty⟩

theorem reads_newMap {ty : Ty} {entries : Dict Value} (hty : ty.accepts (.ref .map) = true)
    (hentries : ∀ entry ∈ entries, t.Knows entry.2) :
    Reads D p t (Value.make (Heap.newMap entries)) fun u v => D.Places u ty v := by
  refine .make fun h hh => ?_
  obtain ⟨u, htu, hh', hv⟩ := hh.newMap hentries
  exact ⟨u, htu, hh', D.places_of_accepts hv rfl hty⟩

section Structs

variable {readers : List (String × (Ty → Builder Value))}
  (hreaders : ∀ reader ∈ readers, ∀ ty t, Reads D p t (reader.2 ty) fun u v => D.Places u ty v)

include hreaders

/-- The fields of a struct are read in the order of their declaration, each at its own type. -/
theorem reads_buildFields (params : List Param) :
    Reads D p t (Value.buildFields readers params) fun u fields =>
      List.Forall₂ (fun (param : Param) (field : String × Value) =>
        field.1 = param.name ∧ D.Places u param.ty field.2) params fields := by
  induction params generalizing t with
  | nil => exact .pure .nil
  | cons param params ih =>
    have hrest {u : HeapTyping} {v : Value} (hv : D.Places u param.ty v) :
        Reads D p u (do
          let rest ← Value.buildFields readers params
          Pure.pure ((param.name, v) :: rest)) fun u fields =>
            List.Forall₂ (fun (param : Param) (field : String × Value) =>
              field.1 = param.name ∧ D.Places u param.ty field.2) (param :: params) fields := by
      refine Reads.bind ih fun w fields huw hfields => .pure ?_
      exact .cons ⟨rfl, hv.mono huw⟩ hfields
    unfold Value.buildFields
    split
    next read hread =>
      refine Reads.bind (hreaders _ (Dict.mem_of_find? hread) param.ty t) fun u v _ hv => ?_
      exact hrest hv
    · exact Reads.bind (.pure (D.places_default t param.ty)) fun u v _ hv => hrest hv

theorem reads_buildStruct (name : String) :
    Reads D p t (Value.buildStruct p.structFields? name readers) fun u v =>
      D.Places u (.ref (.struct name)) v := by
  unfold Value.buildStruct
  split
  · exact .throw _
  next params hparams =>
    obtain ⟨decl, hdecl, rfl⟩ := Option.map_eq_some_iff.mp hparams
    split
    · exact .throw _
    · refine .bind (reads_buildFields hreaders decl.fields) fun u fields htu hfields => ?_
      refine .make fun h hh => ?_
      have hfields' : D.Fields p u name fields := ⟨decl, hdecl, hfields⟩
      obtain ⟨w, huw, hh', hv⟩ := hh.newStruct hfields'
      exact ⟨w, huw, hh', D.places_of_accepts hv rfl (Ty.accepts_self _)⟩

end Structs

mutual

/-- **Documents are read as declared**: the value a document is read as may be held where the type
is declared, and so may everything inside it. -/
theorem reads_ofJson (doc : Json) (ty : Ty) (t : HeapTyping) :
    Reads D p t (Value.ofJson p.structFields? doc ty) fun u v => D.Places u ty v := by
  cases doc with
  | arr items =>
    unfold Value.ofJson
    split
    · refine .bind (reads_ofJsonItems items _ t) fun u vs _ hvs => ?_
      exact reads_newArray (Ty.accepts_self _) hvs
    · refine .bind (reads_ofJsonItems items _ t) fun u vs _ hvs => ?_
      exact reads_newArray (Ty.accepts_of_any _) hvs
    · exact reads_ofScalarJson _ _
  | obj members =>
    unfold Value.ofJson
    split
    · refine .bind (reads_ofJsonMembers members t) fun u entries _ hentries => ?_
      exact reads_newMap (Ty.accepts_self _) hentries
    · refine .bind (reads_ofJsonMembers members t) fun u entries _ hentries => ?_
      exact reads_newMap (Ty.accepts_of_any _) hentries
    · exact reads_buildStruct (reads_readers members) _
    · exact reads_ofScalarJson _ _
  | null => exact reads_ofScalarJson _ _
  | bool b => exact reads_ofScalarJson _ _
  | int n => exact reads_ofScalarJson _ _
  | float x => exact reads_ofScalarJson _ _
  | str s => exact reads_ofScalarJson _ _

theorem reads_ofJsonItems (items : List Json) (ty : Ty) (t : HeapTyping) :
    Reads D p t (Value.ofJsonItems p.structFields? items ty) fun u vs =>
      ∀ v ∈ vs, D.Places u ty v := by
  cases items with
  | nil => exact .pure (by simp)
  | cons item items =>
    unfold Value.ofJsonItems
    refine .bind (reads_ofJson item ty t) fun u v _ hv => ?_
    refine .bind (reads_ofJsonItems items ty u) fun w vs huw hvs => .pure fun v' hv' => ?_
    rcases List.mem_cons.mp hv' with rfl | hmem
    · exact hv.mono huw
    · exact hvs v' hmem

theorem reads_ofJsonMembers (members : List (String × Json)) (t : HeapTyping) :
    Reads D p t (Value.ofJsonMembers p.structFields? members) fun u entries =>
      ∀ entry ∈ entries, u.Knows entry.2 := by
  cases members with
  | nil => exact .pure (by simp)
  | cons member members =>
    obtain ⟨name, value⟩ := member
    unfold Value.ofJsonMembers
    refine .bind (reads_ofJson value .any t) fun u v _ hv => ?_
    refine .bind (reads_ofJsonMembers members u) fun w entries huw hentries => .pure fun e he => ?_
    rcases List.mem_cons.mp he with rfl | hmem
    · exact hv.knows.mono huw
    · exact hentries e hmem

theorem reads_readers (members : List (String × Json)) :
    ∀ reader ∈ Value.readers p.structFields? members, ∀ ty t,
      Reads D p t (reader.2 ty) fun u v => D.Places u ty v := by
  cases members with
  | nil => simp [Value.readers]
  | cons member members =>
    obtain ⟨name, value⟩ := member
    intro reader hreader ty t
    unfold Value.readers at hreader
    rcases List.mem_cons.mp hreader with rfl | hmem
    · exact reads_ofJson value ty t
    · exact reads_readers members reader hmem ty t

end

/-! ## Inputs of a run -/

namespace Program

/-- The values of documents, each read at a type of its own. -/
def readInputs (p : Program) : List (Json × Ty) → Builder (List Value)
  | [] => pure []
  | (doc, ty) :: inputs => do
    let v ← p.valueOfJson doc ty
    let vs ← readInputs p inputs
    pure (v :: vs)

theorem reads_readInputs (inputs : List (Json × Ty)) :
    Reads D p t (p.readInputs inputs) fun u vs => ∀ v ∈ vs, u.Knows v := by
  induction inputs generalizing t with
  | nil => exact .pure (by simp)
  | cons input inputs ih =>
    obtain ⟨doc, ty⟩ := input
    refine Reads.bind (reads_ofJson doc ty t) fun u v _ hv => ?_
    refine Reads.bind ih fun w vs huw hvs => .pure fun v' hv' => ?_
    rcases List.mem_cons.mp hv' with rfl | hmem
    · exact hv.knows.mono huw
    · exact hvs v' hmem

/-- Read inputs lie in a heap that obeys the discipline. -/
theorem readInputs_obeys {inputs : List (Json × Ty)} {args : List Value} {h : Heap}
    (hread : (p.readInputs inputs).run {} = .ok (args, h)) :
    ∃ t, h.Obeys D p t ∧ ∀ v ∈ args, t.Knows v := by
  obtain ⟨t, _, hh, hargs⟩ := reads_readInputs inputs {} args h Heap.obeys_empty hread
  exact ⟨t, hh, hargs⟩

/-- The arguments of a call from outside are inputs read at the types of the parameters. -/
theorem readArgs_eq (name : String) (index : Nat) (docs : List Json) :
    p.readArgs name index docs =
      p.readInputs (docs.zipIdx index |>.map fun (doc, i) => (doc, p.paramType name i)) := by
  induction docs generalizing index with
  | nil => rfl
  | cons doc docs ih =>
    simp only [readArgs, List.zipIdx_cons, List.map_cons, readInputs, ih]

end Program

/-- A call from outside is a call with as many levels as the configuration allows. -/
theorem Engine.invoke_eq {e : Engine} {name : String} {unit : Callable}
    (hunit : e.program.find? name = some unit) (args : List Value) (heap : Heap)
    (properties : Dict String) :
    e.invoke name args heap properties =
      (call e.program maxRounds e.config.maxCallDepth unit args).on
        (e.machine heap properties) := by
  change (callByName e.program name args).on (e.machine heap properties) = _
  have hresolve : e.program.resolve name = .ok unit := by
    unfold Program.resolve
    rw [hunit]
  rw [callByName, hresolve]
  rfl

end FrameScript
