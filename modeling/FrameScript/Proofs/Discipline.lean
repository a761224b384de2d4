import FrameScript.Machine.Call
import FrameScript.Proofs.Exec
import FrameScript.Proofs.Loading
import Mathlib.Data.List.Forall2

set_option autoImplicit false

/-!
# Disciplines of storage

References of a run carry the element type or the declared name of the object they refer to, and
the objects themselves hold contents only. A heap typing says what each object is, and a state
obeys a discipline if all references in it agree with one heap typing and every place with a
declared type holds only what the discipline admits there.

## Main definitions

* `HeapTyping` — what the objects are, and `HeapTyping.Knows`, the values that agree with it.
* `Discipline` — what may be held in a place of a declared type, and what callers may hand over for
  a parameter of one.
* `Heap.Obeys`, `Frame.Obeys`, `Machine.Obeys` — storage that holds what a discipline admits.

## Main results

* `Heap.Obeys.newArray` and the other `Heap.Obeys.new…` — new objects extend the heap typing.
* `Heap.Obeys.setArray`, `Heap.Obeys.setStruct`, `Heap.Obeys.setMap` — changed objects keep it.
* `Frame.Obeys.set`, `Frame.Obeys.setReturn` — writes to a frame.

## Design

The heap typing only grows, so it serves as the world that later facts refer to: what is known of a
value stays true however the run goes on.
-/

namespace FrameScript

/-! ## Heap typings -/

/-- What the objects of a heap are, by their identities. -/
structure HeapTyping where
  /-- The element types of the arrays. -/
  arrays : List Ty := []
  /-- The names of the structs. -/
  structs : List String := []
  /-- The names of the connectors. -/
  connectors : List String := []
  /-- How many maps there are. -/
  maps : Nat := 0

namespace HeapTyping

/-- A heap typing is below those that say the same of its objects. -/
instance : LE HeapTyping where
  le t u := t.arrays <+: u.arrays ∧ t.structs <+: u.structs ∧ t.connectors <+: u.connectors ∧
    t.maps ≤ u.maps

/-- A value that refers to an object as what the heap typing says it is. -/
def Knows (t : HeapTyping) : Value → Prop
  | .array elem id => t.arrays[id]? = some elem
  | .struct name id => t.structs[id]? = some name
  | .connector name id => t.connectors[id]? = some name
  | .map id => id < t.maps
  | _ => True

variable {t u w : HeapTyping}

theorem le_refl (t : HeapTyping) : t ≤ t :=
  ⟨List.prefix_refl _, List.prefix_refl _, List.prefix_refl _, Nat.le_refl _⟩

theorem le_trans (h : t ≤ u) (h' : u ≤ w) : t ≤ w :=
  ⟨h.1.trans h'.1, h.2.1.trans h'.2.1, h.2.2.1.trans h'.2.2.1,
    Nat.le_trans h.2.2.2 h'.2.2.2⟩

theorem getElem?_of_prefix {α : Type} {as bs : List α} (h : as <+: bs) {i : Nat} {a : α}
    (ha : as[i]? = some a) : bs[i]? = some a := by
  obtain ⟨cs, rfl⟩ := h
  rwa [List.getElem?_append_left (List.getElem?_eq_some_iff.mp ha).1]

/-- An index of a list with one more item is one of the list, unless it is the new one. -/
theorem getElem?_append_singleton {α : Type} {as : List α} {a b : α} {i : Nat}
    (h : (as ++ [a])[i]? = some b) : as[i]? = some b ∨ (i = as.length ∧ b = a) := by
  rcases Nat.lt_or_ge i as.length with hlt | hge
  · exact .inl (by rwa [List.getElem?_append_left hlt] at h)
  · rw [List.getElem?_append_right hge] at h
    obtain ⟨hi, rfl⟩ := List.getElem?_eq_some_iff.mp h
    rw [List.length_singleton] at hi
    exact .inr ⟨by omega, by simp⟩

/-- What is known of a value stays true when objects are added. -/
theorem Knows.mono {v : Value} (hv : t.Knows v) (h : t ≤ u) : u.Knows v := by
  cases v with
  | array elem id => exact getElem?_of_prefix h.1 hv
  | struct name id => exact getElem?_of_prefix h.2.1 hv
  | connector name id => exact getElem?_of_prefix h.2.2.1 hv
  | map id => exact Nat.lt_of_lt_of_le hv h.2.2.2
  | _ => trivial

@[simp] theorem knows_default (t : HeapTyping) (ty : Ty) : t.Knows ty.default := by
  cases ty <;> trivial

/-- Storing a value changes at most the tag of a null, so nothing that is known of it. -/
theorem Knows.declaredAs {v : Value} (hv : t.Knows v) (ty : Ty) : t.Knows (v.declaredAs ty) := by
  unfold Value.declaredAs
  split
  · exact hv
  · trivial
  · exact hv

theorem Knows.of_bind {v v' : Value} {ty : Ty} (hv : t.Knows v) (h : v.bind ty = .ok v') :
    t.Knows v' := by
  unfold Value.bind at h
  split at h
  · cases h
  · cases h
    exact hv.declaredAs ty

end HeapTyping

/-! ## Disciplines -/

/-- What the places of a program may hold. -/
structure Discipline where
  /-- What a slot, a result, an element or a field of a declared type may hold. -/
  Holds : Ty → Value → Prop
  /-- What a connector of a name may be built from in a program. -/
  Builds : Program → String → List Value → Prop
  /-- What callers may hand over for a parameter of a declared type. -/
  Hands : Ty → Value → Prop
  /-- Places may hold the default of their type. -/
  default : ∀ ty, Holds ty ty.default
  /-- Parameters may hold the arguments that calls admit and callers may hand over. -/
  admits : ∀ ty v, refused? ty v = none → Hands ty v → Holds ty (v.declaredAs ty)
  /-- Callers may hand over anything but nulls. -/
  handsPresent : ∀ ty v, v.isNull = false → Hands ty v

/-- The types of the slots of a callable. -/
def Callable.slotTypes : Callable → List Ty
  | .function f => f.layout.slots
  | .native u => u.sig.paramTypes

variable (D : Discipline) (p : Program)

/-- Callers may hand over each value for the parameter of its number, if there is such a one. -/
def Discipline.HandsAll (tys : List Ty) (vs : List Value) : Prop :=
  ∀ (i : Nat) ty v, tys[i]? = some ty → vs[i]? = some v → D.Hands ty v

/-- A value that may be held in a place of a declared type and agrees with the heap typing. -/
structure Discipline.Places (t : HeapTyping) (ty : Ty) (v : Value) : Prop where
  knows : t.Knows v
  holds : D.Holds ty v

/-- Fields that are those of a declaration in their order. -/
abbrev Discipline.FieldsOf (t : HeapTyping) (decl : StructDecl) (fields : List (String × Value)) :
    Prop :=
  List.Forall₂ (fun (param : Param) (field : String × Value) =>
    field.1 = param.name ∧ D.Places t param.ty field.2) decl.fields fields

/-- The fields of a struct of the named type. -/
def Discipline.Fields (t : HeapTyping) (name : String) (fields : List (String × Value)) : Prop :=
  ∃ decl, p.struct? name = some decl ∧ D.FieldsOf t decl fields

/-- The values a connector is built from. -/
structure Discipline.Arguments (t : HeapTyping) (name : String) (args : List Value) : Prop where
  knows : ∀ v ∈ args, t.Knows v
  builds : D.Builds p name args

/-- The objects are what the heap typing says, and hold what the discipline admits. -/
structure Heap.Obeys (t : HeapTyping) (h : Heap) : Prop where
  arrays_length : t.arrays.length = h.arrays.size
  structs_length : t.structs.length = h.structs.size
  connectors_length : t.connectors.length = h.connectors.size
  maps_size : t.maps = h.maps.size
  array : ∀ id elem, t.arrays[id]? = some elem → ∀ v ∈ h.array id, D.Places t elem v
  struct : ∀ id name, t.structs[id]? = some name → D.Fields p t name (h.struct id)
  connector : ∀ id name, t.connectors[id]? = some name → D.Arguments p t name (h.connector id)
  map : ∀ id, ∀ entry ∈ h.map id, t.Knows entry.2

/-- The slots and the results of the frame of a callable hold what the discipline admits, and there
are as many slots for staged values as the callable asks for. -/
structure Frame.ObeysAs (t : HeapTyping) (unit : Callable) (f : Frame) : Prop where
  name : f.unit = unit.sig.qualifiedName
  slots : List.Forall₂ (D.Places t) unit.slotTypes f.slots
  returns : List.Forall₂ (D.Places t) unit.sig.returns f.returns
  temps : ∀ v, some v ∈ f.temps → t.Knows v
  room : unit.shape = .ok (unit.slotTypes, f.temps.length)

/-- The frame is one of a callable of the program and holds what the discipline admits. -/
def Frame.Obeys (t : HeapTyping) (f : Frame) : Prop :=
  ∃ unit, Dict.find? f.unit p.units = some unit ∧ f.ObeysAs D t unit

/-- The objects and all frames hold what the discipline admits. -/
structure Machine.Obeys (t : HeapTyping) (m : Machine) : Prop where
  heap : m.heap.Obeys D p t
  frames : ∀ f ∈ m.context.frames, f.Obeys D p t

variable {D p} {t u : HeapTyping}

theorem Discipline.Places.mono {ty : Ty} {v : Value} (hv : D.Places t ty v) (h : t ≤ u) :
    D.Places u ty v :=
  ⟨hv.knows.mono h, hv.holds⟩

theorem Discipline.places_default (D : Discipline) (t : HeapTyping) (ty : Ty) :
    D.Places t ty ty.default :=
  ⟨t.knows_default ty, D.default ty⟩

theorem Discipline.FieldsOf.mono {decl : StructDecl} {fields : List (String × Value)}
    (hf : D.FieldsOf t decl fields) (h : t ≤ u) : D.FieldsOf u decl fields :=
  List.Forall₂.imp (fun _ _ hf => ⟨hf.1, hf.2.mono h⟩) hf

theorem Discipline.Fields.mono {name : String} {fields : List (String × Value)}
    (hf : D.Fields p t name fields) (h : t ≤ u) : D.Fields p u name fields := by
  obtain ⟨decl, hdecl, hfields⟩ := hf
  exact ⟨decl, hdecl, Discipline.FieldsOf.mono hfields h⟩

/-- A struct under construction starts with fields that hold what they may. -/
theorem Discipline.fieldsOf_default (D : Discipline) (t : HeapTyping) (decl : StructDecl) :
    D.FieldsOf t decl (defaultFields decl) := by
  obtain ⟨_, params⟩ := decl
  simp only [FieldsOf, defaultFields]
  induction params with
  | nil => exact .nil
  | cons param params ih => exact .cons ⟨rfl, D.places_default t param.ty⟩ ih

theorem Discipline.Arguments.mono {name : String} {args : List Value}
    (ha : D.Arguments p t name args) (h : t ≤ u) : D.Arguments p u name args :=
  ⟨fun v hv => (ha.knows v hv).mono h, ha.builds⟩

theorem Frame.Obeys.mono {f : Frame} (hf : f.Obeys D p t) (h : t ≤ u) : f.Obeys D p u := by
  obtain ⟨unit, hunit, hf⟩ := hf
  exact ⟨unit, hunit, {
    name := hf.name
    slots := hf.slots.imp fun _ _ hv => hv.mono h
    returns := hf.returns.imp fun _ _ hv => hv.mono h
    temps := fun v hv => (hf.temps v hv).mono h
    room := hf.room }⟩

/-- Keeping a failure changes no storage. -/
theorem Machine.Obeys.recorded {m : Machine} (hm : m.Obeys D p t) (e : Failure) :
    (m.recorded e).Obeys D p t :=
  ⟨hm.heap, fun f hf => hm.frames f (by rwa [Machine.recorded_frames] at hf)⟩

/-! ## Objects -/

namespace Heap

theorem array_newArray (h : Heap) (elem : Ty) (items : Array Value) (id : Nat) :
    (h.newArray elem items).2.array id = if id = h.arrays.size then items else h.array id := by
  simp only [Heap.newArray, Heap.array, Array.getElem?_push]
  split <;> rfl

theorem map_newMap (h : Heap) (entries : Dict Value) (id : Nat) :
    (h.newMap entries).2.map id = if id = h.maps.size then entries else h.map id := by
  simp only [Heap.newMap, Heap.map, Array.getElem?_push]
  split <;> rfl

theorem struct_newStruct (h : Heap) (name : String) (fields : List (String × Value)) (id : Nat) :
    (h.newStruct name fields).2.struct id =
      if id = h.structs.size then fields else h.struct id := by
  simp only [Heap.newStruct, Heap.struct, Array.getElem?_push]
  split <;> rfl

theorem connector_newConnector (h : Heap) (name : String) (args : List Value) (id : Nat) :
    (h.newConnector name args).2.connector id =
      if id = h.connectors.size then args else h.connector id := by
  simp only [Heap.newConnector, Heap.connector, Array.getElem?_push]
  split <;> rfl

/-- A changed array holds what it is changed to; all others stay. -/
theorem array_setArray (h : Heap) (id id' : Nat) (change : Array Value → Array Value) :
    (h.setArray id change).array id' =
      if id = id' ∧ id < h.arrays.size then change (h.array id) else h.array id' := by
  simp only [Heap.setArray, Heap.array, Array.getElem?_modify]
  by_cases heq : id = id'
  · subst heq
    by_cases hlt : id < h.arrays.size <;> simp [hlt]
  · simp [heq]

theorem map_setMap (h : Heap) (id id' : Nat) (change : Dict Value → Dict Value) :
    (h.setMap id change).map id' =
      if id = id' ∧ id < h.maps.size then change (h.map id) else h.map id' := by
  simp only [Heap.setMap, Heap.map, Array.getElem?_modify]
  by_cases heq : id = id'
  · subst heq
    by_cases hlt : id < h.maps.size <;> simp [hlt]
  · simp [heq]

theorem struct_setStruct (h : Heap) (id id' : Nat)
    (change : List (String × Value) → List (String × Value)) :
    (h.setStruct id change).struct id' =
      if id = id' ∧ id < h.structs.size then change (h.struct id) else h.struct id' := by
  simp only [Heap.setStruct, Heap.struct, Array.getElem?_modify]
  by_cases heq : id = id'
  · subst heq
    by_cases hlt : id < h.structs.size <;> simp [hlt]
  · simp [heq]

/-- The empty heap obeys every discipline. -/
theorem obeys_empty : Heap.Obeys D p {} {} where
  arrays_length := rfl
  structs_length := rfl
  connectors_length := rfl
  maps_size := rfl
  array := by simp
  struct := by simp
  connector := by simp
  map := by simp [Heap.map]

namespace Obeys

variable {h : Heap} (hh : h.Obeys D p t)

include hh

/-- Other objects with a larger heap typing obey the discipline if everything that was not there
before is as it admits. -/
theorem update {h' : Heap} (hle : t ≤ u)
    (arrays_length : u.arrays.length = h'.arrays.size)
    (structs_length : u.structs.length = h'.structs.size)
    (connectors_length : u.connectors.length = h'.connectors.size)
    (maps_size : u.maps = h'.maps.size)
    (array : ∀ id elem, u.arrays[id]? = some elem → ∀ v ∈ h'.array id,
      (t.arrays[id]? = some elem ∧ v ∈ h.array id) ∨ D.Places u elem v)
    (struct : ∀ id name, u.structs[id]? = some name →
      (t.structs[id]? = some name ∧ h'.struct id = h.struct id) ∨
        D.Fields p u name (h'.struct id))
    (connector : ∀ id name, u.connectors[id]? = some name →
      (t.connectors[id]? = some name ∧ h'.connector id = h.connector id) ∨
        D.Arguments p u name (h'.connector id))
    (map : ∀ id, ∀ entry ∈ h'.map id, entry ∈ h.map id ∨ u.Knows entry.2) :
    h'.Obeys D p u where
  arrays_length := arrays_length
  structs_length := structs_length
  connectors_length := connectors_length
  maps_size := maps_size
  array := by
    intro id elem helem v hv
    rcases array id elem helem v hv with ⟨hold, hv⟩ | hnew
    · exact (hh.array id elem hold v hv).mono hle
    · exact hnew
  struct := by
    intro id name hname
    rcases struct id name hname with ⟨hold, heq⟩ | hnew
    · exact heq ▸ (hh.struct id name hold).mono hle
    · exact hnew
  connector := by
    intro id name hname
    rcases connector id name hname with ⟨hold, heq⟩ | hnew
    · exact heq ▸ (hh.connector id name hold).mono hle
    · exact hnew
  map := by
    intro id entry hentry
    rcases map id entry hentry with hold | hnew
    · exact (hh.map id entry hold).mono hle
    · exact hnew

/-! ### New objects -/

theorem newArray {elem : Ty} {items : Array Value} (hitems : ∀ v ∈ items, D.Places t elem v) :
    ∃ u, t ≤ u ∧ (h.newArray elem items).2.Obeys D p u ∧ u.Knows (h.newArray elem items).1 := by
  let u : HeapTyping := { t with arrays := t.arrays ++ [elem] }
  have hle : t ≤ u :=
    ⟨List.prefix_append _ _, List.prefix_refl _, List.prefix_refl _, Nat.le_refl _⟩
  have hsize := hh.arrays_length
  refine ⟨u, hle, hh.update hle (by simp [u, Heap.newArray, hsize]) hh.structs_length
    hh.connectors_length hh.maps_size ?_ (fun _ _ h => .inl ⟨h, rfl⟩)
    (fun _ _ h => .inl ⟨h, rfl⟩) (fun _ _ h => .inl h),
    by simp [u, HeapTyping.Knows, Heap.newArray, ← hsize]⟩
  intro id elem' helem v hv
  rw [array_newArray] at hv
  rcases HeapTyping.getElem?_append_singleton helem with hold | ⟨hid, rfl⟩
  · have hne : id ≠ h.arrays.size := by
      have := (List.getElem?_eq_some_iff.mp hold).1
      omega
    rw [if_neg hne] at hv
    exact .inl ⟨hold, hv⟩
  · rw [if_pos (hid.trans hsize)] at hv
    exact .inr ((hitems v hv).mono hle)

theorem newStruct {name : String} {fields : List (String × Value)}
    (hfields : D.Fields p t name fields) :
    ∃ u, t ≤ u ∧ (h.newStruct name fields).2.Obeys D p u ∧
      u.Knows (h.newStruct name fields).1 := by
  let u : HeapTyping := { t with structs := t.structs ++ [name] }
  have hle : t ≤ u :=
    ⟨List.prefix_refl _, List.prefix_append _ _, List.prefix_refl _, Nat.le_refl _⟩
  have hsize := hh.structs_length
  refine ⟨u, hle, hh.update hle hh.arrays_length (by simp [u, Heap.newStruct, hsize])
    hh.connectors_length hh.maps_size (fun _ _ h _ hv => .inl ⟨h, hv⟩) ?_
    (fun _ _ h => .inl ⟨h, rfl⟩) (fun _ _ h => .inl h),
    by simp [u, HeapTyping.Knows, Heap.newStruct, ← hsize]⟩
  intro id name' hname
  rw [struct_newStruct]
  rcases HeapTyping.getElem?_append_singleton hname with hold | ⟨hid, rfl⟩
  · have hne : id ≠ h.structs.size := by
      have := (List.getElem?_eq_some_iff.mp hold).1
      omega
    exact .inl ⟨hold, if_neg hne⟩
  · rw [if_pos (hid.trans hsize)]
    exact .inr (hfields.mono hle)

theorem newConnector {name : String} {args : List Value} (hargs : D.Arguments p t name args) :
    ∃ u, t ≤ u ∧ (h.newConnector name args).2.Obeys D p u ∧
      u.Knows (h.newConnector name args).1 := by
  let u : HeapTyping := { t with connectors := t.connectors ++ [name] }
  have hle : t ≤ u :=
    ⟨List.prefix_refl _, List.prefix_refl _, List.prefix_append _ _, Nat.le_refl _⟩
  have hsize := hh.connectors_length
  refine ⟨u, hle, hh.update hle hh.arrays_length hh.structs_length
    (by simp [u, Heap.newConnector, hsize]) hh.maps_size (fun _ _ h _ hv => .inl ⟨h, hv⟩)
    (fun _ _ h => .inl ⟨h, rfl⟩) ?_ (fun _ _ h => .inl h),
    by simp [u, HeapTyping.Knows, Heap.newConnector, ← hsize]⟩
  intro id name' hname
  rw [connector_newConnector]
  rcases HeapTyping.getElem?_append_singleton hname with hold | ⟨hid, rfl⟩
  · have hne : id ≠ h.connectors.size := by
      have := (List.getElem?_eq_some_iff.mp hold).1
      omega
    exact .inl ⟨hold, if_neg hne⟩
  · rw [if_pos (hid.trans hsize)]
    exact .inr (hargs.mono hle)

theorem newMap {entries : Dict Value} (hentries : ∀ entry ∈ entries, t.Knows entry.2) :
    ∃ u, t ≤ u ∧ (h.newMap entries).2.Obeys D p u ∧ u.Knows (h.newMap entries).1 := by
  let u : HeapTyping := { t with maps := t.maps + 1 }
  have hle : t ≤ u :=
    ⟨List.prefix_refl _, List.prefix_refl _, List.prefix_refl _, Nat.le_succ _⟩
  have hsize := hh.maps_size
  refine ⟨u, hle, hh.update hle hh.arrays_length hh.structs_length hh.connectors_length
    (by simp [u, Heap.newMap, hsize]) (fun _ _ h _ hv => .inl ⟨h, hv⟩)
    (fun _ _ h => .inl ⟨h, rfl⟩) (fun _ _ h => .inl ⟨h, rfl⟩) ?_,
    by simp [u, HeapTyping.Knows, Heap.newMap, ← hsize]⟩
  intro id entry hentry
  rw [map_newMap] at hentry
  split at hentry
  · exact .inr ((hentries entry hentry).mono hle)
  · exact .inl hentry

theorem newMessage (payload : String) : (h.newMessage payload).2.Obeys D p t :=
  hh.update t.le_refl hh.arrays_length hh.structs_length hh.connectors_length hh.maps_size
    (fun _ _ h _ hv => .inl ⟨h, hv⟩) (fun _ _ h => .inl ⟨h, rfl⟩) (fun _ _ h => .inl ⟨h, rfl⟩)
    (fun _ _ h => .inl h)

/-! ### Changed objects -/

/-- An array keeps the discipline if everything that it did not hold before may be held in it. -/
theorem setArray {elem : Ty} {id : Nat} {change : Array Value → Array Value}
    (hid : t.arrays[id]? = some elem)
    (hchange : ∀ v ∈ change (h.array id), v ∈ h.array id ∨ D.Places t elem v) :
    (h.setArray id change).Obeys D p t := by
  refine hh.update t.le_refl (by simp [Heap.setArray, hh.arrays_length]) hh.structs_length
    hh.connectors_length hh.maps_size ?_ (fun _ _ h => .inl ⟨h, rfl⟩)
    (fun _ _ h => .inl ⟨h, rfl⟩) (fun _ _ h => .inl h)
  intro id' elem' helem v hv
  rw [array_setArray] at hv
  split at hv
  next hcond =>
    obtain rfl := hcond.1
    obtain rfl : elem' = elem := by simpa [hid] using helem.symm
    exact (hchange v hv).imp_left fun hold => ⟨hid, hold⟩
  · exact .inl ⟨helem, hv⟩

theorem setStruct {name : String} {id : Nat}
    {change : List (String × Value) → List (String × Value)} (hid : t.structs[id]? = some name)
    (hchange : D.Fields p t name (change (h.struct id))) :
    (h.setStruct id change).Obeys D p t := by
  refine hh.update t.le_refl hh.arrays_length (by simp [Heap.setStruct, hh.structs_length])
    hh.connectors_length hh.maps_size (fun _ _ h _ hv => .inl ⟨h, hv⟩) ?_
    (fun _ _ h => .inl ⟨h, rfl⟩) (fun _ _ h => .inl h)
  intro id' name' hname
  rw [struct_setStruct]
  split
  next hcond =>
    obtain rfl := hcond.1
    obtain rfl : name' = name := by simpa [hid] using hname.symm
    exact .inr hchange
  · exact .inl ⟨hname, rfl⟩

theorem setMap {id : Nat} {change : Dict Value → Dict Value}
    (hchange : ∀ entry ∈ change (h.map id), entry ∈ h.map id ∨ t.Knows entry.2) :
    (h.setMap id change).Obeys D p t := by
  refine hh.update t.le_refl hh.arrays_length hh.structs_length hh.connectors_length
    (by simp [Heap.setMap, hh.maps_size]) (fun _ _ h _ hv => .inl ⟨h, hv⟩)
    (fun _ _ h => .inl ⟨h, rfl⟩) (fun _ _ h => .inl ⟨h, rfl⟩) ?_
  intro id' entry hentry
  rw [map_setMap] at hentry
  split at hentry
  next hcond =>
    obtain rfl := hcond.1
    exact hchange entry hentry
  · exact .inl hentry

end Obeys

/-! ### Contents -/

/-- What an array holds after a write: what it held, the value, and defaults in between. -/
theorem mem_withElement {elem : Ty} {index : Nat} {v w : Value} {items : Array Value}
    (h : w ∈ withElement elem index v items) : w ∈ items ∨ w = v ∨ w = elem.default := by
  unfold withElement at h
  split at h
  · rcases Array.mem_or_eq_of_mem_setIfInBounds h with hold | heq
    · exact .inl hold
    · exact .inr (.inl heq)
  · rcases Array.mem_push.mp h with happend | heq
    · rcases Array.mem_append.mp happend with hold | hfill
      · exact .inl hold
      · exact .inr (.inr (Array.mem_replicate.mp hfill).2)
    · exact .inr (.inl heq)

/-- A write to the first field of a name keeps all fields as they are declared. -/
theorem fieldsOf_withField {name : String} {v : Value} {decl : StructDecl}
    {fields : List (String × Value)}
    (hv : ∀ ty, decl.fieldType? name = some ty → D.Places t ty v)
    (h : D.FieldsOf t decl fields) : D.FieldsOf t decl (withField name v fields) := by
  obtain ⟨_, params⟩ := decl
  simp only [StructDecl.fieldType?, Discipline.FieldsOf] at hv h ⊢
  induction h with
  | nil => exact .nil
  | @cons param field params fields hfirst hrest ih =>
    obtain ⟨n, old⟩ := field
    obtain ⟨rfl, hold⟩ := hfirst
    simp only [withField]
    by_cases heq : (param.name == name) = true
    · simp only [List.find?_cons, heq] at hv
      rw [if_pos heq]
      exact .cons ⟨rfl, hv param.ty rfl⟩ hrest
    · simp only [List.find?_cons, heq] at hv
      rw [if_neg heq]
      exact .cons ⟨rfl, hold⟩ (ih hv)

/-- The first field of a name holds what the first declaration of the name asks for. -/
theorem places_of_field? {name : String} {v : Value} {decl : StructDecl}
    {fields : List (String × Value)}
    (h : D.FieldsOf t decl fields) (hv : field? name fields = some v) :
    ∃ ty, decl.fieldType? name = some ty ∧ D.Places t ty v := by
  obtain ⟨_, params⟩ := decl
  simp only [StructDecl.fieldType?, field?, Discipline.FieldsOf] at hv h ⊢
  induction h with
  | nil => cases hv
  | @cons param field params fields hfirst hrest ih =>
    obtain ⟨n, w⟩ := field
    obtain ⟨rfl, hw⟩ := hfirst
    by_cases heq : (param.name == name) = true
    · simp only [List.find?_cons, heq, Option.map_some, Option.some.injEq] at hv ⊢
      subst hv
      exact ⟨param.ty, rfl, hw⟩
    · simp only [List.find?_cons, heq] at hv ⊢
      exact ih hv

/-- A struct has the fields that are declared for it. -/
theorem isSome_field? {name : String} {ty : Ty} {decl : StructDecl}
    {fields : List (String × Value)} (h : D.FieldsOf t decl fields)
    (hty : decl.fieldType? name = some ty) : (field? name fields).isSome = true := by
  obtain ⟨_, params⟩ := decl
  simp only [StructDecl.fieldType?, field?, Discipline.FieldsOf] at hty h ⊢
  induction h with
  | nil => cases hty
  | @cons param field params fields hfirst _ ih =>
    obtain ⟨n, w⟩ := field
    obtain ⟨rfl, _⟩ := hfirst
    by_cases heq : (param.name == name) = true
    · simp [heq]
    · simp only [List.find?_cons, heq] at hty ⊢
      exact ih hty

end Heap

/-! ## Frames -/

/-- A fresh frame of the callable has its slots, the parameters first. -/
structure Callable.WellShaped (unit : Callable) : Prop where
  shape : ∃ temps, unit.shape = .ok (unit.slotTypes, temps)
  params : unit.sig.paramTypes <+: unit.slotTypes

/-- The callables of linked programs have the slots that their frames are made with. -/
theorem Program.Linked.wellShaped {natives : Registry} {p : Program} (hp : p.Linked natives)
    {name : String} {unit : Callable} (h : p.find? name = some unit) : unit.WellShaped := by
  cases unit with
  | native u => exact ⟨⟨0, rfl⟩, List.prefix_refl _⟩
  | function f =>
    obtain ⟨decl, hf⟩ := hp.laidOut h
    refine ⟨⟨_, hf.shape⟩, ?_⟩
    simp only [Callable.slotTypes, hf.layout, layoutOf]
    exact ⟨_, by rw [Signature.paramTypes, Callable.sig, hf.params]⟩

/-- Arguments that pass the check of types, and are as many as the parameters, are not refused. -/
theorem forall₂_of_checkTypes {callee : String} {index : Nat} {params : List Param}
    {args : List Value} (hlen : args.length = params.length)
    (h : checkTypes callee index params args = .ok ()) :
    List.Forall₂ (fun ty v => refused? ty v = none) (params.map (·.ty)) args := by
  induction params generalizing index args with
  | nil =>
    obtain rfl := List.length_eq_zero_iff.mp hlen
    exact .nil
  | cons param params ih =>
    obtain _ | ⟨v, args⟩ := args
    · cases hlen
    · unfold checkTypes at h
      split at h
      · cases h
      next hnone => exact .cons hnone (ih (Nat.succ.inj hlen) h)

/-- The check of types does not complain of arguments that are not refused. -/
theorem checkTypes_eq_ok {callee : String} {index : Nat} {params : List Param} {args : List Value}
    (h : List.Forall₂ (fun ty v => refused? ty v = none) (params.map (·.ty)) args) :
    checkTypes callee index params args = .ok () := by
  induction params generalizing index args with
  | nil => rfl
  | cons param params ih =>
    obtain ⟨v, args, hfirst, hrest, rfl⟩ := List.forall₂_cons_left_iff.mp h
    simp only [checkTypes, hfirst]
    exact ih hrest

/-- The check of types complains of an argument that its parameter does not take. -/
theorem checkTypes_error {callee : String} {index : Nat} {params : List Param} {args : List Value}
    {f : Fault} (h : checkTypes callee index params args = .error f) :
    ∃ (i : Nat) (param : Param) (v : Value) (found : Ty), params[i]? = some param ∧
      args[i]? = some v ∧ refused? param.ty v = some found ∧
        f = .argumentType callee (index + i) param.ty found := by
  induction params generalizing index args with
  | nil => cases h
  | cons param params ih =>
    obtain _ | ⟨v, args⟩ := args
    · cases h
    · unfold checkTypes at h
      split at h
      next found hfound =>
        cases h
        exact ⟨0, param, v, found, rfl, rfl, hfound, rfl⟩
      · obtain ⟨i, param', v', found, hparam, hv, hfound, rfl⟩ := ih h
        refine ⟨i + 1, param', v', found, hparam, hv, hfound, ?_⟩
        rw [Nat.add_right_comm, Nat.add_assoc]

/-- Arguments that are admitted are as many as the parameters. -/
theorem length_of_checkArguments {sig : Signature} {args : List Value}
    (h : checkArguments sig args = .ok ()) : args.length = sig.params.length := by
  unfold checkArguments at h
  split at h
  · cases h
  next hlen => exact not_not.mp (mt bne_iff_ne.mpr hlen)

/-- The slots of a fresh frame: admitted arguments in front, defaults behind them. -/
theorem forall₂_freshSlots {params slots : List Ty} {args : List Value}
    (hargs : List.Forall₂ (fun ty v => refused? ty v = none) params args)
    (hhands : D.HandsAll params args) (hknows : ∀ v ∈ args, t.Knows v) (hfront : params <+: slots) :
    List.Forall₂ (D.Places t) slots
      ((args.zip slots).map (fun (v, ty) => v.declaredAs ty) ++
        (slots.drop args.length).map Ty.default) := by
  obtain ⟨extra, rfl⟩ := hfront
  induction hargs with
  | nil =>
    simp only [List.nil_append, List.zip_nil_left, List.map_nil, List.length_nil, List.drop_zero]
    induction extra with
    | nil => exact .nil
    | cons ty extra ih => exact .cons (D.places_default t ty) ih
  | @cons ty v params args hfirst hrest ih =>
    simp only [List.cons_append, List.zip_cons_cons, List.map_cons, List.length_cons,
      List.drop_succ_cons]
    refine .cons ⟨?_, D.admits ty v hfirst (hhands 0 ty v rfl rfl)⟩ (ih (fun i => hhands (i + 1))
      fun w hw => hknows w (List.mem_cons_of_mem _ hw))
    exact (hknows v List.mem_cons_self).declaredAs ty

/-- The frame that is made for as many arguments as there are parameters: the arguments, each as its
slot declares it, and defaults everywhere else. -/
theorem Callable.WellShaped.make? {unit : Callable} (hunit : unit.WellShaped) {args : List Value}
    (hlen : args.length = unit.sig.params.length) (temps : Nat) :
    Frame.make? unit.sig.qualifiedName unit.slotTypes
        ((args.zip unit.slotTypes).map fun (v, ty) => v.declaredAs ty) temps unit.sig.returns =
      .ok {
        unit := unit.sig.qualifiedName
        argCount := args.length
        slots := (args.zip unit.slotTypes).map (fun (v, ty) => v.declaredAs ty) ++
          (unit.slotTypes.drop args.length).map Ty.default
        temps := List.replicate temps none
        returns := unit.sig.returns.map Ty.default } := by
  have hfit : args.length ≤ unit.slotTypes.length := by
    have := hunit.params.length_le
    rwa [Signature.paramTypes, List.length_map, ← hlen] at this
  have hzip : ((args.zip unit.slotTypes).map fun (v, ty) => v.declaredAs ty).length =
      args.length := by
    rw [List.length_map, List.length_zip, Nat.min_eq_left hfit]
  dsimp only [Frame.make?]
  rw [hzip, if_neg (Nat.not_lt.mpr hfit)]

/-- A call that is admitted starts on a frame with its arguments, each as its slot declares it, and
with defaults everywhere else. -/
theorem prepare_ok {unit : Callable} (hunit : unit.WellShaped) {args : List Value} {f : Frame}
    (h : prepare unit args = .ok f) :
    List.Forall₂ (fun ty v => refused? ty v = none) unit.sig.paramTypes args ∧
      ∃ temps, unit.shape = .ok (unit.slotTypes, temps) ∧ f = {
        unit := unit.sig.qualifiedName
        argCount := args.length
        slots := (args.zip unit.slotTypes).map (fun (v, ty) => v.declaredAs ty) ++
          (unit.slotTypes.drop args.length).map Ty.default
        temps := List.replicate temps none
        returns := unit.sig.returns.map Ty.default } := by
  obtain ⟨temps, hshape⟩ := hunit.shape
  obtain ⟨_, hcheck, h⟩ := bind_eq_ok.mp h
  obtain ⟨_, hslots, h⟩ := bind_eq_ok.mp h
  rw [hshape] at hslots
  cases hslots
  have hlen := length_of_checkArguments hcheck
  rw [checkArguments, if_neg (by simpa using hlen)] at hcheck
  refine ⟨forall₂_of_checkTypes hlen hcheck, temps, hshape, ?_⟩
  exact Except.ok.inj (h.symm.trans (hunit.make? hlen temps))

/-- A call is refused for its arguments only. -/
theorem prepare_eq_error {unit : Callable} (hunit : unit.WellShaped) {args : List Value}
    {f : Fault} : prepare unit args = .error f ↔ checkArguments unit.sig args = .error f := by
  obtain ⟨temps, hshape⟩ := hunit.shape
  unfold prepare
  rcases hcheck : checkArguments unit.sig args with e | _
  · refine ⟨fun h => ?_, fun h => ?_⟩ <;> cases h <;> rfl
  · have hmade := hunit.make? (length_of_checkArguments hcheck) temps
    rw [hshape]
    refine ⟨fun h => ?_, fun h => ?_⟩
    · cases h.symm.trans hmade
    · cases h

/-- A call with an argument for every parameter is refused only for an argument that its parameter
does not take. -/
theorem prepare_error {unit : Callable} (hunit : unit.WellShaped) {args : List Value} {f : Fault}
    (hlen : args.length = unit.sig.params.length) (h : prepare unit args = .error f) :
    ∃ (i : Nat) (param : Param) (v : Value) (found : Ty), unit.sig.params[i]? = some param ∧
      args[i]? = some v ∧ refused? param.ty v = some found ∧
        f = .argumentType unit.sig.qualifiedName i param.ty found := by
  rw [prepare_eq_error hunit, checkArguments, if_neg (by simpa using hlen)] at h
  simpa using checkTypes_error h

/-- A frame that is prepared for what callers may hand over holds what the discipline admits. -/
theorem Frame.obeysAs_of_prepare {unit : Callable} (hunit : unit.WellShaped) {args : List Value}
    (hargs : ∀ v ∈ args, t.Knows v) (hhands : D.HandsAll unit.sig.paramTypes args) {f : Frame}
    (h : prepare unit args = .ok f) : f.ObeysAs D t unit := by
  obtain ⟨hadmitted, temps, hshape, rfl⟩ := prepare_ok hunit h
  refine ⟨rfl, forall₂_freshSlots hadmitted hhands hargs hunit.params, ?_, by simp,
    by simpa using hshape⟩
  dsimp only
  generalize unit.sig.returns = returns
  induction returns with
  | nil => exact .nil
  | cons ty returns ih => exact .cons (D.places_default t ty) ih

/-- One of two related lists may be changed at a place where the relation holds again. -/
theorem forall₂_set {α β : Type} {R : α → β → Prop} {as : List α} {bs : List β}
    (h : List.Forall₂ R as bs) {i : Nat} {b : β} (hb : ∀ a, as[i]? = some a → R a b) :
    List.Forall₂ R as (bs.set i b) := by
  induction h generalizing i with
  | nil => exact .nil
  | @cons a b' as bs hfirst hrest ih =>
    cases i with
    | zero => exact .cons (hb a rfl) hrest
    | succ i => exact .cons hfirst (ih hb)

/-- Lists that are related to one between them are related by what relates their items. -/
theorem forall₂_comp {α β γ : Type} {R : α → β → Prop} {S : β → γ → Prop} {T : α → γ → Prop}
    (h : ∀ a b c, R a b → S b c → T a c) {as : List α} {bs : List β} {cs : List γ}
    (hab : List.Forall₂ R as bs) (hbc : List.Forall₂ S bs cs) : List.Forall₂ T as cs := by
  induction hab generalizing cs with
  | nil =>
    cases hbc
    exact .nil
  | cons hfirst _ ih =>
    obtain ⟨c, cs', hc, hcs, rfl⟩ := List.forall₂_cons_left_iff.mp hbc
    exact .cons (h _ _ c hfirst hc) (ih hcs)

/-- What the places of one of two related lists say of the other. -/
theorem forall₂_getElem? {α β : Type} {R : α → β → Prop} {as : List α} {bs : List β}
    (h : List.Forall₂ R as bs) {i : Nat} {b : β} (hb : bs[i]? = some b) :
    ∃ a, as[i]? = some a ∧ R a b := by
  induction h generalizing i with
  | nil => cases hb
  | @cons a b' as bs hfirst hrest ih =>
    cases i with
    | zero =>
      cases hb
      exact ⟨a, rfl, hfirst⟩
    | succ i => exact ih hb

theorem forall₂_right_mem {α β : Type} {R : α → β → Prop} {as : List α} {bs : List β}
    (h : List.Forall₂ R as bs) {b : β} (hb : b ∈ bs) : ∃ a, R a b := by
  obtain ⟨i, hi⟩ := List.mem_iff_getElem?.mp hb
  obtain ⟨a, _, hab⟩ := forall₂_getElem? h hi
  exact ⟨a, hab⟩

namespace Frame.ObeysAs

variable {unit : Callable} {f g : Frame} (hf : f.ObeysAs D t unit)

include hf

/-- What a slot holds is what its type admits. -/
theorem get {i : Nat} {v : Value} (hv : f.get i = .ok v) :
    ∃ ty, unit.slotTypes[i]? = some ty ∧ D.Places t ty v := by
  unfold Frame.get at hv
  split at hv
  next w hw =>
    cases hv
    exact forall₂_getElem? hf.slots hw
  · cases hv

theorem set {i : Nat} {v : Value} (hv : ∀ ty, unit.slotTypes[i]? = some ty → D.Places t ty v)
    (h : f.set i v = .ok g) : g.ObeysAs D t unit := by
  unfold Frame.set at h
  split at h
  · cases h
    exact ⟨hf.name, forall₂_set hf.slots hv, hf.returns, hf.temps, hf.room⟩
  · cases h

theorem setReturn {i : Nat} {v : Value}
    (hv : ∀ ty, unit.sig.returns[i]? = some ty → D.Places t ty v)
    (h : f.setReturn i v = .ok g) : g.ObeysAs D t unit := by
  unfold Frame.setReturn at h
  split at h
  · cases h
    exact ⟨hf.name, hf.slots, forall₂_set hf.returns hv, hf.temps, hf.room⟩
  · cases h

theorem setTemp {i : Nat} {v : Value} (hv : t.Knows v) (h : f.setTemp i v = .ok g) :
    g.ObeysAs D t unit := by
  unfold Frame.setTemp at h
  split at h
  · cases h
    refine ⟨hf.name, hf.slots, hf.returns, fun w hw => ?_, by simpa using hf.room⟩
    rcases List.mem_or_eq_of_mem_set hw with hold | hnew
    · exact hf.temps w hold
    · cases hnew
      exact hv
  · cases h

/-- A staged value is known, and the frame it is taken from obeys the discipline as before. -/
theorem takeTemp {i : Nat} {v : Value} (h : f.takeTemp i = .ok (v, g)) :
    t.Knows v ∧ g.ObeysAs D t unit := by
  unfold Frame.takeTemp at h
  split at h
  · cases h
  · cases h
  next w hw =>
    cases h
    refine ⟨hf.temps v (List.mem_of_getElem? hw), hf.name, hf.slots, hf.returns, ?_,
      by simpa using hf.room⟩
    intro w hw
    rcases List.mem_or_eq_of_mem_set hw with hold | hnew
    · exact hf.temps w hold
    · cases hnew

end Frame.ObeysAs

end FrameScript
