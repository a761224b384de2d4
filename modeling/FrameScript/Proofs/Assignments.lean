import FrameScript.Proofs.Nulls

set_option autoImplicit false

/-!
# Assignments

What an assignment does once its value and the parts of its target are evaluated: it either fails
and changes nothing at all, or it changes the one place it is about. Only an array grows with it if
the place lies behind its end.

## Main definitions

* `Cell` — the parts of a state that an assignment can change, and `Machine.cell?`, their values.
* `Machine.emptied` — what is left of a state without the values of its cells.
* `Place` — a target whose parts are evaluated, with `Place.cell?`, the cell it is, and `Place.ty?`,
  the type that is declared for it.
* `Place.Refused` — why a place does not take a value.
* `Machine.Stores` — one state is another one after a value is stored in one of its cells.

## Main results

* `Heap.getElem?_withElement`, `Heap.getElem?_withField` — what is where after a write.
* `Machine.stores_slot`, `Machine.stores_element`, `Machine.stores_entry`, `Machine.stores_field` —
  each kind of write stores in one cell.
* `Target.eval_expr` — a target that is read as an expression has the value of its place.
* `assign_atomic_local` — an assignment is atomic and local.
* `onHeap_of_reaches` — the assignments of a run write to objects.

## Design

Cells are told apart by the identity of the object that they are part of, not by the value that
refers to it, so two references to one object lead to the same cells.
-/

namespace FrameScript

open Exec

/-! ## Contents of objects -/

namespace Heap

variable {elem : Ty} {index i : Nat} {v : Value} {items : Array Value} {name : String}
  {fields : List (String × Value)}

/-- What is where in an array after a write: the value at its index, defaults between the former end
and the index, and everything else as it was. -/
theorem getElem?_withElement :
    (withElement elem index v items)[i]? =
      if i = index then some v
      else if items.size ≤ i ∧ i < index then some elem.default
      else items[i]? := by
  unfold withElement
  split
  next hlt =>
    rw [Array.getElem?_setIfInBounds]
    by_cases heq : i = index
    · simp [heq, hlt]
    · rw [if_neg (Ne.symm heq), if_neg heq, if_neg (by omega)]
  next hge =>
    have hsize : (items ++ Array.replicate (index - items.size) elem.default).size = index := by
      rw [Array.size_append, Array.size_replicate]
      omega
    rw [Array.getElem?_push, hsize]
    by_cases heq : i = index
    · simp [heq]
    · rw [if_neg heq, if_neg heq, Array.getElem?_append, Array.getElem?_replicate]
      split
      next hlt => rw [if_neg (by omega)]
      next hle =>
        by_cases hpadding : i < index
        · rw [if_pos (by omega), if_pos ⟨by omega, hpadding⟩]
        · rw [if_neg (by omega), if_neg (by omega), Array.getElem?_eq_none (by omega)]

/-- An array grows just so far that the index is in it. -/
theorem size_withElement : (withElement elem index v items).size = max items.size (index + 1) := by
  unfold withElement
  split
  next hlt =>
    rw [Array.size_setIfInBounds]
    omega
  next hge =>
    rw [Array.size_push, Array.size_append, Array.size_replicate]
    omega

/-- The position of the first field of a name. -/
def position? (name : String) (fields : List (String × Value)) : Option Nat :=
  (fields.map (·.1)).findIdx? (· == name)

theorem position?_cons {n : String} {old : Value} :
    position? name ((n, old) :: fields) =
      if n == name then some 0 else (position? name fields).map (· + 1) := by
  simp only [position?, List.map_cons, List.findIdx?_cons]

/-- A write to a field is one to the first field of its name. -/
theorem getElem?_withField :
    (withField name v fields)[i]? =
      if position? name fields = some i then fields[i]?.map fun field => (field.1, v)
      else fields[i]? := by
  induction fields generalizing i with
  | nil => simp [withField]
  | cons field fields ih =>
    obtain ⟨n, old⟩ := field
    rw [withField, position?_cons]
    by_cases heq : (n == name) = true
    · rw [if_pos heq, if_pos heq]
      cases i <;> simp
    · rw [if_neg heq, if_neg heq]
      cases i with
      | zero => simp
      | succ i =>
        rw [List.getElem?_cons_succ, List.getElem?_cons_succ, ih]
        simp

/-- The names of the fields stay. -/
theorem map_fst_withField : (withField name v fields).map (·.1) = fields.map (·.1) := by
  induction fields with
  | nil => rfl
  | cons field fields ih =>
    obtain ⟨n, old⟩ := field
    rw [withField]
    split <;> simp [ih]

/-- A field is read at the position of its name. -/
theorem field?_eq :
    field? name fields = (position? name fields).bind fun i => fields[i]?.map (·.2) := by
  induction fields with
  | nil => rfl
  | cons field fields ih =>
    obtain ⟨n, old⟩ := field
    rw [position?_cons]
    by_cases heq : (n == name) = true
    · simp [field?, heq]
    · simp only [field?, List.find?_cons, heq] at ih ⊢
      rw [if_neg (by simp), ih]
      cases position? name fields <;> rfl

theorem getElem?_of_position? (h : position? name fields = some i) :
    ∃ field, fields[i]? = some field := by
  obtain ⟨hlt, -⟩ := List.findIdx?_eq_some_iff_getElem.mp h
  rw [List.length_map] at hlt
  exact ⟨fields[i], List.getElem?_eq_getElem hlt⟩

/-- There is a field of a name if and only if the name has a position. -/
theorem isSome_field?_eq : (field? name fields).isSome = (position? name fields).isSome := by
  rw [field?_eq]
  cases hposition : position? name fields with
  | none => rfl
  | some i =>
    obtain ⟨field, hfield⟩ := getElem?_of_position? hposition
    simp [hfield]

/-- A struct with a field is an object of the heap. -/
theorem lt_size_of_position? {h : Heap} {id : Nat}
    (hposition : position? name (h.struct id) = some i) : id < h.structs.size := by
  by_contra hge
  rw [struct, Array.getElem?_eq_none (by omega)] at hposition
  cases hposition

end Heap

/-! ## Cells -/

/-- A part of a state that an assignment can change. -/
inductive Cell
  /-- A slot of an active call, of which the innermost is at depth `0`. -/
  | slot (depth index : Nat)
  /-- An element of an array. -/
  | element (id index : Nat)
  /-- An entry of a map. -/
  | entry (id : Nat) (key : String)
  /-- A field of a struct, by its position. -/
  | field (id index : Nat)
  deriving DecidableEq, Repr

/-- A frame with nothing in its slots. -/
def Frame.emptied (f : Frame) : Frame :=
  { f with slots := f.slots.map fun _ => .bareNull }

/-- The objects with nothing in arrays, maps and fields. -/
def Heap.emptied (h : Heap) : Heap where
  arrays := h.arrays.map fun _ => #[]
  maps := h.maps.map fun _ => []
  structs := h.structs.map fun fields => fields.map fun field => (field.1, .bareNull)
  connectors := h.connectors
  messages := h.messages

namespace Heap

/-- A change of one object is not seen by those who do not see it in any object. -/
theorem map_modify {α β : Type} {view : α → β} {change : α → α}
    (h : ∀ a, view (change a) = view a) (objects : Array α) (id : Nat) :
    (objects.modify id change).map view = objects.map view := by
  refine Array.ext (by simp) fun i _ _ => ?_
  rw [Array.getElem_map, Array.getElem_map, Array.getElem_modify]
  split
  · exact h _
  · rfl

theorem emptied_setArray (h : Heap) (id : Nat) (change : Array Value → Array Value) :
    (h.setArray id change).emptied = h.emptied := by
  have harrays : (h.arrays.modify id change).map (fun _ => (#[] : Array Value)) =
      h.arrays.map fun _ => #[] := map_modify (by simp) h.arrays id
  simp only [emptied, setArray, harrays]

theorem emptied_setMap (h : Heap) (id : Nat) (change : Dict Value → Dict Value) :
    (h.setMap id change).emptied = h.emptied := by
  have hmaps : (h.maps.modify id change).map (fun _ => ([] : Dict Value)) =
      h.maps.map fun _ => [] := map_modify (by simp) h.maps id
  simp only [emptied, setMap, hmaps]

theorem emptied_withField (h : Heap) (id : Nat) (name : String) (v : Value) :
    (h.setStruct id (withField name v)).emptied = h.emptied := by
  have hnames (fields : List (String × Value)) :
      (withField name v fields).map (fun field => (field.1, Value.bareNull)) =
        fields.map fun field => (field.1, Value.bareNull) := by
    have hfst : ((withField name v fields).map (·.1)).map (fun n => (n, Value.bareNull)) =
        (fields.map (·.1)).map fun n => (n, Value.bareNull) := by rw [map_fst_withField]
    simpa only [List.map_map, Function.comp_def] using hfst
  simp only [emptied, setStruct, map_modify hnames]

end Heap

namespace Machine

/-- The value of a cell, if there is such a one. -/
def cell? (m : Machine) : Cell → Option Value
  | .slot depth index => m.context.frames[depth]?.bind fun f => f.slots[index]?
  | .element id index => (m.heap.array id)[index]?
  | .entry id key => Dict.find? key (m.heap.map id)
  | .field id index => ((m.heap.struct id)[index]?).map (·.2)

/-- The state without the values of its cells: which calls are active, which objects there are and
how their fields are called, everything staged, returned, recorded and printed. -/
def emptied (m : Machine) : Machine :=
  (m.withFrames (m.context.frames.map Frame.emptied)).withHeap m.heap.emptied

/-- A write to the first cell brings the second about: it lies between the former end of an array
and the element that is written. -/
def Pads (m : Machine) : Cell → Cell → Prop
  | .element id index, .element id' i => id = id' ∧ (m.heap.array id).size ≤ i ∧ i < index
  | _, _ => False

/-- The second state is the first one after a value is stored in one of its cells, for which a type
may be declared. -/
structure Stores (m m' : Machine) (cell : Cell) (ty? : Option Ty) (v : Value) : Prop where
  /-- The cell has the value. -/
  stored : m'.cell? cell = some v
  /-- All other cells are as they were, unless an array grows. -/
  others : ∀ c, c ≠ cell → ¬m.Pads cell c → m'.cell? c = m.cell? c
  /-- Where an array grows, the elements in between have the default of its element type. -/
  padding : ∀ c, m.Pads cell c → ∃ ty, ty? = some ty ∧ m'.cell? c = some ty.default
  /-- An array grows just so far that the element is its last one. -/
  size : ∀ id index, cell = .element id index →
    (m'.heap.array id).size = max (m.heap.array id).size (index + 1)
  /-- Nothing has changed but values of cells. -/
  emptied : m'.emptied = m.emptied

variable {m : Machine}

theorem emptied_withHeap {h : Heap} (heq : h.emptied = m.heap.emptied) :
    (m.withHeap h).emptied = m.emptied := by
  rw [Machine.emptied, Machine.emptied, withHeap_heap, heq]
  rfl

/-- A write to a slot of the innermost call stores in that slot. -/
theorem stores_slot {f : Frame} {rest : List Frame} {index : Nat} {ty? : Option Ty} {v : Value}
    (hframes : m.context.frames = f :: rest) (hindex : index < f.slots.length) :
    m.Stores (m.withFrames ({ f with slots := f.slots.set index v } :: rest)) (.slot 0 index) ty?
      v where
  stored := by simp [cell?, hindex]
  others c hc _ := by
    cases c with
    | slot depth i =>
      cases depth with
      | zero =>
        have hne : index ≠ i := fun heq => hc (by rw [heq])
        simp [cell?, hframes, List.getElem?_set_ne hne]
      | succ depth => simp [cell?, hframes]
    | _ => rfl
  padding c hc := hc.elim
  size _ _ h := by cases h
  emptied := by
    simp [Machine.emptied, hframes, Frame.emptied]

/-- A write to an element stores in that element. -/
theorem stores_element {elem : Ty} {id index : Nat} {v : Value}
    (hid : id < m.heap.arrays.size) :
    m.Stores (m.withHeap (m.heap.setArray id (Heap.withElement elem index v))) (.element id index)
      (some elem) v where
  stored := by simp [cell?, Heap.array_setArray, hid, Heap.getElem?_withElement]
  others c hc hpads := by
    cases c with
    | element id' i =>
      simp only [cell?, withHeap_heap, Heap.array_setArray]
      by_cases heq : id = id'
      · subst heq
        have hi : i ≠ index := fun heq => hc (by rw [heq])
        rw [if_pos ⟨rfl, hid⟩, Heap.getElem?_withElement, if_neg hi,
          if_neg fun hpadding => hpads ⟨rfl, hpadding⟩]
      · rw [if_neg fun h => heq h.1]
    | _ => rfl
  padding c hc := by
    cases c with
    | element id' i =>
      obtain ⟨rfl, hpadding⟩ := hc
      refine ⟨elem, rfl, ?_⟩
      simp only [cell?, withHeap_heap, Heap.array_setArray]
      rw [if_pos ⟨trivial, hid⟩, Heap.getElem?_withElement, if_neg (by omega), if_pos hpadding]
    | _ => exact hc.elim
  size _ _ h := by
    cases h
    simp only [withHeap_heap, Heap.array_setArray]
    rw [if_pos ⟨trivial, hid⟩, Heap.size_withElement]
  emptied := emptied_withHeap (m.heap.emptied_setArray id _)

/-- A write to a map stores in the entry of the key. -/
theorem stores_entry {id : Nat} {key : String} {ty? : Option Ty} {v : Value}
    (hid : id < m.heap.maps.size) :
    m.Stores (m.withHeap (m.heap.setMap id (Dict.insert key v))) (.entry id key) ty? v where
  stored := by simp [cell?, Heap.map_setMap, hid, Dict.find?_insert]
  others c hc _ := by
    cases c with
    | entry id' key' =>
      simp only [cell?, withHeap_heap, Heap.map_setMap]
      by_cases heq : id = id'
      · subst heq
        have hkey : ¬(key == key') = true := by
          rw [beq_iff_eq]
          exact fun heq => hc (by rw [heq])
        rw [if_pos ⟨rfl, hid⟩, Dict.find?_insert, if_neg hkey]
      · rw [if_neg fun h => heq h.1]
    | _ => rfl
  padding c hc := hc.elim
  size _ _ h := by cases h
  emptied := emptied_withHeap (m.heap.emptied_setMap id _)

/-- A write to a field stores in the first field of the name. -/
theorem stores_field {id index : Nat} {name : String} {ty? : Option Ty} {v : Value}
    (hposition : Heap.position? name (m.heap.struct id) = some index) :
    m.Stores (m.withHeap (m.heap.setStruct id (Heap.withField name v))) (.field id index) ty?
      v where
  stored := by
    obtain ⟨field, hfield⟩ := Heap.getElem?_of_position? hposition
    simp [cell?, Heap.struct_setStruct, Heap.lt_size_of_position? hposition,
      Heap.getElem?_withField, hposition, hfield]
  others c hc _ := by
    cases c with
    | field id' i =>
      simp only [cell?, withHeap_heap, Heap.struct_setStruct]
      by_cases heq : id = id'
      · subst heq
        have hi : ¬Heap.position? name (m.heap.struct id) = some i := by
          rw [hposition, Option.some.injEq]
          exact fun heq => hc (by rw [heq])
        rw [if_pos ⟨rfl, Heap.lt_size_of_position? hposition⟩, Heap.getElem?_withField, if_neg hi]
      · rw [if_neg fun h => heq h.1]
    | _ => rfl
  padding c hc := hc.elim
  size _ _ h := by cases h
  emptied := emptied_withHeap (m.heap.emptied_withField id name v)

end Machine

/-! ## Places -/

/-- A target whose parts are evaluated. -/
inductive Place
  /-- A variable. -/
  | var (x : Variable)
  /-- What a key leads to in a value, which an expression has evaluated to. -/
  | element (base : Expr) (container key : Value)
  /-- A field of a value, which an expression has evaluated to. -/
  | field (base : Expr) (container : Value) (name : String)

/-- Evaluates the parts of a target. -/
def Target.locate (code : Code) : Target → Exec Place
  | .var x => pure (.var x)
  | .index base key => do
    let container ← base.eval code
    let key ← key.eval code
    pure (.element base container key)
  | .field base name => do
    let container ← base.eval code
    pure (.field base container name)

/-- The target as an expression. -/
def Target.expr : Target → Expr
  | .var x => .var x
  | .index base key => .index base key
  | .field base name => .field base name

namespace Place

/-- Writes a value to a place. -/
def write (code : Code) (v : Value) : Place → Exec Unit
  | .var x => do
    let slot ← slotOf x.name x.slot?
    let v ← ofExcept (bindAs code.function.layout.slots[slot]? v)
    setSlot slot v
  | .element base container key =>
    match container with
    | .null _ => fault (nullFault base)
    | .array elem id => do
      let index ← ofExcept (arrayIndex key)
      writeElement elem id index v
    | .map id => do
      let key ← ofExcept (mapKey key)
      modifyHeap (Heap.setMap id (Dict.insert key v))
    | other => fault (.analyzerDefect (.notIndexable other.ty))
  | .field base container name =>
    match container with
    | .null _ => fault (nullFault base)
    | .struct struct id => writeField code.program struct id name v
    | other => fault (.analyzerDefect (.noField other.ty name))

/-- Reads the value of a place. -/
def read (code : Code) : Place → Exec Value
  | .var x => do
    let slot ← slotOf x.name x.slot?
    getSlot slot
  | .element base container key => do
    let h ← heap
    ofExcept (FrameScript.element h base container key)
  | .field base container name => do
    let h ← heap
    ofExcept (fieldOf code.program h base container name)

/-- The cell that a place is, if it is one. -/
def cell? (m : Machine) : Place → Option Cell
  | .var x => x.slot?.bind fun index =>
    if (m.cell? (.slot 0 index)).isSome then some (.slot 0 index) else none
  | .element _ (.array _ id) (.int index) =>
    match index.toInt with
    | .ofNat i => some (.element id i)
    | .negSucc _ => none
  | .element _ (.map id) (.str key) => some (.entry id key)
  | .field _ (.struct _ id) name => (Heap.position? name (m.heap.struct id)).map (.field id)
  | _ => none

/-- The type that is declared for a place. The entries of maps have none. -/
def ty? (code : Code) : Place → Option Ty
  | .var x => x.slot?.bind fun index => code.function.layout.slots[index]?
  | .element _ (.array elem _) _ => some elem
  | .field _ (.struct struct _) name => (code.program.struct? struct).bind (·.fieldType? name)
  | _ => none

/-- The array or map that a place is in is an object. The places of a run always are
(`onHeap_of_reaches`), but a state as such may have references to nothing. -/
def OnHeap (h : Heap) : Place → Prop
  | .element _ (.array _ id) _ => id < h.arrays.size
  | .element _ (.map id) _ => id < h.maps.size
  | _ => True

/-- Why a place does not take a value. -/
inductive Refused (code : Code) (m : Machine) (v : Value) : Place → Prop
  /-- There is no such slot. -/
  | noSlot {x : Variable} (h : (Place.var x).cell? m = none) : Refused code m v (.var x)
  /-- The base is null, or nothing that has elements to be written. -/
  | notIndexable {base : Expr} {container key : Value}
    (harray : ∀ elem id, container ≠ .array elem id) (hmap : ∀ id, container ≠ .map id) :
    Refused code m v (.element base container key)
  /-- The key of an array is no integer. -/
  | arrayKey {base : Expr} {elem : Ty} {id : Nat} {key : Value} (h : ∀ index, key ≠ .int index) :
    Refused code m v (.element base (.array elem id) key)
  /-- The key of a map is no text. -/
  | mapKey {base : Expr} {id : Nat} {key : Value} (h : ∀ s, key ≠ .str s) :
    Refused code m v (.element base (.map id) key)
  /-- The index is negative. -/
  | negative {base : Expr} {elem : Ty} {id : Nat} {index : Int64} (h : index.toInt < 0) :
    Refused code m v (.element base (.array elem id) (.int index))
  /-- The base is null, or nothing that has fields to be written. -/
  | noStruct {base : Expr} {container : Value} {name : String}
    (h : ∀ struct id, container ≠ .struct struct id) : Refused code m v (.field base container name)
  /-- There is no such field. -/
  | noField {base : Expr} {struct name : String} {id : Nat}
    (h : Heap.field? name (m.heap.struct id) = none) :
    Refused code m v (.field base (.struct struct id) name)
  /-- The value is null and the place is declared with a value type. -/
  | null {place : Place} {ty : Ty} (hty : place.ty? code = some ty) (hvalue : ty.isValueType = true)
    (hnull : v.isNull = true) : Refused code m v place

/-- How writing a value to a place in a state ends. -/
inductive Written (code : Code) (place : Place) (v : Value) (m : Machine) :
    Except Stop Unit × Machine → Prop
  /-- The place does not take the value; the state is as it was. -/
  | refused {f : Fault} (h : place.Refused code m v) :
    Written code place v m (.error (.failed (.fault f)), m)
  /-- The value, as it is declared for the place, is stored in the cell that the place is, and it is
  what every expression has that leads to this cell. -/
  | stored {m' : Machine} {cell : Cell} {w : Value} (hcell : place.cell? m = some cell)
    (hw : bindAs (place.ty? code) v = .ok w) (hstores : m.Stores m' cell (place.ty? code) w)
    (hvisible : ∀ (code' : Code) (other : Target) (q : Place),
      (other.locate code').on m' = (.ok q, m') → q.cell? m = some cell →
        (other.expr.eval code').on m' = (.ok w, m')) :
    Written code place v m (.ok (), m')

end Place

variable {code : Code} {m m' : Machine}

/-- Writing to a target is writing to the place that its parts lead to. -/
theorem Target.write_eq (code : Code) (v : Value) (target : Target) :
    target.write code v = target.locate code >>= Place.write code v := by
  cases target <;> simp only [write, locate, bind_assoc, pure_bind] <;> rfl

/-- Reading a target as an expression is reading the place that its parts lead to. -/
theorem Target.eval_expr (code : Code) (target : Target) :
    target.expr.eval code = target.locate code >>= Place.read code := by
  cases target <;> simp only [expr, Expr.eval, locate, bind_assoc, pure_bind] <;> rfl

/-! ### Where places are -/

namespace Machine

theorem emptied_slot (m : Machine) (depth index : Nat) :
    m.emptied.cell? (.slot depth index) =
      (m.cell? (.slot depth index)).map fun _ => .bareNull := by
  change ((m.context.frames.map Frame.emptied)[depth]?).bind (fun f => f.slots[index]?) = _
  rw [List.getElem?_map, cell?]
  cases m.context.frames[depth]? with
  | none => rfl
  | some f => simp only [Frame.emptied, Option.map_some, Option.bind_some, List.getElem?_map]

theorem emptied_position? (m : Machine) (name : String) (id : Nat) :
    Heap.position? name (m.emptied.heap.struct id) = Heap.position? name (m.heap.struct id) := by
  change Heap.position? name ((m.heap.structs.map _)[id]?.getD []) = _
  rw [Array.getElem?_map, Heap.struct]
  cases m.heap.structs[id]? with
  | none => rfl
  | some fields => simp [Heap.position?, Function.comp_def]

end Machine

namespace Place

/-- Where a place is does not depend on the values of cells. -/
theorem cell?_congr (h : m'.emptied = m.emptied) (place : Place) :
    place.cell? m' = place.cell? m := by
  have hslot (index : Nat) :
      (m'.cell? (.slot 0 index)).isSome = (m.cell? (.slot 0 index)).isSome := by
    have hemptied := congrArg (fun m => (m.cell? (.slot 0 index)).isSome) h
    simpa only [Machine.emptied_slot, Option.isSome_map] using hemptied
  have hfield (name : String) (id : Nat) :
      Heap.position? name (m'.heap.struct id) = Heap.position? name (m.heap.struct id) := by
    rw [← m'.emptied_position?, h, m.emptied_position?]
  unfold cell?
  split <;> simp only [hslot, hfield]

/-- A slot of the innermost call has the value of its cell. -/
theorem on_getSlot_of_cell? {index : Nat} {v : Value} (h : m.cell? (.slot 0 index) = some v) :
    (getSlot index).on m = (.ok v, m) := by
  cases hframes : m.context.frames with
  | nil => simp [Machine.cell?, hframes] at h
  | cons f rest =>
    have hv : f.slots[index]? = some v := by simpa [Machine.cell?, hframes] using h
    simp only [getSlot, on_bind, on_frame, hframes, Frame.get, hv, on_ofExcept_ok]

/-- A place that is a cell has the value of the cell. -/
theorem on_read {place : Place} {cell : Cell} {v : Value} (hcell : place.cell? m = some cell)
    (hv : m.cell? cell = some v) (code : Code) : (place.read code).on m = (.ok v, m) := by
  unfold cell? at hcell
  split at hcell
  next x =>
    obtain ⟨index, hslot, hcell⟩ := Option.bind_eq_some_iff.mp hcell
    split at hcell
    · cases hcell
      simp only [read, hslot, slotOf, pure_bind, on_getSlot_of_cell? hv]
    · cases hcell
  next base elem id index =>
    split at hcell
    next i hindex =>
      cases hcell
      have hitem : (m.heap.array id)[i]? = some v := hv
      have helement : FrameScript.element m.heap base (.array elem id) (.int index) = .ok v := by
        change Heap.element (m.heap.array id) index = .ok v
        simp only [Heap.element, hindex, hitem]
      simp only [read, on_bind, on_heap, helement, on_ofExcept_ok]
    · cases hcell
  next base id key =>
    cases hcell
    have hfind : Dict.find? key (m.heap.map id) = some v := hv
    have hentry : FrameScript.element m.heap base (.map id) (.str key) = .ok v := by
      simp only [FrameScript.element, mapKey, bind, Except.bind, hfind]
    simp only [read, on_bind, on_heap, hentry, on_ofExcept_ok]
  next base struct id name =>
    obtain ⟨index, hposition, rfl⟩ := Option.map_eq_some_iff.mp hcell
    have hfield : Heap.field? name (m.heap.struct id) = some v := by
      rw [Heap.field?_eq, hposition]
      exact hv
    simp only [read, on_bind, on_heap, fieldOf, hfield, on_ofExcept_ok]
  · cases hcell

/-! ### Writes -/

/-- A value goes into a place of any type but a value type, and into that unless it is null. -/
theorem bindAs_cases (ty? : Option Ty) (v : Value) :
    (∃ w, bindAs ty? v = .ok w) ∨
      ∃ f ty, bindAs ty? v = .error f ∧ ty? = some ty ∧ ty.isValueType = true ∧
        v.isNull = true := by
  cases ty? with
  | none => exact .inl ⟨v, rfl⟩
  | some ty =>
    rw [bindAs, Value.bind]
    split
    next h =>
      rw [Bool.and_eq_true] at h
      exact .inr ⟨_, ty, rfl, rfl, h.1, h.2⟩
    · exact .inl ⟨_, rfl⟩

/-- A value that is stored is seen from everywhere. -/
theorem Written.of_stores {place : Place} {cell : Cell} {v w : Value}
    (hcell : place.cell? m = some cell) (hw : bindAs (place.ty? code) v = .ok w)
    (hstores : m.Stores m' cell (place.ty? code) w) : place.Written code v m (.ok (), m') := by
  refine .stored hcell hw hstores fun code' other q hq hcell' => ?_
  rw [← cell?_congr hstores.emptied] at hcell'
  rw [other.eval_expr, on_bind_ok hq]
  exact on_read hcell' hstores.stored code'

/-- A write to a variable. -/
theorem written_var (code : Code) (x : Variable) (v : Value) (m : Machine) :
    (Place.var x).Written code v m (((Place.var x).write code v).on m) := by
  cases hslot : x.slot? with
  | none =>
    have hwrite : ((Place.var x).write code v).on m =
        (.error (.failed (.fault (.wiring (.noSlot x.name)))), m) := by
      simp only [write, hslot, slotOf]
      rfl
    rw [hwrite]
    exact .refused (.noSlot (by simp [cell?, hslot]))
  | some index =>
    have hty : (Place.var x).ty? code = code.function.layout.slots[index]? := by
      simp [ty?, hslot]
    simp only [write, hslot, slotOf, pure_bind]
    rcases bindAs_cases code.function.layout.slots[index]? v with ⟨w, hw⟩ | ⟨f, ty, hf, hnull⟩
    · rw [on_ofExcept_bind hw, setSlot, on_modifyFrame]
      rcases hframes : m.context.frames with _ | ⟨f, rest⟩
      · exact .refused (.noSlot (by simp [cell?, hslot, Machine.cell?, hframes]))
      · by_cases hindex : index < f.slots.length
        · simp only [Frame.set, if_pos hindex]
          refine .of_stores (by simp [cell?, hslot, Machine.cell?, hframes, hindex])
            (by rw [hty, hw]) (Machine.stores_slot hframes hindex)
        · simp only [Frame.set, if_neg hindex]
          exact .refused (.noSlot (by simp [cell?, hslot, Machine.cell?, hframes, hindex]))
    · rw [hf, on_bind, on_ofExcept_error]
      exact .refused (.null (hty.trans hnull.1) hnull.2.1 hnull.2.2)

/-- A write to an element. -/
theorem written_element (code : Code) (base : Expr) (container key v : Value) {m : Machine}
    (hthere : (Place.element base container key).OnHeap m.heap) :
    (Place.element base container key).Written code v m
      (((Place.element base container key).write code v).on m) := by
  cases container with
  | array elem id =>
    cases key with
    | int index =>
      have hwrite : ((Place.element base (.array elem id) (.int index)).write code v).on m =
          (writeElement elem id index v).on m := rfl
      rw [hwrite, writeElement]
      rcases bindAs_cases (some elem) v with ⟨w, hw⟩ | ⟨f, ty, hf, hnull⟩
      · rw [on_ofExcept_bind (show v.bind elem = .ok w from hw), storeElement]
        cases hindex : index.toInt with
        | ofNat i =>
          exact .of_stores (by simp [cell?, hindex]) hw (Machine.stores_element hthere)
        | negSucc i =>
          exact .refused (.negative (by omega))
      · rw [on_bind, show v.bind elem = _ from hf, on_ofExcept_error]
        exact .refused (.null hnull.1 hnull.2.1 hnull.2.2)
    | _ => exact .refused (.arrayKey nofun)
  | map id =>
    cases key with
    | str key => exact .of_stores rfl rfl (Machine.stores_entry hthere)
    | _ => exact .refused (.mapKey nofun)
  | _ => exact .refused (.notIndexable nofun nofun)

/-- A write to a field. -/
theorem written_field (code : Code) (base : Expr) (container : Value) (name : String) (v : Value)
    (m : Machine) :
    (Place.field base container name).Written code v m
      (((Place.field base container name).write code v).on m) := by
  cases container with
  | struct struct id =>
    have hwrite : ((Place.field base (.struct struct id) name).write code v).on m =
        (writeField code.program struct id name v).on m := rfl
    rw [hwrite, writeField]
    rcases bindAs_cases ((code.program.struct? struct).bind (·.fieldType? name)) v with
      ⟨w, hw⟩ | ⟨f, ty, hf, hnull⟩
    · rw [on_ofExcept_bind hw, on_bind, on_heap]
      cases hposition : Heap.position? name (m.heap.struct id) with
      | none =>
        have hfield : Heap.field? name (m.heap.struct id) = none := by
          rw [Heap.field?_eq, hposition]
          rfl
        simp only [hfield]
        exact .refused (.noField hfield)
      | some index =>
        have hsome : (Heap.field? name (m.heap.struct id)).isSome = true := by
          rw [Heap.isSome_field?_eq, hposition]
          rfl
        simp only [hsome]
        exact .of_stores (by simp [cell?, hposition]) hw (Machine.stores_field hposition)
    · rw [on_bind, hf, on_ofExcept_error]
      exact .refused (.null hnull.1 hnull.2.1 hnull.2.2)
  | _ => exact .refused (.noStruct nofun)

end Place

/-! ## Assignments -/

/-- **Assignments are atomic and local**: once the value and the parts of the target are evaluated,
an assignment to one target either fails for a reason that lies in them and leaves the state as it
is, or it stores the value in one cell, where all references find it, and leaves all others alone.
Only a write behind the end of an array brings further elements about, at their default.

**Proof sketch.** A target is the place its parts lead to, so what remains is a write to that place.
Each kind of write checks everything before it changes anything, and then changes one object, or the
innermost frame. The cell of a place does not depend on values of cells, hence the places that were
this cell before still are. -/
theorem assign_atomic_local {code : Code} {target : Target} {value : Expr} {m m₁ m₂ : Machine}
    {v : Value} {place : Place} (hvalue : (value.eval code).on m = (.ok v, m₁))
    (hplace : (target.locate code).on m₁ = (.ok place, m₂)) (hthere : place.OnHeap m₂.heap) :
    place.Written code v m₂ ((assign code [target] value).on m) := by
  have hassign : (assign code [target] value).on m = (place.write code v).on m₂ := by
    rw [assign, on_bind_ok hvalue, target.write_eq, on_bind_ok hplace]
  rw [hassign]
  cases place with
  | var x => exact Place.written_var code x v m₂
  | element base container key => exact Place.written_element code base container key v hthere
  | field base container name => exact Place.written_field code base container name v m₂

/-- A write to the third element of an empty array. -/
theorem assign_atomic_local_growing :
    let code : Code := {
      program := {}
      function := { sig := ⟨"f", "", .everyone, [⟨"a", .ref (.array .int)⟩], []⟩, body := [],
                    layout := { slots := [.ref (.array .int)] } }
      call := fun _ _ => pure []
      rounds := 0 }
    let m : Machine := {
      heap := { arrays := #[#[]] }
      context := { frames := [⟨"f", 1, [.array .int 0], [], []⟩], maxDepth := 1 } }
    let target : Target := .index (.var ⟨"a", some 0⟩) (.int 2)
    let place : Place := .element (.var ⟨"a", some 0⟩) (.array .int 0) (.int 2)
    ((Expr.int 7).eval code).on m = (.ok (.int 7), m) ∧
      (target.locate code).on m = (.ok place, m) ∧ place.OnHeap m.heap ∧
        place.Written code (.int 7) m ((assign code [target] (.int 7)).on m) :=
  ⟨rfl, rfl, Nat.zero_lt_one, assign_atomic_local rfl rfl Nat.zero_lt_one⟩

/-! ## Assignments of a run -/

/-- What a known value has elements of is an object. -/
theorem HeapTyping.Knows.onHeap {D : Discipline} {p : Program} {t : HeapTyping} {h : Heap}
    (hh : h.Obeys D p t) {container : Value} (hv : t.Knows container) (base : Expr) (key : Value) :
    (Place.element base container key).OnHeap h := by
  cases container with
  | array elem id =>
    obtain ⟨hid, -⟩ := List.getElem?_eq_some_iff.mp hv
    exact Nat.lt_of_lt_of_eq hid hh.arrays_length
  | map id => exact Nat.lt_of_lt_of_eq hv hh.maps_size
  | _ => trivial

/-- In every run of a loaded program from values read from documents, the array or map that an
assignment writes to is an object. -/
theorem onHeap_of_reaches {source : Source} {e : Engine}
    (hload : Program.load source Library.standard = .ok e.program)
    {inputs : List (Json × Ty)} {args : List Value} {heap : Heap}
    (hread : (e.program.readInputs inputs).run {} = .ok (args, heap))
    {name : String} {unit : Callable} (hunit : e.program.find? name = some unit)
    (properties : Dict String) (rounds levels : Nat) {s : Site} {v : Value} {target : Target}
    {place : Place} {m m' : Machine}
    (hr : Task.Reaches e.program rounds (.call levels unit args) (e.machine heap properties)
      (.write s v target) m)
    (hplace : (target.locate (s.code e.program rounds)).on m = (.ok place, m')) :
    place.OnHeap m'.heap := by
  have hD := nullDiscipline_judges (Program.load_linked hload)
  have hbegun : (Task.call levels unit args).BegunWell nullDiscipline nullJudgement
      e.program (e.machine heap properties) :=
    Task.begunWell_of_inputs hread hunit (fun _ _ _ _ _ => trivial) properties levels
  obtain ⟨t, hm, hs, -, -⟩ := hr.begunWell hD hbegun
  have hcode := Site.code_keeps hD rounds hs
  cases target with
  | var x =>
    cases hplace
    trivial
  | index base key =>
    obtain ⟨container, m₁, hbase, hplace⟩ := (bind_ok _).mp hplace
    obtain ⟨key, m₂, hkey, hplace⟩ := (bind_ok _).mp hplace
    cases hplace
    obtain ⟨u, -, hm₁, hs₁, hcontainer, -⟩ := hs.after hm
      (fun _ => eval_keeps hcode (hs.sound hD).exprs base trivial t) hbase
    obtain ⟨w, huw, hm₂, -, -⟩ := hs₁.after hm₁
      (fun _ => eval_keeps hcode (hs.sound hD).exprs _ trivial u) hkey
    exact (hcontainer.mono huw).onHeap hm₂.heap base key
  | field base name =>
    obtain ⟨container, m₁, -, hplace⟩ := (bind_ok _).mp hplace
    cases hplace
    trivial

end FrameScript
