import FrameScript.Proofs.Discipline
import FrameScript.Value.Render
import Mathlib.Data.List.Forall2

set_option autoImplicit false

/-!
# Values as trees

The objects in a value, followed to their contents, make a tree in which no identity is left. Two
values have the same structure if they have the same tree, whatever heaps they lie in.

## Main definitions

* `ValueTree` — the trees.
* `Value.tree?` — the tree of a value, unless it is too deep.
* `ValueTree.toJson` — the document of a tree.
* `Heap.Extends` — a heap with more objects.
* `Value.Stands` — a value has a tree, and keeps it while objects are made.

## Main results

* `Value.toJsonWithin_eq` — the document of a value is that of its tree.
-/

namespace FrameScript

/-! ## Trees -/

/-- A value with the objects in it followed to their contents. -/
inductive ValueTree
  /-- An integer. -/
  | int (n : Int64)
  /-- A floating point number. -/
  | float (x : Float)
  /-- A truth value. -/
  | bool (b : Bool)
  /-- A text. -/
  | str (s : String)
  /-- The null of a reference type. -/
  | null (tag : RefTy)
  /-- An array with elements of the given type. -/
  | array (elem : Ty) (items : List ValueTree)
  /-- A map. -/
  | map (entries : List (String × ValueTree))
  /-- A struct of the named type, by its fields in their order. -/
  | struct (name : String) (fields : List (String × ValueTree))
  /-- A connector of the named type, by the values it is built from. -/
  | connector (name : String) (args : List ValueTree)
  /-- A message. -/
  | message (payload : String)
  /-- A markup document. -/
  | xml (text : String)
  /-- A free-form document. -/
  | json (doc : Json)

namespace ValueTree

mutual

/-- The document of a tree. -/
def toJson : ValueTree → Json
  | .int n => .int n.toInt
  | .float x => Json.ofFloat x
  | .bool b => .bool b
  | .str s => .str s
  | .null _ => .null
  | .array _ items => .arr (toJsonItems items)
  | .map entries => .obj (toJsonMembers entries)
  | .struct _ fields => Json.ofMembers (toJsonMembers fields)
  | .connector name _ => .obj [("connector", .str name)]
  | .message payload => .str payload
  | .xml text => .str text
  | .json doc => doc

/-- The documents of the items of an array. -/
def toJsonItems : List ValueTree → List Json
  | [] => []
  | item :: items => toJson item :: toJsonItems items

/-- The documents of the entries of a map or the fields of a struct. -/
def toJsonMembers : List (String × ValueTree) → List (String × Json)
  | [] => []
  | (name, tree) :: entries => (name, toJson tree) :: toJsonMembers entries

end

theorem toJsonItems_eq (items : List ValueTree) : toJsonItems items = items.map toJson := by
  induction items with
  | nil => rfl
  | cons item items ih => simp only [toJsonItems, ih, List.map_cons]

theorem toJsonMembers_eq (entries : List (String × ValueTree)) :
    toJsonMembers entries = entries.map fun entry => (entry.1, entry.2.toJson) := by
  induction entries with
  | nil => rfl
  | cons entry entries ih => simp only [toJsonMembers, ih, List.map_cons]

theorem names_toJsonMembers (entries : List (String × ValueTree)) :
    (toJsonMembers entries).map (·.1) = entries.map (·.1) := by
  simp [toJsonMembers_eq, Function.comp_def]

end ValueTree

namespace Value

/-- The tree of a value under a name, if the value has one. -/
def namedTree? (tree? : Value → Option ValueTree) (entry : String × Value) :
    Option (String × ValueTree) :=
  (tree? entry.2).map (entry.1, ·)

/-- The tree of a value, down to the given number of levels: of a value there is one within
`levels + 1` of them if no value lies inside more than `levels` others. -/
def tree? (h : Heap) : Nat → Value → Option ValueTree
  | 0, _ => none
  | levels + 1, v =>
    match v with
    | .int n => some (.int n)
    | .float x => some (.float x)
    | .bool b => some (.bool b)
    | .str s => some (.str s)
    | .null tag => some (.null tag)
    | .array elem id => ((h.array id).toList.mapM (tree? h levels)).map (.array elem)
    | .map id => ((h.map id).mapM (namedTree? (tree? h levels))).map .map
    | .struct name id => ((h.struct id).mapM (namedTree? (tree? h levels))).map (.struct name)
    | .connector name id => ((h.connector id).mapM (tree? h levels)).map (.connector name)
    | .message id => some (.message (h.message id))
    | .xml text => some (.xml text)
    | .json doc => some (.json doc)

/-! ## Lists of values -/

theorem mapM_eq_some_iff {α β : Type} {f : α → Option β} {xs : List α} {ys : List β} :
    xs.mapM f = some ys ↔ List.Forall₂ (fun x y => f x = some y) xs ys := by
  induction xs generalizing ys with
  | nil => simp [eq_comm]
  | cons x xs ih =>
    simp only [List.mapM_cons, Option.bind_eq_bind, Option.bind_eq_some_iff, Option.pure_def,
      Option.some.injEq, ih, List.forall₂_cons_left_iff]
    constructor
    · rintro ⟨y, hy, ys', hys, rfl⟩
      exact ⟨y, ys', hy, hys, rfl⟩
    · rintro ⟨y, ys', hy, hys, rfl⟩
      exact ⟨y, hy, ys', hys, rfl⟩

theorem forall₂_of_common {α β γ : Type} {r : α → γ → Prop} {s s' : β → γ → Prop}
    {xs : List α} {ys : List β} {zs : List γ} (h : ∀ x y z, r x z → s y z → s' y z)
    (hxs : List.Forall₂ r xs zs) (hys : List.Forall₂ s ys zs) : List.Forall₂ s' ys zs := by
  induction hxs generalizing ys with
  | nil =>
    cases hys
    exact .nil
  | cons hr _ ih =>
    obtain _ | ⟨hs, hys⟩ := hys
    exact .cons (h _ _ _ hr hs) (ih hys)

theorem namedTree?_eq_some_iff {f : Value → Option ValueTree} {entry : String × Value}
    {tree : String × ValueTree} :
    namedTree? f entry = some tree ↔ entry.1 = tree.1 ∧ f entry.2 = some tree.2 := by
  obtain ⟨name, v⟩ := entry
  obtain ⟨name', t⟩ := tree
  simp [namedTree?, Option.map_eq_some_iff, and_comm]

/-! ## Trees of objects -/

section Objects

variable {h k : Heap} {levels levels' id : Nat} {name : String} {elem : Ty} {t : ValueTree}
  {v w : Value}

theorem tree?_array : tree? h (levels + 1) (.array elem id) = some t ↔
    ∃ items, List.Forall₂ (fun v t => tree? h levels v = some t) (h.array id).toList items ∧
      .array elem items = t := by
  change ((h.array id).toList.mapM (tree? h levels)).map (.array elem) = some t ↔ _
  simp only [Option.map_eq_some_iff, mapM_eq_some_iff]

theorem tree?_map : tree? h (levels + 1) (.map id) = some t ↔
    ∃ entries, List.Forall₂ (fun e f => e.1 = f.1 ∧ tree? h levels e.2 = some f.2)
      (h.map id) entries ∧ .map entries = t := by
  change ((h.map id).mapM (namedTree? (tree? h levels))).map .map = some t ↔ _
  simp only [Option.map_eq_some_iff, mapM_eq_some_iff, namedTree?_eq_some_iff]

theorem tree?_struct : tree? h (levels + 1) (.struct name id) = some t ↔
    ∃ fields, List.Forall₂ (fun e f => e.1 = f.1 ∧ tree? h levels e.2 = some f.2)
      (h.struct id) fields ∧ .struct name fields = t := by
  change ((h.struct id).mapM (namedTree? (tree? h levels))).map (.struct name) = some t ↔ _
  simp only [Option.map_eq_some_iff, mapM_eq_some_iff, namedTree?_eq_some_iff]

theorem tree?_connector : tree? h (levels + 1) (.connector name id) = some t ↔
    ∃ args, List.Forall₂ (fun v t => tree? h levels v = some t) (h.connector id) args ∧
      .connector name args = t := by
  change ((h.connector id).mapM (tree? h levels)).map (.connector name) = some t ↔ _
  simp only [Option.map_eq_some_iff, mapM_eq_some_iff]

/-- More levels show no more of a value that has a tree. -/
theorem tree?_mono (hle : levels ≤ levels') (ht : v.tree? h levels = some t) :
    v.tree? h levels' = some t := by
  induction levels generalizing v t levels' with
  | zero => cases ht
  | succ levels ih =>
    obtain ⟨more, rfl⟩ : ∃ more, levels' = more + 1 := ⟨levels' - 1, by omega⟩
    replace ih {v : Value} {t : ValueTree} := @ih more t v (by omega)
    cases v with
    | array elem id =>
      obtain ⟨items, hitems, rfl⟩ := tree?_array.mp ht
      exact tree?_array.mpr ⟨items, hitems.imp fun _ _ => ih, rfl⟩
    | map id =>
      obtain ⟨entries, hentries, rfl⟩ := tree?_map.mp ht
      exact tree?_map.mpr ⟨entries, hentries.imp fun _ _ h => ⟨h.1, ih h.2⟩, rfl⟩
    | struct name id =>
      obtain ⟨fields, hfields, rfl⟩ := tree?_struct.mp ht
      exact tree?_struct.mpr ⟨fields, hfields.imp fun _ _ h => ⟨h.1, ih h.2⟩, rfl⟩
    | connector name id =>
      obtain ⟨args, hargs, rfl⟩ := tree?_connector.mp ht
      exact tree?_connector.mpr ⟨args, hargs.imp fun _ _ => ih, rfl⟩
    | _ => exact ht

theorem exists_of_tree?_array {items : List ValueTree}
    (hv : v.tree? h (levels + 1) = some (.array elem items)) :
    ∃ vs, List.Forall₂ (fun v t => tree? h levels v = some t) vs items := by
  cases v with
  | array =>
    obtain ⟨_, hinside, heq⟩ := tree?_array.mp hv
    cases heq
    exact ⟨_, hinside⟩
  | map | struct | connector => simp [tree?_map, tree?_struct, tree?_connector] at hv
  | _ => cases hv

theorem exists_of_tree?_map {entries : List (String × ValueTree)}
    (hv : v.tree? h (levels + 1) = some (.map entries)) :
    ∃ vs : List (String × Value),
      List.Forall₂ (fun e f => e.1 = f.1 ∧ tree? h levels e.2 = some f.2) vs entries := by
  cases v with
  | map =>
    obtain ⟨_, hinside, heq⟩ := tree?_map.mp hv
    cases heq
    exact ⟨_, hinside⟩
  | array | struct | connector => simp [tree?_array, tree?_struct, tree?_connector] at hv
  | _ => cases hv

theorem exists_of_tree?_struct {fields : List (String × ValueTree)}
    (hv : v.tree? h (levels + 1) = some (.struct name fields)) :
    ∃ vs : List (String × Value),
      List.Forall₂ (fun e f => e.1 = f.1 ∧ tree? h levels e.2 = some f.2) vs fields := by
  cases v with
  | struct =>
    obtain ⟨_, hinside, heq⟩ := tree?_struct.mp hv
    cases heq
    exact ⟨_, hinside⟩
  | array | map | connector => simp [tree?_array, tree?_map, tree?_connector] at hv
  | _ => cases hv

theorem exists_of_tree?_connector {args : List ValueTree}
    (hv : v.tree? h (levels + 1) = some (.connector name args)) :
    ∃ vs, List.Forall₂ (fun v t => tree? h levels v = some t) vs args := by
  cases v with
  | connector =>
    obtain ⟨_, hinside, heq⟩ := tree?_connector.mp hv
    cases heq
    exact ⟨_, hinside⟩
  | array | map | struct => simp [tree?_array, tree?_map, tree?_struct] at hv
  | _ => cases hv

/-- How many levels a value needs depends on its tree only. -/
theorem tree?_of_same (hv : v.tree? h levels = some t) (hw : w.tree? k levels' = some t) :
    w.tree? k levels = some t := by
  induction levels generalizing v w t levels' with
  | zero => cases hv
  | succ levels ih =>
    cases levels' with
    | zero => cases hw
    | succ levels' =>
      -- Under one name stand values of the same tree.
      have named (e e' f : String × _) (he : e.1 = f.1 ∧ tree? h levels e.2 = some f.2)
          (he' : e'.1 = f.1 ∧ tree? k levels' e'.2 = some f.2) :
          e'.1 = f.1 ∧ tree? k levels e'.2 = some f.2 := ⟨he'.1, ih he.2 he'.2⟩
      cases w with
      | array elem id =>
        obtain ⟨items, hws, rfl⟩ := tree?_array.mp hw
        obtain ⟨vs, hvs⟩ := exists_of_tree?_array hv
        exact tree?_array.mpr ⟨items, forall₂_of_common (fun _ _ _ => ih) hvs hws, rfl⟩
      | map id =>
        obtain ⟨entries, hws, rfl⟩ := tree?_map.mp hw
        obtain ⟨vs, hvs⟩ := exists_of_tree?_map hv
        exact tree?_map.mpr ⟨entries, forall₂_of_common named hvs hws, rfl⟩
      | struct name id =>
        obtain ⟨fields, hws, rfl⟩ := tree?_struct.mp hw
        obtain ⟨vs, hvs⟩ := exists_of_tree?_struct hv
        exact tree?_struct.mpr ⟨fields, forall₂_of_common named hvs hws, rfl⟩
      | connector name id =>
        obtain ⟨args, hws, rfl⟩ := tree?_connector.mp hw
        obtain ⟨vs, hvs⟩ := exists_of_tree?_connector hv
        exact tree?_connector.mpr ⟨args, forall₂_of_common (fun _ _ _ => ih) hvs hws, rfl⟩
      | _ => exact hw

/-- The document of a value is that of its tree. -/
theorem toJsonWithin_eq (ht : v.tree? h levels = some t) : v.toJsonWithin h levels = t.toJson := by
  induction levels generalizing v t with
  | zero => cases ht
  | succ levels ih =>
    have items {vs : List Value} {ts : List ValueTree}
        (hvs : List.Forall₂ (fun v t => tree? h levels v = some t) vs ts) :
        vs.map (toJsonWithin h levels) = ts.map ValueTree.toJson := by
      induction hvs with
      | nil => rfl
      | cons hv _ ihs => rw [List.map_cons, List.map_cons, ih hv, ihs]
    have members {vs : List (String × Value)} {ts : List (String × ValueTree)}
        (hvs : List.Forall₂ (fun e f => e.1 = f.1 ∧ tree? h levels e.2 = some f.2) vs ts) :
        vs.map (fun e => (e.1, toJsonWithin h levels e.2)) =
          ts.map fun f => (f.1, f.2.toJson) := by
      induction hvs with
      | nil => rfl
      | cons hv _ ihs => rw [List.map_cons, List.map_cons, ih hv.2, hv.1, ihs]
    cases v with
    | array elem id =>
      obtain ⟨ts, hts, rfl⟩ := tree?_array.mp ht
      rw [toJsonWithin, ValueTree.toJson, ValueTree.toJsonItems_eq, items hts]
    | map id =>
      obtain ⟨ts, hts, rfl⟩ := tree?_map.mp ht
      rw [toJsonWithin, ValueTree.toJson, ValueTree.toJsonMembers_eq, members hts]
    | struct name id =>
      obtain ⟨ts, hts, rfl⟩ := tree?_struct.mp ht
      rw [toJsonWithin, ValueTree.toJson, ValueTree.toJsonMembers_eq, members hts]
    | connector name id =>
      obtain ⟨args, hws, rfl⟩ := tree?_connector.mp ht
      rfl
    | _ =>
      cases ht
      rfl

end Objects

/-! ## While objects are made -/

end Value

/-- A heap with all the objects of another one, and possibly more. -/
structure Heap.Extends (h h' : Heap) : Prop where
  /-- The arrays are there. -/
  arrays : ∀ id < h.arrays.size, id < h'.arrays.size ∧ h'.array id = h.array id
  /-- The maps are there. -/
  maps : ∀ id < h.maps.size, id < h'.maps.size ∧ h'.map id = h.map id
  /-- The structs are there. -/
  structs : ∀ id < h.structs.size, id < h'.structs.size ∧ h'.struct id = h.struct id
  /-- The messages are there. -/
  messages : ∀ id < h.messages.size, id < h'.messages.size ∧ h'.message id = h.message id

theorem Heap.message_newMessage (h : Heap) (payload : String) (id : Nat) :
    (h.newMessage payload).2.message id =
      if id = h.messages.size then payload else h.message id := by
  simp only [Heap.newMessage, Heap.message, Array.getElem?_push]
  split <;> rfl

namespace Heap.Extends

variable {h h' h'' : Heap}

theorem refl (h : Heap) : h.Extends h :=
  ⟨fun _ hid => ⟨hid, rfl⟩, fun _ hid => ⟨hid, rfl⟩, fun _ hid => ⟨hid, rfl⟩,
    fun _ hid => ⟨hid, rfl⟩⟩

theorem trans (h₁ : h.Extends h') (h₂ : h'.Extends h'') : h.Extends h'' where
  arrays id hid := by
    obtain ⟨hid', heq⟩ := h₁.arrays id hid
    obtain ⟨hid'', heq'⟩ := h₂.arrays id hid'
    exact ⟨hid'', heq'.trans heq⟩
  maps id hid := by
    obtain ⟨hid', heq⟩ := h₁.maps id hid
    obtain ⟨hid'', heq'⟩ := h₂.maps id hid'
    exact ⟨hid'', heq'.trans heq⟩
  structs id hid := by
    obtain ⟨hid', heq⟩ := h₁.structs id hid
    obtain ⟨hid'', heq'⟩ := h₂.structs id hid'
    exact ⟨hid'', heq'.trans heq⟩
  messages id hid := by
    obtain ⟨hid', heq⟩ := h₁.messages id hid
    obtain ⟨hid'', heq'⟩ := h₂.messages id hid'
    exact ⟨hid'', heq'.trans heq⟩

theorem newArray (h : Heap) (elem : Ty) (items : Array Value) :
    h.Extends (h.newArray elem items).2 where
  arrays id hid := by
    rw [Heap.array_newArray, if_neg (Nat.ne_of_lt hid)]
    exact ⟨by simp [Heap.newArray]; omega, rfl⟩
  maps _ hid := ⟨hid, rfl⟩
  structs _ hid := ⟨hid, rfl⟩
  messages _ hid := ⟨hid, rfl⟩

theorem newMap (h : Heap) (entries : Dict Value) : h.Extends (h.newMap entries).2 where
  arrays _ hid := ⟨hid, rfl⟩
  maps id hid := by
    rw [Heap.map_newMap, if_neg (Nat.ne_of_lt hid)]
    exact ⟨by simp [Heap.newMap]; omega, rfl⟩
  structs _ hid := ⟨hid, rfl⟩
  messages _ hid := ⟨hid, rfl⟩

theorem newStruct (h : Heap) (name : String) (fields : List (String × Value)) :
    h.Extends (h.newStruct name fields).2 where
  arrays _ hid := ⟨hid, rfl⟩
  maps _ hid := ⟨hid, rfl⟩
  structs id hid := by
    rw [Heap.struct_newStruct, if_neg (Nat.ne_of_lt hid)]
    exact ⟨by simp [Heap.newStruct]; omega, rfl⟩
  messages _ hid := ⟨hid, rfl⟩

theorem newMessage (h : Heap) (payload : String) : h.Extends (h.newMessage payload).2 where
  arrays _ hid := ⟨hid, rfl⟩
  maps _ hid := ⟨hid, rfl⟩
  structs _ hid := ⟨hid, rfl⟩
  messages id hid := by
    rw [Heap.message_newMessage, if_neg (Nat.ne_of_lt hid)]
    exact ⟨by simp [Heap.newMessage]; omega, rfl⟩

end Heap.Extends

namespace Value

/-- The value has the tree, and keeps it while objects are made. -/
def Stands (h : Heap) (v : Value) (t : ValueTree) : Prop :=
  ∃ levels, ∀ h', h.Extends h' → v.tree? h' levels = some t

namespace Stands

variable {h h' : Heap}

theorem mono {v : Value} {t : ValueTree} (hv : v.Stands h t) (hext : h.Extends h') :
    v.Stands h' t := by
  obtain ⟨levels, hlevels⟩ := hv
  exact ⟨levels, fun h'' hext' => hlevels h'' (hext.trans hext')⟩

/-- The tree is the one the value has at any number of levels. -/
theorem eq_of_tree? {v : Value} {t t' : ValueTree} {levels : Nat} (hv : v.Stands h t)
    (ht : v.tree? h levels = some t') : t' = t := by
  obtain ⟨levels', hlevels⟩ := hv
  have hstands := Value.tree?_mono (Nat.le_max_left levels' levels) (hlevels h (.refl h))
  have hshown := Value.tree?_mono (Nat.le_max_right levels' levels) ht
  exact Option.some.inj (hshown.symm.trans hstands)

theorem of_scalar {v : Value} {t : ValueTree} (hv : ∀ h', v.tree? h' 1 = some t) : v.Stands h t :=
  ⟨1, fun h' _ => hv h'⟩

/-- What holds of each pair from some number on holds of all pairs of two lists from some number
on. -/
theorem exists_forall₂ {α β : Type} {r : Nat → α → β → Prop} {xs : List α} {ys : List β}
    (mono : ∀ m n x y, m ≤ n → r m x y → r n x y)
    (hr : List.Forall₂ (fun x y => ∃ n, r n x y) xs ys) : ∃ n, List.Forall₂ (r n) xs ys := by
  induction hr with
  | nil => exact ⟨0, .nil⟩
  | cons hfirst _ ih =>
    obtain ⟨first, hfirst⟩ := hfirst
    obtain ⟨rest, hrest⟩ := ih
    refine ⟨max first rest, .cons (mono _ _ _ _ (Nat.le_max_left first rest) hfirst) ?_⟩
    exact hrest.imp fun _ _ => mono _ _ _ _ (Nat.le_max_right first rest)

/-- Finitely many values need finitely many levels. -/
theorem exists_levels {vs : List Value} {ts : List ValueTree}
    (hvs : List.Forall₂ (Stands h) vs ts) :
    ∃ levels, ∀ h', h.Extends h' → List.Forall₂ (fun v t => v.tree? h' levels = some t) vs ts := by
  obtain ⟨levels, hlevels⟩ := exists_forall₂
    (r := fun levels v t => ∀ h', h.Extends h' → Value.tree? h' levels v = some t)
    (fun _ _ _ _ hle hv h' hext => tree?_mono hle (hv h' hext)) hvs
  exact ⟨levels, fun h' hext => hlevels.imp fun _ _ hv => hv h' hext⟩

theorem exists_levels_named {vs : List (String × Value)} {ts : List (String × ValueTree)}
    (hvs : List.Forall₂ (fun e f => e.1 = f.1 ∧ Stands h e.2 f.2) vs ts) :
    ∃ levels, ∀ h', h.Extends h' →
      List.Forall₂ (fun e f => e.1 = f.1 ∧ Value.tree? h' levels e.2 = some f.2) vs ts := by
  obtain ⟨levels, hlevels⟩ := exists_forall₂
    (r := fun levels (e : String × Value) (f : String × ValueTree) =>
      e.1 = f.1 ∧ ∀ h', h.Extends h' → Value.tree? h' levels e.2 = some f.2)
    (fun _ _ _ _ hle hv => ⟨hv.1, fun h' hext => tree?_mono hle (hv.2 h' hext)⟩)
    (hvs.imp fun _ _ ⟨hname, levels, hv⟩ => ⟨levels, hname, hv⟩)
  exact ⟨levels, fun h' hext => hlevels.imp fun _ _ hv => ⟨hv.1, hv.2 h' hext⟩⟩

/-- A new array has the trees of its elements in it. -/
theorem newArray {elem : Ty} {vs : List Value} {items : List ValueTree}
    (hvs : List.Forall₂ (Stands h) vs items) :
    (h.newArray elem vs.toArray).1.Stands (h.newArray elem vs.toArray).2 (.array elem items) := by
  obtain ⟨levels, hlevels⟩ := exists_levels hvs
  refine ⟨levels + 1, fun h' hext => tree?_array.mpr ⟨items, ?_, rfl⟩⟩
  rw [(hext.arrays _ (by simp [Heap.newArray])).2, Heap.array_newArray, if_pos rfl]
  exact hlevels h' ((Heap.Extends.newArray h elem _).trans hext)

/-- A new map has the trees of its entries in it. -/
theorem newMap {vs : List (String × Value)} {entries : List (String × ValueTree)}
    (hvs : List.Forall₂ (fun e f => e.1 = f.1 ∧ Stands h e.2 f.2) vs entries) :
    (h.newMap vs).1.Stands (h.newMap vs).2 (.map entries) := by
  obtain ⟨levels, hlevels⟩ := exists_levels_named hvs
  refine ⟨levels + 1, fun h' hext => tree?_map.mpr ⟨entries, ?_, rfl⟩⟩
  rw [(hext.maps _ (by simp [Heap.newMap])).2, Heap.map_newMap, if_pos rfl]
  exact hlevels h' ((Heap.Extends.newMap h _).trans hext)

/-- A new struct has the trees of its fields in it. -/
theorem newStruct {name : String} {vs : List (String × Value)} {fields : List (String × ValueTree)}
    (hvs : List.Forall₂ (fun e f => e.1 = f.1 ∧ Stands h e.2 f.2) vs fields) :
    (h.newStruct name vs).1.Stands (h.newStruct name vs).2 (.struct name fields) := by
  obtain ⟨levels, hlevels⟩ := exists_levels_named hvs
  refine ⟨levels + 1, fun h' hext => tree?_struct.mpr ⟨fields, ?_, rfl⟩⟩
  rw [(hext.structs _ (by simp [Heap.newStruct])).2, Heap.struct_newStruct, if_pos rfl]
  exact hlevels h' ((Heap.Extends.newStruct h name _).trans hext)

theorem newMessage (h : Heap) (payload : String) :
    (h.newMessage payload).1.Stands (h.newMessage payload).2 (.message payload) := by
  refine ⟨1, fun h' hext => ?_⟩
  change some (ValueTree.message (h'.message h.messages.size)) = _
  rw [(hext.messages _ (by simp [Heap.newMessage])).2, Heap.message_newMessage, if_pos rfl]

end Stands

end Value

end FrameScript
