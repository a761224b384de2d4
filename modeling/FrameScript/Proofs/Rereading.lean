import FrameScript.Proofs.Doubles
import FrameScript.Proofs.Integers
import FrameScript.Proofs.Trees
import FrameScript.Program.Load

set_option autoImplicit false

/-!
# Reading what was written

The document of a value that was read from a document is read, at the same type, as a value of the
same structure. The null of a type is written without its tag and gets the tag back from where it
stands; a field that the first document left out is written with its default, which is read as
itself; a double is written as a double even if it was an integer before.

The proof goes through the trees of values. Those that documents are read as at a type are given by
rules, one for each way in which a type takes a document. Whatever is read has a tree that the rules
give, and every tree that they give is read from its own document.

## Main definitions

* `Json.HasInt`, `Json.Ints64`, `Json.SignedInts64` — the integers in a document.
* `ValueTree.ReadAt` — the trees that documents are read as at a type.
* `Builder.Gives`, `Builder.Succeeds` — triples for computations that make objects, for those that
  may fail and for those that do not.

## Main results

* `Value.gives_ofJson` — what a document is read as.
* `Value.succeeds_ofJson` — the document of such a tree is read as the tree.
* `Program.rereading_restores` — a value that was read, written and read again has the structure it
  had.
-/

namespace FrameScript

variable {α β : Type} {structs : String → Option (List Param)}

/-! ## Dictionaries -/

namespace Dict

theorem find?_foldl_insert_of_notMem {key : String} {entries : List (String × α)} {d : Dict α}
    (h : key ∉ entries.map (·.1)) :
    find? key (entries.foldl (fun d (key, value) => insert key value d) d) = find? key d := by
  induction entries generalizing d with
  | nil => rfl
  | cons entry entries ih =>
    simp only [List.map_cons, List.mem_cons, not_or] at h
    rw [List.foldl_cons, ih h.2, find?_insert, if_neg (by simpa using Ne.symm h.1)]

/-- Of entries with distinct keys, each is in the dictionary. -/
theorem find?_ofList {key : String} {value : α} {entries : List (String × α)}
    (hkeys : (entries.map (·.1)).Nodup) (hmem : (key, value) ∈ entries) :
    find? key (ofList entries) = some value := by
  unfold ofList
  generalize ([] : Dict α) = d
  induction entries generalizing d with
  | nil => cases hmem
  | cons entry entries ih =>
    rw [List.map_cons, List.nodup_cons] at hkeys
    rcases List.mem_cons.mp hmem with rfl | hmem
    · rw [List.foldl_cons, find?_foldl_insert_of_notMem hkeys.1, find?_insert, if_pos (by simp)]
    · exact ih hkeys.2 hmem _

end Dict

/-! ## Numbers in documents -/

/-- The number stands in the document as an integer. -/
inductive Json.HasInt (n : Int) : Json → Prop
  /-- It is the document. -/
  | int : HasInt n (.int n)
  /-- It stands in an item of the array. -/
  | item {items : List Json} {item : Json} (hitem : item ∈ items) (h : HasInt n item) :
    HasInt n (.arr items)
  /-- It stands in a member of the object. -/
  | member {members : List (String × Json)} {member : String × Json} (hmember : member ∈ members)
    (h : HasInt n member.2) : HasInt n (.obj members)

/-- Every integer of the document has 64 bits, with or without a sign. -/
def Json.Ints64 (doc : Json) : Prop :=
  ∀ n, doc.HasInt n → -2 ^ 63 ≤ n ∧ n < 2 ^ 64

/-- Every integer of the document has 64 bits with a sign. -/
def Json.SignedInts64 (doc : Json) : Prop :=
  ∀ n, doc.HasInt n → -2 ^ 63 ≤ n ∧ n < 2 ^ 63

theorem Json.ofFloat_of_isFinite {x : Float} (hx : x.isFinite = true) :
    Json.ofFloat x = .float ⟨x, hx⟩ := by
  simp [Json.ofFloat, FiniteFloat.ofFloat?, hx]

/-! ## What documents are read as -/

/-- Whether a document says by itself that it is read as this tree. -/
def ValueTree.isPlain : ValueTree → Bool
  | .null tag => tag == .null
  | .int _ | .float _ | .bool _ | .str _ | .map _ => true
  | .array elem _ => elem == .any
  | _ => false

/-- The trees of the values that documents are read as at a type. -/
inductive ValueTree.ReadAt (structs : String → Option (List Param)) : Ty → ValueTree → Prop
  | int (n : Int64) : ReadAt structs .int (.int n)
  | float {x : Float} (hx : x.isFinite = true) : ReadAt structs .float (.float x)
  | bool (b : Bool) : ReadAt structs .boolean (.bool b)
  | str (s : String) : ReadAt structs .string (.str s)
  | null (r : RefTy) : ReadAt structs (.ref r) (.null r)
  | array {elem : Ty} {items : List ValueTree} (hitems : ∀ t ∈ items, ReadAt structs elem t) :
    ReadAt structs (.ref (.array elem)) (.array elem items)
  | map {entries : List (String × ValueTree)}
    (hentries : ∀ entry ∈ entries, ReadAt structs .any entry.2) :
    ReadAt structs (.ref .map) (.map entries)
  | struct {name : String} {decl : List Param} {fields : List (String × ValueTree)}
    (hdecl : structs name = some decl) (hnames : fields.map (·.1) = decl.map (·.name))
    (hfields : ∀ pair ∈ decl.zip fields, ReadAt structs pair.1.ty pair.2.2) :
    ReadAt structs (.ref (.struct name)) (.struct name fields)
  | message (payload : String) : ReadAt structs (.ref .message) (.message payload)
  | xml (text : String) : ReadAt structs (.ref .xml) (.xml text)
  | json {doc : Json} (hdoc : doc ≠ .null) : ReadAt structs (.ref .json) (.json doc)
  | any {ty : Ty} {t : ValueTree} (hplain : t.isPlain = true) (h : ReadAt structs ty t) :
    ReadAt structs .any t

/-! ## Making objects -/

namespace Builder

/-- A value the computation ends with in this heap satisfies the postcondition, and all objects are
still there. -/
def Gives (h : Heap) (x : Builder α) (post : Heap → α → Prop) : Prop :=
  ∀ a h', x.run h = .ok (a, h') → h.Extends h' ∧ post h' a

/-- The computation ends with a value in this heap. -/
def Succeeds (h : Heap) (x : Builder α) (post : Heap → α → Prop) : Prop :=
  ∃ a h', x.run h = .ok (a, h') ∧ h.Extends h' ∧ post h' a


namespace Gives

variable {h : Heap} {post : Heap → α → Prop}

theorem pure {a : α} (ha : post h a) : Gives h (pure a) post := by
  intro b h' hrun
  cases hrun
  exact ⟨.refl h, ha⟩

theorem throw (e : ConversionError) : Gives h (throw e : Builder α) post :=
  fun _ _ hrun => by cases hrun

theorem bind {x : Builder α} {f : α → Builder β} {mid : Heap → α → Prop}
    {post : Heap → β → Prop} (hx : Gives h x mid)
    (hf : ∀ a h', h.Extends h' → mid h' a → Gives h' (f a) post) : Gives h (x >>= f) post := by
  intro b h'' hrun
  rw [StateT.run_bind] at hrun
  obtain ⟨⟨a, h'⟩, hfirst, hrun⟩ := bind_eq_ok.mp hrun
  obtain ⟨hext, ha⟩ := hx a h' hfirst
  obtain ⟨hext', hb⟩ := hf a h' hext ha b h'' hrun
  exact ⟨hext.trans hext', hb⟩

theorem make {new : Heap → Value × Heap} {post : Heap → Value → Prop}
    (hext : h.Extends (new h).2) (hpost : post (new h).2 (new h).1) :
    Gives h (Value.make new) post := by
  intro v h' hrun
  have hnew : new h = (v, h') := Except.ok.inj hrun
  rw [hnew] at hext hpost
  exact ⟨hext, hpost⟩

theorem imp {x : Builder α} {post post' : Heap → α → Prop} (hx : Gives h x post)
    (himp : ∀ h' a, post h' a → post' h' a) : Gives h x post' :=
  fun a h' hrun => (hx a h' hrun).imp_right (himp h' a)

end Gives

namespace Succeeds

variable {h : Heap} {post : Heap → α → Prop}

theorem pure {a : α} (ha : post h a) : Succeeds h (pure a) post :=
  ⟨a, h, rfl, .refl h, ha⟩

theorem bind {x : Builder α} {f : α → Builder β} {mid : Heap → α → Prop}
    {post : Heap → β → Prop} (hx : Succeeds h x mid)
    (hf : ∀ a h', h.Extends h' → mid h' a → Succeeds h' (f a) post) :
    Succeeds h (x >>= f) post := by
  obtain ⟨a, h', hfirst, hext, ha⟩ := hx
  obtain ⟨b, h'', hrun, hext', hb⟩ := hf a h' hext ha
  refine ⟨b, h'', ?_, hext.trans hext', hb⟩
  rw [StateT.run_bind]
  exact bind_eq_ok.mpr ⟨(a, h'), hfirst, hrun⟩

theorem make {new : Heap → Value × Heap} {post : Heap → Value → Prop}
    (hext : h.Extends (new h).2) (hpost : post (new h).2 (new h).1) :
    Succeeds h (Value.make new) post :=
  ⟨(new h).1, (new h).2, rfl, hext, hpost⟩

end Succeeds

end Builder

/-! ## What documents are read as -/

namespace Value

open Builder

/-- The value is what the document is read as at the type: it has a tree for that type, and under
`any` a document whose integers have a sign can be told from the tree. -/
def Described (structs : String → Option (List Param)) (doc : Json) (ty : Ty) (h : Heap)
    (v : Value) : Prop :=
  ∃ t, v.Stands h t ∧ t.ReadAt structs ty ∧
    (ty = .any → doc.SignedInts64 → t.toJson = doc)

theorem gives_ofScalarJson {doc : Json} (hdoc : doc.Ints64) (ty : Ty) (h : Heap) :
    Gives h (ofScalarJson doc ty) (Described structs doc ty) := by
  unfold ofScalarJson
  split
  next r => exact .pure ⟨.null r, .of_scalar fun _ => rfl, .null r, nofun⟩
  next hnull =>
    exact .pure ⟨.json doc, .of_scalar fun _ => rfl, .json hnull, nofun⟩
  next n =>
    split
    next m hm => exact .pure ⟨.int m, .of_scalar fun _ => rfl, .int m, nofun⟩
    · exact .throw _
  next n =>
    obtain ⟨hlow, hhigh⟩ := hdoc n .int
    have hfinite := isFinite_ofInt (by omega) hhigh
    exact .pure ⟨.float _, .of_scalar fun _ => rfl, .float hfinite, nofun⟩
  next x => exact .pure ⟨.float x.val, .of_scalar fun _ => rfl, .float x.finite, nofun⟩
  next b => exact .pure ⟨.bool b, .of_scalar fun _ => rfl, .bool b, nofun⟩
  next s => exact .pure ⟨.str s, .of_scalar fun _ => rfl, .str s, nofun⟩
  next s => exact .pure ⟨.xml s, .of_scalar fun _ => rfl, .xml s, nofun⟩
  next s =>
    exact .make (.newMessage h s) ⟨.message s, .newMessage h s, .message s, nofun⟩
  next => exact .pure ⟨.null .null, .of_scalar fun _ => rfl, .any rfl (.null .null), fun _ _ => rfl⟩
  next b => exact .pure ⟨.bool b, .of_scalar fun _ => rfl, .any rfl (.bool b), fun _ _ => rfl⟩
  next n =>
    split
    next m hm =>
      refine .pure ⟨.int m, .of_scalar fun _ => rfl, .any rfl (.int m), fun _ _ => ?_⟩
      rw [ValueTree.toJson, Integer.toInt_of_ofInt? hm]
    next hnone =>
      obtain ⟨hlow, hhigh⟩ := hdoc n .int
      have hfinite := isFinite_ofInt (by omega) hhigh
      refine .pure
        ⟨.float _, .of_scalar fun _ => rfl, .any rfl (.float hfinite), fun _ hsigned => ?_⟩
      obtain ⟨hlow', hhigh'⟩ := hsigned n .int
      exact absurd (Integer.ofInt?_of_inRange ⟨hlow', hhigh'⟩) (by simp [hnone])
  next x =>
    refine .pure ⟨.float x.val, .of_scalar fun _ => rfl, .any rfl (.float x.finite), fun _ _ => ?_⟩
    exact Json.ofFloat_of_isFinite x.finite
  next s => exact .pure ⟨.str s, .of_scalar fun _ => rfl, .any rfl (.str s), fun _ _ => rfl⟩
  next => exact .throw _

theorem described_default (ty : Ty) (h : Heap) :
    ∃ t, ty.default.Stands h t ∧ t.ReadAt structs ty := by
  cases ty with
  | int => exact ⟨.int 0, .of_scalar fun _ => rfl, .int 0⟩
  | float => exact ⟨.float 0.0, .of_scalar fun _ => rfl, .float (by decide)⟩
  | boolean => exact ⟨.bool false, .of_scalar fun _ => rfl, .bool false⟩
  | string => exact ⟨.str "", .of_scalar fun _ => rfl, .str ""⟩
  | any => exact ⟨.null .null, .of_scalar fun _ => rfl, .any rfl (.null .null)⟩
  | ref r => exact ⟨.null r, .of_scalar fun _ => rfl, .null r⟩

/-- The value of a declared field: what its reader makes of the type, or the default. -/
def buildField (readers : List (String × (Ty → Builder Value))) (param : Param) : Builder Value :=
  match Dict.find? param.name readers with
  | some read => read param.ty
  | none => pure param.ty.default

theorem buildFields_cons (readers : List (String × (Ty → Builder Value))) (param : Param)
    (params : List Param) :
    buildFields readers (param :: params) = (do
      let v ← buildField readers param
      let rest ← buildFields readers params
      pure ((param.name, v) :: rest)) := by
  rw [buildFields, buildField]
  cases Dict.find? param.name readers <;> rfl

section Structs

variable {readers : List (String × (Ty → Builder Value))}
  (hreaders : ∀ reader ∈ readers, ∀ ty h,
    Gives h (reader.2 ty) fun h' v => ∃ t, v.Stands h' t ∧ t.ReadAt structs ty)

include hreaders

theorem gives_buildFields (params : List Param) (h : Heap) :
    Gives h (buildFields readers params) fun h' fields => ∃ ts : List (String × ValueTree),
      List.Forall₂ (fun e f => e.1 = f.1 ∧ Stands h' e.2 f.2) fields ts ∧
      ts.map (·.1) = params.map (·.name) ∧
      ∀ pair ∈ params.zip ts, pair.2.2.ReadAt structs pair.1.ty := by
  induction params generalizing h with
  | nil => exact .pure ⟨[], .nil, rfl, by simp⟩
  | cons param params ih =>
    have hread : Gives h (buildField readers param) fun h' v =>
        ∃ t, v.Stands h' t ∧ t.ReadAt structs param.ty := by
      unfold buildField
      split
      next read hfind => exact hreaders _ (Dict.mem_of_find? hfind) param.ty h
      · exact .pure (described_default param.ty h)
    rw [buildFields_cons]
    refine hread.bind fun v h₁ _ ⟨t, hv, ht⟩ => ?_
    refine (ih h₁).bind fun fields h₂ hext ⟨ts, hfields, hnames, hts⟩ => .pure ?_
    refine ⟨(param.name, t) :: ts, .cons ⟨rfl, hv.mono hext⟩ hfields, ?_, ?_⟩
    · simp [hnames]
    · simpa using ⟨ht, fun a b c h => hts _ h⟩

theorem gives_buildStruct (name : String) (h : Heap) :
    Gives h (buildStruct structs name readers) fun h' v =>
      ∃ t, v.Stands h' t ∧ t.ReadAt structs (.ref (.struct name)) := by
  unfold buildStruct
  split
  · exact .throw _
  next decl hdecl =>
    split
    · exact .throw _
    · refine (gives_buildFields hreaders decl h).bind
        fun fields h' _ ⟨ts, hfields, hnames, hts⟩ => ?_
      exact .make (.newStruct h' name fields)
        ⟨.struct name ts, .newStruct hfields, .struct hdecl hnames hts⟩

end Structs

mutual

theorem gives_ofJson (doc : Json) (hdoc : doc.Ints64) (ty : Ty) (h : Heap) :
    Gives h (ofJson structs doc ty) (Described structs doc ty) := by
  cases doc with
  | arr items =>
    unfold ofJson
    have hitems : ∀ item ∈ items, item.Ints64 := fun item hitem n hn => hdoc n (.item hitem hn)
    split
    next elem =>
      refine (gives_ofJsonItems items hitems elem h).bind fun vs h' _ ⟨ts, hvs, hts, _⟩ => ?_
      exact .make (.newArray h' elem _) ⟨.array elem ts, .newArray hvs, .array hts, nofun⟩
    · refine (gives_ofJsonItems items hitems .any h).bind fun vs h' _ ⟨ts, hvs, hts, hsame⟩ => ?_
      refine .make (.newArray h' .any _)
        ⟨.array .any ts, .newArray hvs, .any rfl (.array hts), fun _ hsigned => ?_⟩
      rw [ValueTree.toJson, ValueTree.toJsonItems_eq,
        hsame rfl fun item hitem n hn => hsigned n (.item hitem hn)]
    · exact gives_ofScalarJson hdoc _ h
  | obj members =>
    unfold ofJson
    have hmembers : ∀ member ∈ members, member.2.Ints64 :=
      fun member hmember n hn => hdoc n (.member hmember hn)
    split
    · refine (gives_ofJsonMembers members hmembers h).bind fun es h' _ ⟨ts, hes, hts, _⟩ => ?_
      exact .make (.newMap h' _) ⟨.map ts, .newMap hes, .map hts, nofun⟩
    · refine (gives_ofJsonMembers members hmembers h).bind fun es h' _ ⟨ts, hes, hts, hsame⟩ => ?_
      refine .make (.newMap h' _) ⟨.map ts, .newMap hes, .any rfl (.map hts), fun _ hsigned => ?_⟩
      rw [ValueTree.toJson, ValueTree.toJsonMembers_eq,
        hsame fun member hmember n hn => hsigned n (.member hmember hn)]
    next name =>
      refine (gives_buildStruct (gives_readers members hmembers) name h).imp fun h' v hv => ?_
      obtain ⟨t, hv, ht⟩ := hv
      exact ⟨t, hv, ht, nofun⟩
    · exact gives_ofScalarJson hdoc _ h
  | null => exact gives_ofScalarJson hdoc _ h
  | bool b => exact gives_ofScalarJson hdoc _ h
  | int n => exact gives_ofScalarJson hdoc _ h
  | float x => exact gives_ofScalarJson hdoc _ h
  | str s => exact gives_ofScalarJson hdoc _ h

theorem gives_ofJsonItems (items : List Json) (hitems : ∀ item ∈ items, item.Ints64) (ty : Ty)
    (h : Heap) :
    Gives h (ofJsonItems structs items ty) fun h' vs => ∃ ts, List.Forall₂ (Stands h') vs ts ∧
      (∀ t ∈ ts, t.ReadAt structs ty) ∧
      (ty = .any → (∀ item ∈ items, item.SignedInts64) → ts.map ValueTree.toJson = items) := by
  cases items with
  | nil => exact .pure ⟨[], .nil, by simp, fun _ _ => rfl⟩
  | cons item items =>
    rw [List.forall_mem_cons] at hitems
    unfold ofJsonItems
    refine (gives_ofJson item hitems.1 ty h).bind fun v h₁ _ ⟨t, hv, ht, hsame⟩ => ?_
    refine (gives_ofJsonItems items hitems.2 ty h₁).bind
      fun vs h₂ hext ⟨ts, hvs, hts, hsames⟩ => .pure ?_
    refine ⟨t :: ts, .cons (hv.mono hext) hvs, List.forall_mem_cons.mpr ⟨ht, hts⟩, ?_⟩
    intro hany hsigned
    rw [List.forall_mem_cons] at hsigned
    rw [List.map_cons, hsame hany hsigned.1, hsames hany hsigned.2]

theorem gives_ofJsonMembers (members : List (String × Json))
    (hmembers : ∀ member ∈ members, member.2.Ints64) (h : Heap) :
    Gives h (ofJsonMembers structs members) fun h' entries =>
      ∃ ts : List (String × ValueTree),
      List.Forall₂ (fun e f => e.1 = f.1 ∧ Stands h' e.2 f.2) entries ts ∧
      (∀ entry ∈ ts, entry.2.ReadAt structs .any) ∧
      ((∀ member ∈ members, member.2.SignedInts64) →
        ts.map (fun entry => (entry.1, entry.2.toJson)) = members) := by
  cases members with
  | nil => exact .pure ⟨[], .nil, by simp, fun _ => rfl⟩
  | cons member members =>
    obtain ⟨name, value⟩ := member
    rw [List.forall_mem_cons] at hmembers
    unfold ofJsonMembers
    refine (gives_ofJson value hmembers.1 .any h).bind fun v h₁ _ ⟨t, hv, ht, hsame⟩ => ?_
    refine (gives_ofJsonMembers members hmembers.2 h₁).bind
      fun vs h₂ hext ⟨ts, hvs, hts, hsames⟩ => .pure ?_
    refine ⟨(name, t) :: ts, .cons ⟨rfl, hv.mono hext⟩ hvs,
      List.forall_mem_cons.mpr ⟨ht, hts⟩, fun hsigned => ?_⟩
    rw [List.forall_mem_cons] at hsigned
    rw [List.map_cons, hsame rfl hsigned.1, hsames hsigned.2]

theorem gives_readers (members : List (String × Json))
    (hmembers : ∀ member ∈ members, member.2.Ints64) :
    ∀ reader ∈ readers structs members, ∀ ty h,
      Gives h (reader.2 ty) fun h' v => ∃ t, v.Stands h' t ∧ t.ReadAt structs ty := by
  cases members with
  | nil => simp [readers]
  | cons member members =>
    obtain ⟨name, value⟩ := member
    rw [List.forall_mem_cons] at hmembers
    intro reader hreader ty h
    unfold readers at hreader
    rcases List.mem_cons.mp hreader with rfl | hmem
    · refine (gives_ofJson value hmembers.1 ty h).imp fun h' v hv => ?_
      obtain ⟨t, hv, ht, _⟩ := hv
      exact ⟨t, hv, ht⟩
    · exact gives_readers members hmembers.2 reader hmem ty h

end

/-! ## Reading a written document -/

theorem ofJson_any {ty : Ty} {t : ValueTree} (hplain : t.isPlain = true)
    (ht : t.ReadAt structs ty) : ofJson structs t.toJson .any = ofJson structs t.toJson ty := by
  cases ht with
  | int n =>
    change ofScalarJson (.int n.toInt) .any = ofScalarJson (.int n.toInt) .int
    simp only [ofScalarJson, Integer.ofInt?_toInt]
  | float hx =>
    rw [ValueTree.toJson, Json.ofFloat_of_isFinite hx]
    rfl
  | array hitems =>
    obtain rfl := eq_of_beq hplain
    rfl
  | null r =>
    obtain rfl := eq_of_beq hplain
    rfl
  | bool | str | map | any => rfl
  | struct | message | xml | json => cases hplain

theorem succeeds_ofJsonItems {elem : Ty} {items : List ValueTree}
    (hitems : ∀ t ∈ items, ∀ h, Succeeds h (ofJson structs t.toJson elem) fun h' v => v.Stands h' t)
    (h : Heap) :
    Succeeds h (ofJsonItems structs (ValueTree.toJsonItems items) elem) fun h' vs =>
      List.Forall₂ (Stands h') vs items := by
  induction items generalizing h with
  | nil => exact .pure .nil
  | cons item items ih =>
    rw [List.forall_mem_cons] at hitems
    refine (hitems.1 h).bind fun v h₁ _ hv => ?_
    refine (ih hitems.2 h₁).bind fun vs h₂ hext hvs => .pure ?_
    exact .cons (hv.mono hext) hvs

theorem succeeds_ofJsonMembers {entries : List (String × ValueTree)}
    (hentries : ∀ entry ∈ entries, ∀ h,
      Succeeds h (ofJson structs entry.2.toJson .any) fun h' v => v.Stands h' entry.2)
    (h : Heap) :
    Succeeds h (ofJsonMembers structs (ValueTree.toJsonMembers entries)) fun h' es =>
      List.Forall₂ (fun e f => e.1 = f.1 ∧ Stands h' e.2 f.2) es entries := by
  induction entries generalizing h with
  | nil => exact .pure .nil
  | cons entry entries ih =>
    rw [List.forall_mem_cons] at hentries
    refine (hentries.1 h).bind fun v h₁ _ hv => ?_
    refine (ih hentries.2 h₁).bind fun es h₂ hext hes => .pure ?_
    exact .cons ⟨rfl, hv.mono hext⟩ hes

theorem succeeds_buildFields {readers : List (String × (Ty → Builder Value))} {params : List Param}
    {fields : List (String × ValueTree)} (hnames : fields.map (·.1) = params.map (·.name))
    (hfields : ∀ pair ∈ params.zip fields, ∃ read,
      Dict.find? pair.1.name readers = some read ∧
      ∀ h, Succeeds h (read pair.1.ty) fun h' v => v.Stands h' pair.2.2)
    (h : Heap) :
    Succeeds h (buildFields readers params) fun h' es =>
      List.Forall₂ (fun e f => e.1 = f.1 ∧ Stands h' e.2 f.2) es fields := by
  induction params generalizing fields h with
  | nil =>
    obtain rfl : fields = [] := by simpa using hnames
    exact .pure .nil
  | cons param params ih =>
    obtain ⟨field, fields, rfl⟩ : ∃ f fs, fields = f :: fs := by
      cases fields with
      | nil => simp at hnames
      | cons f fs => exact ⟨f, fs, rfl⟩
    simp only [List.map_cons, List.cons.injEq] at hnames
    simp only [List.zip_cons_cons, List.forall_mem_cons] at hfields
    obtain ⟨⟨read, hfind, hread⟩, hfields⟩ := hfields
    have hfield : Succeeds h (buildField readers param) fun h' v => v.Stands h' field.2 := by
      unfold buildField
      rw [hfind]
      exact hread h
    rw [buildFields_cons]
    refine hfield.bind fun v h₁ _ hv => ?_
    refine (ih hnames.2 hfields h₁).bind fun es h₂ hext hes => .pure ?_
    exact .cons ⟨hnames.1.symm, hv.mono hext⟩ hes

theorem find?_readers (name : String) (members : List (String × Json)) :
    Dict.find? name (readers structs members) = (Dict.find? name members).map (ofJson structs) := by
  induction members with
  | nil => rfl
  | cons member members ih =>
    obtain ⟨key, value⟩ := member
    simp only [readers, Dict.find?, ih]
    split <;> rfl

theorem eq_of_mem_zip {params : List Param} {fields : List (String × α)}
    (hnames : fields.map (·.1) = params.map (·.name)) {pair : Param × String × α}
    (hpair : pair ∈ params.zip fields) : pair.2.1 = pair.1.name := by
  obtain ⟨i, hi⟩ := List.mem_iff_getElem?.mp hpair
  obtain ⟨hparam, hfield⟩ := List.getElem?_zip_eq_some.mp hi
  have h := congrArg (·[i]?) hnames
  simpa [List.getElem?_map, hparam, hfield] using h

theorem names_readers (members : List (String × Json)) :
    (readers structs members).map (·.1) = members.map (·.1) := by
  induction members with
  | nil => rfl
  | cons member members ih => simp only [readers, List.map_cons, ih]

theorem succeeds_ofJson (hstructs : ∀ name decl, structs name = some decl →
    (decl.map (·.name)).Nodup) {ty : Ty} {t : ValueTree} (ht : t.ReadAt structs ty) (h : Heap) :
    Succeeds h (ofJson structs t.toJson ty) fun h' v => v.Stands h' t := by
  induction ht generalizing h with
  | int n =>
    change Succeeds h (ofScalarJson (.int n.toInt) .int) _
    simp only [ofScalarJson, Integer.ofInt?_toInt]
    exact .pure (.of_scalar fun _ => rfl)
  | float hx =>
    rw [ValueTree.toJson, Json.ofFloat_of_isFinite hx]
    exact .pure (.of_scalar fun _ => rfl)
  | bool b => exact .pure (.of_scalar fun _ => rfl)
  | str s => exact .pure (.of_scalar fun _ => rfl)
  | null r => exact .pure (.of_scalar fun _ => rfl)
  | xml text => exact .pure (.of_scalar fun _ => rfl)
  | message payload => exact .make (.newMessage h payload) (.newMessage h payload)
  | @json doc hdoc =>
    have hread : ofJson structs doc (.ref .json) = Pure.pure (.json doc) := by
      cases doc with
      | null => exact absurd rfl hdoc
      | _ => rfl
    change Succeeds h (ofJson structs doc (.ref .json)) _
    rw [hread]
    exact .pure (.of_scalar fun _ => rfl)
  | @array elem items _ ih =>
    refine (succeeds_ofJsonItems ih h).bind fun vs h' _ hvs => ?_
    exact .make (.newArray h' elem _) (.newArray hvs)
  | map _ ih =>
    refine (succeeds_ofJsonMembers ih h).bind fun es h' _ hes => ?_
    exact .make (.newMap h' _) (.newMap hes)
  | @struct name decl fields hdecl hnames _ ih =>
    set members := Dict.ofList (ValueTree.toJsonMembers fields) with hmembers
    change Succeeds h (buildStruct structs name (readers structs members)) _
    have hkeys : ((ValueTree.toJsonMembers fields).map (·.1)).Nodup := by
      rw [ValueTree.names_toJsonMembers, hnames]
      exact hstructs name decl hdecl
    have hknown : unknownMember? decl ((readers structs members).map (·.1)) = none := by
      simp only [unknownMember?, names_readers, List.find?_eq_none, List.forall_mem_map]
      intro member hmember
      have hname := List.mem_map_of_mem (f := (·.1)) (Dict.mem_of_mem_ofList hmember)
      rw [ValueTree.names_toJsonMembers, hnames] at hname
      obtain ⟨param, hparam, heq⟩ := List.mem_map.mp hname
      simpa using ⟨param, hparam, heq⟩
    have hread : ∀ pair ∈ decl.zip fields, ∃ read,
        Dict.find? pair.1.name (readers structs members) = some read ∧
        ∀ h, Succeeds h (read pair.1.ty) fun h' v => v.Stands h' pair.2.2 := by
      intro pair hpair
      have hmember : (pair.1.name, pair.2.2.toJson) ∈ ValueTree.toJsonMembers fields := by
        rw [ValueTree.toJsonMembers_eq, ← eq_of_mem_zip hnames hpair]
        exact List.mem_map_of_mem (List.of_mem_zip hpair).2
      refine ⟨ofJson structs pair.2.2.toJson, ?_, ih pair hpair⟩
      rw [find?_readers, Dict.find?_ofList hkeys hmember]
      rfl
    simp only [buildStruct, hdecl, hknown]
    refine (succeeds_buildFields hnames hread h).bind fun es h' _ hes => ?_
    exact .make (.newStruct h' name es) (.newStruct hes)
  | any hplain ht ih =>
    rw [ofJson_any hplain ht]
    exact ih h

end Value

/-! ## Writing and reading again -/

namespace Program

/-- **Reading restores what was written**: let the structs of a program have distinct field names,
and let a document be read as a value in which no value lies inside more than 63 others. Then the
document of the value is read at the same type in every heap, as a value of the same structure: of
the same tree, with the types of the elements and the tags of the nulls. Under `any` the document of
the value is the very document it was read from, if the integers in that have a sign.

**Proof sketch.** The value has a tree that is one of those read at the type, and it has only the
one tree. At most 63 containers deep, rendering cuts nothing off, so the document of the value is
that of its tree. That is read as a value of the tree by induction on the rules, and the second
value needs no more levels than the first since that depends on the tree only. -/
theorem rereading_restores {p : Program}
    (hfields : ∀ name fields, p.structFields? name = some fields → (fields.map (·.name)).Nodup)
    {doc : Json} (hints : doc.Ints64) {ty : Ty} {h h' : Heap} {v : Value}
    (hread : (p.valueOfJson doc ty).run h = .ok (v, h')) {t : ValueTree}
    (hdepth : v.tree? h' 64 = some t) :
    (∀ k, ∃ w k', (p.valueOfJson (v.toJson h') ty).run k = .ok (w, k') ∧ w.tree? k' 64 = some t) ∧
    (ty = .any → doc.SignedInts64 → v.toJson h' = doc) := by
  obtain ⟨_, t', hstands, ht, hsame⟩ := Value.gives_ofJson doc hints ty h v h' hread
  obtain rfl := hstands.eq_of_tree? hdepth
  have hjson : v.toJson h' = t.toJson := Value.toJsonWithin_eq hdepth
  rw [hjson]
  refine ⟨fun k => ?_, hsame⟩
  obtain ⟨w, k', hrun, _, levels, hlevels⟩ := Value.succeeds_ofJson hfields ht k
  exact ⟨w, k', hrun, Value.tree?_of_same hdepth (hlevels k' (.refl k'))⟩

/-- A program with a struct of three fields. -/
def withBoxes : Program where
  structs := [("box", ⟨"box", [⟨"size", .float⟩, ⟨"lid", .ref (.struct "box")⟩, ⟨"inside", .any⟩]⟩)]

/-- A document that leaves out a field and nests a null, a number and an object. -/
def boxDoc : Json :=
  .obj [("inside", .arr [.null, .int 3, .obj [("seal", .bool true)]]), ("lid", .null)]

theorem boxDoc_signedInts64 : boxDoc.SignedInts64 := by
  rintro n (_ | _ | ⟨hmember, h⟩)
  simp only [List.mem_cons, List.not_mem_nil, or_false] at hmember
  rcases hmember with rfl | rfl
  · obtain _ | ⟨hitem, h⟩ := h
    simp only [List.mem_cons, List.not_mem_nil, or_false] at hitem
    rcases hitem with rfl | rfl | rfl
    · cases h
    · cases h
      decide
    · obtain _ | _ | ⟨hmember, h⟩ := h
      obtain rfl := List.mem_singleton.mp hmember
      cases h
  · cases h

/-- The document is read as a box whose size is the default and whose lid is the null of boxes; what
is written for the box is read as the same box. Read under `any`, it is a map, and the document of
the map is the document. -/
theorem rereading_restores_box :
    (∃ v h t, (withBoxes.valueOfJson boxDoc (.ref (.struct "box"))).run {} = .ok (v, h) ∧
      v.tree? h 64 = some t ∧
      ∀ k, ∃ w k', (withBoxes.valueOfJson (v.toJson h) (.ref (.struct "box"))).run k = .ok (w, k') ∧
        w.tree? k' 64 = some t) ∧
    ∃ v h, (withBoxes.valueOfJson boxDoc .any).run {} = .ok (v, h) ∧ v.toJson h = boxDoc := by
  have hfields : ∀ name fields, withBoxes.structFields? name = some fields →
      (fields.map (·.name)).Nodup := by
    intro name fields hname
    obtain ⟨decl, hdecl, rfl⟩ := Option.map_eq_some_iff.mp hname
    have heq := List.mem_singleton.mp (Dict.mem_of_find? hdecl)
    obtain ⟨-, rfl⟩ := Prod.mk.inj heq
    decide
  have hints : boxDoc.Ints64 := fun n hn =>
    ⟨(boxDoc_signedInts64 n hn).1, (boxDoc_signedInts64 n hn).2.trans (by decide)⟩
  refine ⟨⟨_, _, _, rfl, rfl, ?_⟩, _, _, rfl, ?_⟩
  · exact (rereading_restores hfields hints rfl rfl).1
  · exact (rereading_restores hfields hints rfl rfl).2 rfl boxDoc_signedInts64

end Program

end FrameScript
