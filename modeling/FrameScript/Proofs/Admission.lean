import FrameScript.Proofs.Inputs
import FrameScript.Proofs.Rereading

set_option autoImplicit false

/-!
# Arguments read from documents are admitted

A document is read at a type by one table, and a call admits values by another. The two agree: what
is read at the type of a parameter is admitted for the parameter, and everything inside of it is as
the elements of its arrays and the fields of its structs are declared.

## Main definitions

* `Value.AdmittedAs` — a value as it may stand in a place of a declared type.
* `Value.Contains` — the values inside a value.
* `Value.AdmittedThroughout` — a value in which all elements and fields are as they are declared.

## Main results

* `Value.gives_isRead` — what a document is read as.
* `readInputs_admitted` — read values are admitted, with everything inside of them, and no call is
  refused for arguments that were read at the types of its parameters.

## Design

The rules of `Value.IsRead` follow the objects that are made, so that they survive when others are
made later. What they say about a value and its contents is then read off along `Value.Contains`.
-/

namespace FrameScript

variable {p : Program}

/-! ## Admitted values -/

/-- A value as it may stand in a place of the type: a null stands under no value type and carries
the tag of a reference type, and the type of every other value is accepted. -/
structure Value.AdmittedAs (ty : Ty) (v : Value) : Prop where
  nullable : v.isNull = true → ty.isValueType = false
  tagged : ∀ r, ty = .ref r → v.isNull = true → v = .null r
  accepted : v.isNull = false → ty.accepts v.ty = true

namespace Value.AdmittedAs

variable {ty : Ty} {v : Value}

/-- A value that is there is admitted where its type is accepted. -/
theorem of_accepts (hnull : v.isNull = false) (hty : ty.accepts v.ty = true) :
    v.AdmittedAs ty where
  nullable h := by rw [hnull] at h; cases h
  tagged _ _ h := by rw [hnull] at h; cases h
  accepted _ := hty

theorem null (r : RefTy) : (Value.null r).AdmittedAs (.ref r) where
  nullable _ := rfl
  tagged s hs _ := by cases hs; rfl
  accepted := nofun

theorem any (v : Value) : v.AdmittedAs .any where
  nullable _ := rfl
  tagged := nofun
  accepted _ := Ty.accepts_of_any _

/-- A place may hold the default of its type. -/
theorem default (ty : Ty) : ty.default.AdmittedAs ty := by
  cases ty with
  | ref r => exact .null r
  | any => exact .any _
  | _ => exact .of_accepts rfl (Ty.accepts_self _)

/-- What may stand in a parameter is not refused as an argument. -/
theorem refused?_eq_none (h : v.AdmittedAs ty) : refused? ty v = none := by
  unfold refused?
  cases hnull : v.isNull with
  | true => simp [h.nullable hnull]
  | false => simp [h.accepted hnull]

end Value.AdmittedAs

/-- A value occurs in a value: it is that value itself, or it lies in something that occurs. -/
inductive Value.Contains (h : Heap) (v : Value) : Value → Prop
  /-- The value itself. -/
  | self : Contains h v v
  /-- An element of an array. -/
  | element {elem : Ty} {id : Nat} {w : Value} (hin : Contains h v (.array elem id))
    (hw : w ∈ h.array id) : Contains h v w
  /-- A value in a map. -/
  | entry {id : Nat} {key : String} {w : Value} (hin : Contains h v (.map id))
    (hw : (key, w) ∈ h.map id) : Contains h v w
  /-- A field of a struct. -/
  | field {name : String} {id : Nat} {field : String} {w : Value}
    (hin : Contains h v (.struct name id)) (hw : (field, w) ∈ h.struct id) : Contains h v w
  /-- What a connector is built from. -/
  | argument {name : String} {id : Nat} {w : Value} (hin : Contains h v (.connector name id))
    (hw : w ∈ h.connector id) : Contains h v w

/-- A value that is admitted, and so are all elements and fields inside of it, each in its place:
the structs in it have the declared fields in their order. -/
structure Value.AdmittedThroughout (p : Program) (h : Heap) (ty : Ty) (v : Value) : Prop where
  value : v.AdmittedAs ty
  elements : ∀ elem id, v.Contains h (.array elem id) → ∀ w ∈ h.array id, w.AdmittedAs elem
  fields : ∀ name id, v.Contains h (.struct name id) → ∃ decl, p.struct? name = some decl ∧
    List.Forall₂ (fun (param : Param) (field : String × Value) =>
      field.1 = param.name ∧ field.2.AdmittedAs param.ty) decl.fields (h.struct id)

/-! ## Read values -/

/-- Whether the value refers to an object that has values in it. -/
def Value.isContainer : Value → Bool
  | .array _ _ | .map _ | .struct _ _ | .connector _ _ => true
  | _ => false

/-- A value that was read at the type: it refers to objects of the heap, which hold values that were
read at the types declared for them. -/
inductive Value.IsRead (p : Program) (h : Heap) : Ty → Value → Prop
  | scalar {ty : Ty} {v : Value} (hv : v.AdmittedAs ty) (hscalar : v.isContainer = false) :
    IsRead p h ty v
  | array {ty elem : Ty} {id : Nat} (hty : ty.accepts (.arrayOf elem) = true)
    (hid : id < h.arrays.size) (hitems : ∀ w ∈ h.array id, IsRead p h elem w) :
    IsRead p h ty (.array elem id)
  | map {ty : Ty} {id : Nat} (hty : ty.accepts (.ref .map) = true) (hid : id < h.maps.size)
    (hentries : ∀ entry ∈ h.map id, IsRead p h .any entry.2) : IsRead p h ty (.map id)
  | struct {ty : Ty} {name : String} {id : Nat} {decl : StructDecl}
    (hty : ty.accepts (.ref (.struct name)) = true) (hid : id < h.structs.size)
    (hdecl : p.struct? name = some decl)
    (hnames : (h.struct id).map (·.1) = decl.fields.map (·.name))
    (hfields : ∀ pair ∈ decl.fields.zip (h.struct id), IsRead p h pair.1.ty pair.2.2) :
    IsRead p h ty (.struct name id)

namespace Value.IsRead

variable {h h' : Heap} {ty : Ty} {v w : Value}

theorem admittedAs (hv : v.IsRead p h ty) : v.AdmittedAs ty := by
  cases hv with
  | scalar hv _ => exact hv
  | array hty _ _ => exact .of_accepts rfl hty
  | map hty _ _ => exact .of_accepts rfl hty
  | struct hty _ _ _ _ => exact .of_accepts rfl hty

/-- The objects of a read value are still as they were when others have been made. -/
theorem mono (hv : v.IsRead p h ty) (hext : h.Extends h') : v.IsRead p h' ty := by
  induction hv with
  | scalar hv hscalar => exact .scalar hv hscalar
  | array hty hid _ ih =>
    obtain ⟨hid', heq⟩ := hext.arrays _ hid
    exact .array hty hid' (by rwa [heq])
  | map hty hid _ ih =>
    obtain ⟨hid', heq⟩ := hext.maps _ hid
    exact .map hty hid' (by rwa [heq])
  | struct hty hid hdecl hnames _ ih =>
    obtain ⟨hid', heq⟩ := hext.structs _ hid
    exact .struct hty hid' hdecl (by rwa [heq]) (by rwa [heq])

/-- The fields of a read struct are the declared ones in their order. -/
theorem fields {name : String} {id : Nat} (hv : (Value.struct name id).IsRead p h ty) :
    ∃ decl, p.struct? name = some decl ∧
      List.Forall₂ (fun (param : Param) (field : String × Value) =>
        field.1 = param.name ∧ field.2.IsRead p h param.ty) decl.fields (h.struct id) := by
  cases hv with
  | scalar _ hscalar => cases hscalar
  | struct _ _ hdecl hnames hfields =>
    refine ⟨_, hdecl, List.forall₂_iff_zip.mpr ⟨?_, fun hpair => ⟨?_, hfields _ hpair⟩⟩⟩
    · simpa using (congrArg List.length hnames).symm
    · exact eq_of_mem_zip hnames hpair

/-- Everything in a read value was read itself. -/
theorem of_contains (hv : v.IsRead p h ty) (hw : v.Contains h w) : ∃ slot, w.IsRead p h slot := by
  induction hw with
  | self => exact ⟨ty, hv⟩
  | element _ hw ih =>
    obtain ⟨_, hread⟩ := ih
    cases hread with
    | scalar _ hscalar => cases hscalar
    | array _ _ hitems => exact ⟨_, hitems _ hw⟩
  | entry _ hw ih =>
    obtain ⟨_, hread⟩ := ih
    cases hread with
    | scalar _ hscalar => cases hscalar
    | map _ _ hentries => exact ⟨_, hentries _ hw⟩
  | field _ hw ih =>
    obtain ⟨_, hread⟩ := ih
    obtain ⟨decl, _, hfields⟩ := hread.fields
    obtain ⟨param, _, hfield⟩ := forall₂_right_mem hfields hw
    exact ⟨param.ty, hfield⟩
  | argument _ _ ih =>
    obtain ⟨_, hread⟩ := ih
    cases hread with
    | scalar _ hscalar => cases hscalar

theorem admittedThroughout (hv : v.IsRead p h ty) : v.AdmittedThroughout p h ty where
  value := hv.admittedAs
  elements elem id hin w hw := by
    obtain ⟨_, hread⟩ := hv.of_contains hin
    cases hread with
    | scalar _ hscalar => cases hscalar
    | array _ _ hitems => exact (hitems w hw).admittedAs
  fields name id hin := by
    obtain ⟨_, hread⟩ := hv.of_contains hin
    obtain ⟨decl, hdecl, hfields⟩ := hread.fields
    exact ⟨decl, hdecl, hfields.imp fun _ _ hfield => ⟨hfield.1, hfield.2.admittedAs⟩⟩

end Value.IsRead

namespace Value

open Builder

/-- A document that is neither array nor object is read as a value of the type. -/
theorem gives_isRead_scalar (doc : Json) (ty : Ty) (h : Heap) :
    Gives h (ofScalarJson doc ty) fun h' v => v.IsRead p h' ty := by
  have present {v : Value} (hnull : v.isNull = false) (hscalar : v.isContainer = false)
      (hty : ty.accepts v.ty = true) {h' : Heap} : v.IsRead p h' ty :=
    .scalar (.of_accepts hnull hty) hscalar
  unfold ofScalarJson
  split
  · exact .pure (.scalar (.null _) rfl)
  · exact .pure (present rfl rfl (Ty.accepts_self _))
  · split
    · exact .pure (present rfl rfl (Ty.accepts_self _))
    · exact .throw _
  · exact .pure (present rfl rfl (Ty.accepts_self _))
  · exact .pure (present rfl rfl (Ty.accepts_self _))
  · exact .pure (present rfl rfl (Ty.accepts_self _))
  · exact .pure (present rfl rfl (Ty.accepts_self _))
  · exact .pure (present rfl rfl (Ty.accepts_self _))
  · exact .make (.newMessage h _) (present rfl rfl (Ty.accepts_self _))
  · exact .pure (.scalar (.any _) rfl)
  · exact .pure (.scalar (.any _) rfl)
  · split
    · exact .pure (.scalar (.any _) rfl)
    · exact .pure (.scalar (.any _) rfl)
  · exact .pure (.scalar (.any _) rfl)
  · exact .pure (.scalar (.any _) rfl)
  · exact .throw _

/-- A new array of read values is one of their type. -/
theorem gives_isRead_array {elem ty : Ty} {vs : List Value} {h : Heap}
    (hty : ty.accepts (.arrayOf elem) = true) (hvs : ∀ v ∈ vs, v.IsRead p h elem) :
    Gives h (make (Heap.newArray elem vs.toArray)) fun h' v => v.IsRead p h' ty := by
  have hext := Heap.Extends.newArray h elem vs.toArray
  refine .make hext (.array hty (by simp [Heap.newArray]) fun w hw => ?_)
  rw [Heap.array_newArray, if_pos rfl, List.mem_toArray] at hw
  exact (hvs w hw).mono hext

theorem gives_isRead_map {ty : Ty} {entries : Dict Value} {h : Heap}
    (hty : ty.accepts (.ref .map) = true) (hentries : ∀ entry ∈ entries, entry.2.IsRead p h .any) :
    Gives h (make (Heap.newMap entries)) fun h' v => v.IsRead p h' ty := by
  have hext := Heap.Extends.newMap h entries
  refine .make hext (.map hty (by simp [Heap.newMap]) fun entry hentry => ?_)
  rw [Heap.map_newMap, if_pos rfl] at hentry
  exact (hentries entry hentry).mono hext

section Structs

variable {readers : List (String × (Ty → Builder Value))}
  (hreaders : ∀ reader ∈ readers, ∀ ty h, Gives h (reader.2 ty) fun h' v => v.IsRead p h' ty)

include hreaders

/-- The fields of a struct are read in the order of their declaration, each at its own type. -/
theorem gives_isRead_fields (params : List Param) (h : Heap) :
    Gives h (buildFields readers params) fun h' fields =>
      fields.map (·.1) = params.map (·.name) ∧
      ∀ pair ∈ params.zip fields, pair.2.2.IsRead p h' pair.1.ty := by
  induction params generalizing h with
  | nil => exact .pure ⟨rfl, by simp⟩
  | cons param params ih =>
    have hread : Gives h (buildField readers param) fun h' v => v.IsRead p h' param.ty := by
      unfold buildField
      split
      next read hfind => exact hreaders _ (Dict.mem_of_find? hfind) param.ty h
      · exact .pure (.scalar (.default param.ty) (by cases param.ty <;> rfl))
    rw [buildFields_cons]
    refine hread.bind fun v h₁ _ hv => ?_
    refine (ih h₁).bind fun fields h₂ hext ⟨hnames, hfields⟩ => .pure ⟨by simp [hnames], ?_⟩
    rw [List.zip_cons_cons, List.forall_mem_cons]
    exact ⟨hv.mono hext, hfields⟩

theorem gives_isRead_struct (name : String) (h : Heap) :
    Gives h (buildStruct p.structFields? name readers) fun h' v =>
      v.IsRead p h' (.ref (.struct name)) := by
  unfold buildStruct
  split
  · exact .throw _
  next params hparams =>
    obtain ⟨decl, hdecl, rfl⟩ := Option.map_eq_some_iff.mp hparams
    split
    · exact .throw _
    · refine (gives_isRead_fields hreaders decl.fields h).bind
        fun fields h₁ _ ⟨hnames, hfields⟩ => ?_
      have hext := Heap.Extends.newStruct h₁ name fields
      refine .make hext (.struct (Ty.accepts_self _) (by simp [Heap.newStruct]) hdecl ?_ ?_)
      · rwa [Heap.struct_newStruct, if_pos rfl]
      · rw [Heap.struct_newStruct, if_pos rfl]
        exact fun pair hpair => (hfields pair hpair).mono hext

end Structs

mutual

/-- **Documents are read as declared, in every heap**: what a document is read as at a type is
admitted for the type, and everything that is made for it holds what is declared. -/
theorem gives_isRead (doc : Json) (ty : Ty) (h : Heap) :
    Gives h (ofJson p.structFields? doc ty) fun h' v => v.IsRead p h' ty := by
  cases doc with
  | arr items =>
    unfold ofJson
    split
    · exact (gives_isRead_items items _ h).bind fun vs _ _ hvs =>
        gives_isRead_array (Ty.accepts_self _) hvs
    · exact (gives_isRead_items items .any h).bind fun vs _ _ hvs =>
        gives_isRead_array (Ty.accepts_of_any _) hvs
    · exact gives_isRead_scalar _ _ h
  | obj members =>
    unfold ofJson
    split
    · exact (gives_isRead_members members h).bind fun entries _ _ hentries =>
        gives_isRead_map (Ty.accepts_self _) hentries
    · exact (gives_isRead_members members h).bind fun entries _ _ hentries =>
        gives_isRead_map (Ty.accepts_of_any _) hentries
    next name => exact gives_isRead_struct (gives_isRead_readers members) name h
    · exact gives_isRead_scalar _ _ h
  | null => exact gives_isRead_scalar _ _ h
  | bool b => exact gives_isRead_scalar _ _ h
  | int n => exact gives_isRead_scalar _ _ h
  | float x => exact gives_isRead_scalar _ _ h
  | str s => exact gives_isRead_scalar _ _ h

theorem gives_isRead_items (items : List Json) (ty : Ty) (h : Heap) :
    Gives h (ofJsonItems p.structFields? items ty) fun h' vs => ∀ v ∈ vs, v.IsRead p h' ty := by
  cases items with
  | nil => exact .pure (by simp)
  | cons item items =>
    unfold ofJsonItems
    refine (gives_isRead item ty h).bind fun v h₁ _ hv => ?_
    refine (gives_isRead_items items ty h₁).bind fun vs h₂ hext hvs => .pure ?_
    exact List.forall_mem_cons.mpr ⟨hv.mono hext, hvs⟩

theorem gives_isRead_members (members : List (String × Json)) (h : Heap) :
    Gives h (ofJsonMembers p.structFields? members) fun h' entries =>
      ∀ entry ∈ entries, entry.2.IsRead p h' .any := by
  cases members with
  | nil => exact .pure (by simp)
  | cons member members =>
    obtain ⟨name, value⟩ := member
    unfold ofJsonMembers
    refine (gives_isRead value .any h).bind fun v h₁ _ hv => ?_
    refine (gives_isRead_members members h₁).bind fun entries h₂ hext hentries => .pure ?_
    exact List.forall_mem_cons.mpr ⟨hv.mono hext, hentries⟩

theorem gives_isRead_readers (members : List (String × Json)) :
    ∀ reader ∈ readers p.structFields? members, ∀ ty h,
      Gives h (reader.2 ty) fun h' v => v.IsRead p h' ty := by
  cases members with
  | nil => simp [readers]
  | cons member members =>
    obtain ⟨name, value⟩ := member
    intro reader hreader ty h
    unfold readers at hreader
    rcases List.mem_cons.mp hreader with rfl | hmem
    · exact gives_isRead value ty h
    · exact gives_isRead_readers members reader hmem ty h

end

end Value

/-! ## Read arguments -/

/-- Arguments that may stand in their parameters are admitted. -/
theorem checkTypes_of_admitted {callee : String} {index : Nat} {params : List Param}
    {args : List Value}
    (h : List.Forall₂ (fun (param : Param) (v : Value) => v.AdmittedAs param.ty) params args) :
    checkTypes callee index params args = .ok () := by
  induction h generalizing index with
  | nil => rfl
  | cons hfirst _ ih => rw [checkTypes, hfirst.refused?_eq_none, ih]

theorem checkArguments_of_admitted {sig : Signature} {args : List Value}
    (h : List.Forall₂ (fun (param : Param) (v : Value) => v.AdmittedAs param.ty) sig.params args) :
    checkArguments sig args = .ok () := by
  rw [checkArguments, if_neg (by simpa using h.length_eq.symm)]
  exact checkTypes_of_admitted h

/-- Once its arguments are admitted, only the sizes of its frame can keep a call from being
prepared. -/
theorem wiring_of_prepare {unit : Callable} {args : List Value}
    (hargs : checkArguments unit.sig args = .ok ()) {f : Fault}
    (h : prepare unit args = .error f) : ∃ w, f = .wiring w := by
  unfold prepare at h
  rw [hargs] at h
  change (unit.shape >>= _) = _ at h
  cases hshape : unit.shape with
  | error g =>
    rw [hshape] at h
    cases h
    cases unit with
    | native u => cases hshape
    | function g =>
      unfold Callable.shape at hshape
      dsimp only at hshape
      split at hshape
      · cases hshape
        exact ⟨_, rfl⟩
      · cases hshape
  | ok shape =>
    rw [hshape] at h
    change Frame.make? _ _ _ _ _ = _ at h
    unfold Frame.make? at h
    split at h
    · cases h
      exact ⟨_, rfl⟩
    · cases h

namespace Program

/-- Inputs that are read at types are admitted for them. -/
theorem gives_readInputs (inputs : List (Json × Ty)) (h : Heap) :
    Builder.Gives h (p.readInputs inputs) fun _ vs =>
      List.Forall₂ (fun (input : Json × Ty) (v : Value) => v.AdmittedAs input.2) inputs vs := by
  induction inputs generalizing h with
  | nil => exact .pure .nil
  | cons input inputs ih =>
    obtain ⟨doc, ty⟩ := input
    refine Builder.Gives.bind (Value.gives_isRead doc ty h) fun v h₁ _ hv => ?_
    exact (ih h₁).bind fun vs _ _ hvs => .pure (.cons hv.admittedAs hvs)

/-- Documents of a call from outside, one for each parameter, are read at the types of the
parameters. -/
theorem readArgs_eq_zip {name : String} {unit : Callable} (hunit : p.find? name = some unit)
    {docs : List Json} (hlen : docs.length = unit.sig.params.length) :
    p.readArgs name 0 docs = p.readInputs (docs.zip unit.sig.paramTypes) := by
  rw [readArgs_eq]
  congr 1
  refine List.ext_getElem (by simp [hlen, Signature.paramTypes]) fun i hi hi' => ?_
  simp only [List.length_map, List.length_zipIdx] at hi
  have hty : i < unit.sig.paramTypes.length := by simpa [Signature.paramTypes, ← hlen] using hi
  simp [paramType, hunit, List.getElem?_eq_getElem hty]

end Program

/-- **Read arguments are admitted**: a value that was read from a document at a type is admitted for
the type, and so is every element and every field inside of it for the type that is declared there.
So a call whose arguments were read from documents at the types of its parameters, one for each, is
never refused for their number or their types; what the command line reads for a callable is read
so.

**Proof sketch.** The value was read by the rules of `Value.IsRead`, whatever objects there were
before, and what these say about it and about everything in it is that it is admitted. An admitted
value is not refused. -/
theorem readInputs_admitted (p : Program) :
    (∀ (doc : Json) (ty : Ty) (h h' : Heap) (v : Value),
      (p.valueOfJson doc ty).run h = .ok (v, h') → v.AdmittedThroughout p h' ty) ∧
    (∀ (unit : Callable) (docs : List Json) (h h' : Heap) (args : List Value),
      docs.length = unit.sig.params.length →
      (p.readInputs (docs.zip unit.sig.paramTypes)).run h = .ok (args, h') →
      checkArguments unit.sig args = .ok () ∧
      (∀ callee expected found, prepare unit args ≠ .error (.arityMismatch callee expected found)) ∧
      ∀ callee index expected found,
        prepare unit args ≠ .error (.argumentType callee index expected found)) ∧
    ∀ (name : String) (unit : Callable) (docs : List Json), p.find? name = some unit →
      docs.length = unit.sig.params.length →
      p.readArgs name 0 docs = p.readInputs (docs.zip unit.sig.paramTypes) := by
  refine ⟨fun doc ty h h' v hread => ?_, fun unit docs h h' args hlen hread => ?_,
    fun name unit docs hunit hlen => Program.readArgs_eq_zip hunit hlen⟩
  · exact (Value.gives_isRead doc ty h v h' hread).2.admittedThroughout
  · have hvs := (Program.gives_readInputs _ h args h' hread).2
    have hargs : List.Forall₂ (fun (param : Param) (v : Value) => v.AdmittedAs param.ty)
        unit.sig.params args := by
      have htys : (docs.zip unit.sig.paramTypes).map (·.2) = unit.sig.params.map (·.ty) :=
        List.map_snd_zip (by simp [Signature.paramTypes, hlen])
      rw [← List.forall₂_map_left_iff (R := fun ty (v : Value) => v.AdmittedAs ty), ← htys]
      exact List.forall₂_map_left_iff.mpr hvs
    have hadmitted := checkArguments_of_admitted hargs
    refine ⟨hadmitted, fun callee expected found herror => ?_,
      fun callee index expected found herror => ?_⟩
    · obtain ⟨w, hw⟩ := wiring_of_prepare hadmitted herror
      cases hw
    · obtain ⟨w, hw⟩ := wiring_of_prepare hadmitted herror
      cases hw

/-- A native unit that takes some boxes and a label of any type. -/
def packing : Callable :=
  .native (.function "" "pack" [⟨"boxes", .arrayOf (.ref (.struct "box"))⟩, ⟨"label", .any⟩] []
    (pure []))

/-- A program with boxes and this unit. -/
def packers : Program :=
  { Program.withBoxes with units := [("pack", packing)] }

/-- A null and a box with another one in it, as a document. -/
def boxesDoc : Json :=
  .arr [.null, .obj [("lid", .obj [("inside", .arr [.null])])]]

/-- The null is read as the null of boxes, and the others as boxes of the declared form, down to the
list with a null; with any label they are admitted. -/
theorem readInputs_admitted_boxes :
    (∃ v h, (packers.valueOfJson boxesDoc (.arrayOf (.ref (.struct "box")))).run {} = .ok (v, h) ∧
      v.AdmittedThroughout packers h (.arrayOf (.ref (.struct "box")))) ∧
    ∃ args h, (packers.readArgs "pack" 0 [boxesDoc, .arr [.null]]).run {} = .ok (args, h) ∧
      checkArguments packing.sig args = .ok () := by
  obtain ⟨hvalue, hprepare, hargs⟩ := readInputs_admitted packers
  have hpack : packers.find? "pack" = some packing := rfl
  obtain ⟨v, h, hv⟩ : ∃ v h, (packers.valueOfJson boxesDoc
      (.arrayOf (.ref (.struct "box")))).run {} = .ok (v, h) := ⟨_, _, rfl⟩
  obtain ⟨args, h', hread⟩ : ∃ args h', (packers.readInputs
      ([boxesDoc, .arr [.null]].zip packing.sig.paramTypes)).run {} = .ok (args, h') := ⟨_, _, rfl⟩
  refine ⟨⟨v, h, hv, hvalue _ _ _ _ _ hv⟩, args, h', ?_, ?_⟩
  · rw [hargs "pack" packing _ hpack rfl, hread]
  · exact (hprepare packing _ _ _ _ rfl hread).1

end FrameScript
