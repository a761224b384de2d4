import FrameScript.Proofs.RawSources
import FrameScript.Proofs.Rereading
import FrameScript.Source.Encode

set_option autoImplicit false

/-!
# Documents that keep their meaning

A document may be handed on as it is, or by way of the free-form document it stands for, in which
tables have the order of their keys. What is read from it is the same.

## Main definitions

* `Document.written` — the free-form document that a document stands for.
* `Document.Presentation` — a way to hand on documents under which they keep their meaning.
* `Document.Readable` — every part of a document has a reading.
* `Decoder.Obtains` — a computation reads a value.

## Main results

* `Document.Presentation.written` — a document may be handed on by way of the free-form one.
* `Document.Presentation.obtains_listOf`, `Document.Presentation.obtains_record` — a list and a
  record that were handed on are read if their parts are.
* `Document.Readable.toJson?_eq` — a readable document is a free-form document.
-/

namespace FrameScript

variable {α β : Type}

/-! ## Written documents -/

namespace Document

mutual

/-- The free-form document that the text of a document is the text of. What has no value, or is
written elsewhere, is written as null. -/
def written : Document → Json
  | .leaf l => scalarToJson (l.value?.getD .null)
  | .list items => .arr (writtenItems items)
  | .table entries => Json.ofMembers (writtenEntries entries)
  | .reference _ => .null

/-- The free-form documents of the items of a list. -/
def writtenItems : List Document → List Json
  | [] => []
  | item :: items => written item :: writtenItems items

/-- The members of the object that a table is written as. -/
def writtenEntries : List (Document × Document) → List (String × Json)
  | [] => []
  | (key, value) :: entries => (key.text?.getD "", written value) :: writtenEntries entries

end

theorem writtenItems_eq (items : List Document) : writtenItems items = items.map written := by
  induction items with
  | nil => rfl
  | cons item items ih => simp only [writtenItems, ih, List.map_cons]

theorem writtenEntries_map (entries : List (String × α)) (value : α → Document) :
    writtenEntries (entries.map fun entry => (ofText entry.1, value entry.2)) =
      entries.map fun entry => (entry.1, written (value entry.2)) := by
  induction entries with
  | nil => rfl
  | cons entry entries ih =>
    simp only [List.map_cons, writtenEntries, ih]
    rfl

theorem ofJsonItems_eq (items : List Json) : ofJsonItems items = items.map ofJson := by
  induction items with
  | nil => rfl
  | cons item items ih => simp only [ofJsonItems, ih, List.map_cons]

theorem ofJsonMembers_eq (members : List (String × Json)) :
    ofJsonMembers members = members.map fun member => (ofText member.1, ofJson member.2) := by
  induction members with
  | nil => rfl
  | cons member members ih => simp only [ofJsonMembers, ih, List.map_cons]

/-- A way to hand on documents under which they keep their meaning: tables may have their entries in
another order. -/
structure Presentation (f : Document → Document) : Prop where
  /-- Texts stay. -/
  text (s : String) : f (ofText s) = ofText s
  /-- Truth values stay. -/
  bool (b : Bool) : f (ofScalar (.bool b)) = ofScalar (.bool b)
  /-- Integers stay. -/
  int (n : Int) : f (ofScalar (.int n)) = ofScalar (.int n)
  /-- Finite doubles stay. -/
  float {x : Float} (hx : x.isFinite = true) : f (ofScalar (.float x)) = ofScalar (.float x)
  /-- Lists are handed on item by item. -/
  list (ds : List Document) : f (.list ds) = .list (ds.map f)
  /-- Tables are handed on entry by entry, in some order. -/
  entries {es : List (String × Document)} (hkeys : (es.map (·.1)).Nodup) :
    ∃ es', f (ofEntries es) = ofEntries es' ∧ es'.Perm (es.map fun e => (e.1, f e.2))
  /-- Free-form documents stay. -/
  free {doc : Json} (hdoc : doc.Canonical) : f (ofJson doc) = ofJson doc

theorem Presentation.id : Presentation id where
  text _ := rfl
  bool _ := rfl
  int _ := rfl
  float _ := rfl
  list ds := by simp
  entries {es} _ := ⟨es, rfl, by simp⟩
  free _ := rfl

end Document

namespace Dict

/-- An entry with a new key is one entry more. -/
theorem perm_insert {key : String} {value : α} {d : Dict α} (hkey : key ∉ d.map (·.1)) :
    (insert key value d).Perm ((key, value) :: d) := by
  induction d with
  | nil => exact .refl _
  | cons entry rest ih =>
    obtain ⟨k, v⟩ := entry
    simp only [List.map_cons, List.mem_cons, not_or] at hkey
    simp only [insert]
    rw [if_neg (by simpa using hkey.1)]
    split
    · exact .refl _
    · exact ((ih hkey.2).cons _).trans (.swap _ _ _)

theorem perm_foldl_insert {entries d : List (String × α)}
    (hkeys : ((d ++ entries).map (·.1)).Nodup) :
    (entries.foldl (fun d (key, value) => insert key value d) d).Perm (d ++ entries) := by
  induction entries generalizing d with
  | nil => simp
  | cons entry entries ih =>
    obtain ⟨key, value⟩ := entry
    have hmiddle : (d ++ (key, value) :: entries).Perm ((key, value) :: (d ++ entries)) :=
      List.perm_middle
    have hnodup := (hmiddle.map (·.1)).nodup_iff.mp hkeys
    have hnew : key ∉ d.map (·.1) := fun h =>
      (List.nodup_cons.mp hnodup).1 (by simp [List.mem_map.mp h])
    have hinsert : ((insert key value d : List (String × α)) ++ entries).Perm
        ((key, value) :: (d ++ entries)) := (perm_insert hnew).append_right entries
    exact (ih ((hinsert.map (·.1)).nodup_iff.mpr hnodup)).trans (hinsert.trans hmiddle.symm)

/-- Entries with distinct keys are the entries of their dictionary. -/
theorem perm_ofList {entries : List (String × α)} (hkeys : (entries.map (·.1)).Nodup) :
    (ofList entries).Perm entries :=
  perm_foldl_insert (d := []) hkeys

/-- Ordered entries are the entries of their dictionary, in the same order. -/
theorem ofList_of_pairwise {entries : List (String × α)}
    (h : entries.Pairwise fun e e' => e.1 < e'.1) : ofList entries = entries := by
  have hkeys : (entries.map (·.1)).Nodup := by
    refine List.pairwise_map.mpr (h.imp fun {e e'} hlt heq => ?_)
    rw [heq] at hlt
    exact String.lt_irrefl _ hlt
  refine List.Perm.eq_of_pairwise (fun e e' _ _ hlt hgt => ?_) (pairwise_ofList entries) h
    (perm_ofList hkeys)
  exact absurd hgt (String.lt_asymm hlt)

end Dict

namespace Document

/-- A free-form document with ordered members is written as it is. -/
theorem written_ofJson {doc : Json} (hdoc : doc.Canonical) : written (ofJson doc) = doc := by
  induction hdoc with
  | null | bool | int | str => rfl
  | float x => exact Json.ofFloat_of_isFinite x.finite
  | @arr items _ ih =>
    rw [ofJson, written, writtenItems_eq, ofJsonItems_eq, List.map_map]
    exact congrArg Json.arr (List.map_congr_left ih |>.trans (List.map_id items))
  | @obj members hsorted _ ih =>
    have hentries : writtenEntries (ofJsonMembers members) = members := by
      rw [ofJsonMembers_eq]
      refine (writtenEntries_map members ofJson).trans ?_
      refine (List.map_congr_left fun member hmember => ?_).trans (List.map_id members)
      rw [ih member hmember]
      rfl
    rw [ofJson, written, hentries, Json.ofMembers, Dict.ofList_of_pairwise hsorted]

theorem Presentation.written : Presentation fun d => ofJson (written d) where
  text _ := rfl
  bool _ := rfl
  int _ := rfl
  float hx := by
    change ofJson (Json.ofFloat _) = _
    rw [Json.ofFloat_of_isFinite hx]
    rfl
  list ds := by
    change Document.list (ofJsonItems (writtenItems ds)) = _
    rw [ofJsonItems_eq, writtenItems_eq, List.map_map]
    rfl
  entries {es} hkeys := by
    refine ⟨(Dict.ofList (writtenEntries (es.map fun e => (ofText e.1, e.2)))).map
      fun member => (member.1, ofJson member.2), ?_, ?_⟩
    · change Document.table (ofJsonMembers _) = _
      rw [ofJsonMembers_eq, ofEntries, List.map_map]
      rfl
    · have hwritten : writtenEntries (es.map fun e => (ofText e.1, e.2)) =
          es.map fun e => (e.1, Document.written e.2) := writtenEntries_map es fun d => d
      rw [hwritten]
      have hkeys' : ((es.map fun e => (e.1, Document.written e.2)).map (·.1)).Nodup := by
        simpa [Function.comp_def] using hkeys
      have hperm := Dict.perm_ofList hkeys'
      refine (hperm.map _).trans ?_
      rw [List.map_map]
      exact .refl _
  free hdoc := by rw [written_ofJson hdoc]

end Document

/-! ## Readable documents -/

namespace Document

/-- Every part of the document has a reading and is written where it stands. -/
inductive Readable : Document → Prop
  /-- A scalar with a value. -/
  | leaf {l : Leaf} (hvalue : l.value?.isSome = true) : Readable (.leaf l)
  /-- A list of readable items. -/
  | list {items : List Document} (hitems : ∀ d ∈ items, Readable d) : Readable (.list items)
  /-- A table of readable values whose keys are texts. -/
  | table {entries : List (Document × Document)}
    (hkeys : ∀ e ∈ entries, e.1.text?.isSome = true) (hvalues : ∀ e ∈ entries, Readable e.2) :
    Readable (.table entries)

theorem readable_ofText (s : String) : Readable (ofText s) :=
  .leaf rfl

theorem readable_ofScalar (v : Scalar) : Readable (ofScalar v) :=
  .leaf rfl

theorem readable_ofEntries {entries : List (String × Document)}
    (h : ∀ e ∈ entries, Readable e.2) : Readable (ofEntries entries) :=
  .table (List.forall_mem_map.mpr fun _ _ => rfl) (List.forall_mem_map.mpr h)

theorem readable_ofChoice {name : String} {content : Document} (h : Readable content) :
    Readable (ofChoice name content) := by
  have hcontent : ∀ e ∈ [(name, content)], Readable e.2 := by simpa
  exact readable_ofEntries hcontent

theorem readable_ofJson {doc : Json} (hdoc : doc.Canonical) : Readable (ofJson doc) := by
  induction hdoc with
  | null | bool | int | float | str => exact .leaf rfl
  | arr _ ih =>
    rw [ofJson, ofJsonItems_eq]
    exact .list (List.forall_mem_map.mpr ih)
  | obj _ _ ih =>
    rw [ofJson, ofJsonMembers_eq]
    exact .table (List.forall_mem_map.mpr fun _ _ => rfl) (List.forall_mem_map.mpr ih)

theorem itemsToJson?_eq {items : List Document}
    (h : ∀ d ∈ items, d.toJson? = some d.written) :
    itemsToJson? items = some (writtenItems items) := by
  induction items with
  | nil => rfl
  | cons d items ih =>
    rw [List.forall_mem_cons] at h
    rw [itemsToJson?, h.1, ih h.2, writtenItems]

theorem entriesToJson?_eq {entries : List (Document × Document)}
    (hkeys : ∀ e ∈ entries, e.1.text?.isSome = true)
    (h : ∀ e ∈ entries, e.2.toJson? = some e.2.written) :
    entriesToJson? entries = some (writtenEntries entries) := by
  induction entries with
  | nil => rfl
  | cons entry entries ih =>
    obtain ⟨key, value⟩ := entry
    rw [List.forall_mem_cons] at hkeys h
    obtain ⟨name, hname⟩ := Option.isSome_iff_exists.mp hkeys.1
    rw [entriesToJson?, hname, h.1, ih hkeys.2 h.2, writtenEntries, hname]
    rfl

/-- A readable document is a free-form document, the one it is written as. -/
theorem Readable.toJson?_eq {d : Document} (hd : d.Readable) : d.toJson? = some d.written := by
  induction hd with
  | @leaf l hvalue =>
    obtain ⟨v, hv⟩ := Option.isSome_iff_exists.mp hvalue
    rw [toJson?, written, hv]
    rfl
  | list _ ih =>
    rw [toJson?, itemsToJson?_eq ih, written]
    rfl
  | table hkeys _ ih =>
    rw [toJson?, entriesToJson?_eq hkeys ih, written]
    rfl

end Document

/-! ## Reading -/

namespace Decoder

/-- From what was presented without references, and without a limit on the nesting, the computation
reads the value. -/
def Obtains (reach : Nat) (x : Decoder α) (a : α) : Prop :=
  ∀ scope : Scope, scope.room? = none → scope.reach = reach → ∀ jumps,
    (x.run scope).run jumps = some (a, jumps)

namespace Obtains

variable {reach : Nat} {x : Decoder α} {a : α}

theorem pure (a : α) : Obtains reach (pure a) a :=
  fun _ _ _ _ => rfl

theorem bind {f : α → Decoder β} {b : β} (hx : Obtains reach x a) (hf : Obtains reach (f a) b) :
    Obtains reach (x >>= f) b := by
  intro scope hroom hreach jumps
  rw [ReaderT.run_bind, StateT.run_bind, hx scope hroom hreach jumps]
  exact hf scope hroom hreach jumps

theorem map {f : α → β} (hx : Obtains reach x a) : Obtains reach (f <$> x) (f a) := by
  intro scope hroom hreach jumps
  rw [Document.run_map, hx scope hroom hreach jumps]
  rfl

theorem reach_eq : Obtains reach Decoder.reach reach :=
  fun _ _ hreach _ => by rw [← hreach]; rfl

theorem nested {inside : Decoder α} (h : Obtains reach inside a) :
    Obtains reach (nested inside) a := by
  intro scope hroom hreach jumps
  rw [Document.run_nested, hroom]
  exact h scope hroom hreach jumps

theorem mapM {γ : Type} {decode : β → Decoder α} {f : γ → β} {g : γ → α} {xs : List γ}
    (h : ∀ x ∈ xs, Obtains reach (decode (f x)) (g x)) :
    Obtains reach ((xs.map f).mapM decode) (xs.map g) := by
  induction xs with
  | nil => exact .pure []
  | cons x xs ih =>
    rw [List.forall_mem_cons] at h
    rw [List.map_cons, List.mapM_cons, List.map_cons]
    exact .bind h.1 (.bind (ih h.2) (.pure _))

end Obtains

end Decoder

namespace Document

open Decoder

variable {reach : Nat}

/-- The document is no reference. -/
def IsPlace : Document → Bool
  | .reference _ => false
  | _ => true

theorem obtains_value {reading : Document → Option α} {d : Document} {a : α} (hd : d.IsPlace = true)
    (h : reading d = some a) : Obtains reach (d.value reading) a := by
  intro scope hroom hreach jumps
  have hfollow : ((follow d).run scope).run jumps = some (d, jumps) := by
    cases d with
    | reference => cases hd
    | _ => rfl
  rw [run_value, hfollow]
  simp [h]

theorem obtains_text (s : String) : Obtains reach (text (ofText s)) s :=
  obtains_value rfl rfl

theorem obtains_variant {names : List String} {name : String} (content : Document) :
    Obtains reach (variant names (ofChoice name content)) (name, some content) :=
  obtains_value rfl rfl

theorem obtains_named {decode : Document → Decoder α} {name : String} {d : Document} {a : α}
    (h : Obtains reach (decode d) a) :
    Obtains reach (named decode (.list [ofText name, d])) (name, a) :=
  .bind (obtains_value rfl rfl) (.nested (.bind (obtains_text name) (.bind h (.pure _))))

/-! ## Tables -/

theorem mem_valueOf? {name : String} {d : Document} {es : List (String × Document)}
    (hkeys : (es.map (·.1)).Nodup) : valueOf? name es = some d ↔ (name, d) ∈ es := by
  induction es with
  | nil => simp [valueOf?]
  | cons e es ih =>
    obtain ⟨key, value⟩ := e
    rw [List.map_cons, List.nodup_cons] at hkeys
    replace ih := ih hkeys.2
    by_cases hkey : key = name
    · subst hkey
      have hrest : (key, d) ∉ es := fun h => hkeys.1 (List.mem_map_of_mem (f := (·.1)) h)
      simp [valueOf?, hrest, eq_comm]
    · simp only [valueOf?, List.find?_cons, beq_eq_false_iff_ne.mpr hkey] at ih ⊢
      simp [ih, Ne.symm hkey]

/-- The value of a key does not depend on the order of the entries. -/
theorem valueOf?_perm {es es' : List (String × Document)} (hperm : es'.Perm es)
    (hkeys : (es.map (·.1)).Nodup) (name : String) : valueOf? name es' = valueOf? name es := by
  have hkeys' := (hperm.map (·.1)).nodup_iff.mpr hkeys
  ext d
  rw [mem_valueOf? hkeys', mem_valueOf? hkeys, hperm.mem_iff]

theorem valueOf?_map (f : Document → Document) (name : String) (es : List (String × Document)) :
    valueOf? name (es.map fun e => (e.1, f e.2)) = (valueOf? name es).map f := by
  simp [valueOf?, List.find?_map, Function.comp_def]

theorem isRepeated_eq_false {es : List (String × Document)} (hkeys : (es.map (·.1)).Nodup)
    (name : String) : isRepeated name es = false := by
  have hcount := List.nodup_iff_count.mp hkeys name
  rw [List.count_eq_countP, List.countP_map, List.countP_eq_length_filter] at hcount
  simpa [isRepeated, Function.comp_def] using hcount

theorem obtains_record {names : List String} {inside : List (Option Document) → Decoder α} {a : α}
    {es : List (String × Document)} (hkeys : (es.map (·.1)).Nodup)
    (h : Obtains reach (inside (names.map (valueOf? · es))) a) :
    Obtains reach (record names inside (ofEntries es)) a := by
  have hkeyed : Obtains reach
      ((es.map fun e => (ofText e.1, e.2)).mapM fun e => do
        return (← e.1.text, e.2)) (es.map fun e => e) :=
    .mapM fun e _ => .bind (obtains_text e.1) (.pure _)
  rw [List.map_id'] at hkeyed
  refine .bind (a := ofEntries es) (fun _ _ _ _ => rfl) (.nested (.bind hkeyed ?_))
  rw [if_neg (by simp [isRepeated_eq_false hkeys])]
  exact h

theorem height_le_heightItems {d : Document} {ds : List Document} (hd : d ∈ ds) :
    d.height ≤ heightItems ds := by
  induction ds with
  | nil => cases hd
  | cons first ds ih =>
    rw [heightItems]
    rcases List.mem_cons.mp hd with rfl | hrest
    · exact Nat.le_max_left _ _
    · exact (ih hrest).trans (Nat.le_max_right _ _)

theorem height_le_heightEntries {e : Document × Document} {es : List (Document × Document)}
    (he : e ∈ es) : e.2.height ≤ heightEntries es := by
  induction es with
  | nil => cases he
  | cons first es ih =>
    rw [heightEntries]
    rcases List.mem_cons.mp he with rfl | hrest
    · exact Nat.le_max_left _ _
    · exact (ih hrest).trans (Nat.le_max_right _ _)

/-! ## Free-form documents -/

/-- A free-form document has no references to resolve. -/
theorem obtains_resolve (doc : Json) {fuel : Nat} (hfuel : (ofJson doc).height < fuel) :
    Obtains reach (resolve fuel (ofJson doc)) (ofJson doc) := by
  induction fuel generalizing doc with
  | zero => cases hfuel
  | succ fuel ih =>
    cases doc with
    | arr items =>
      rw [ofJson, ofJsonItems_eq] at hfuel ⊢
      have hitems : Obtains reach ((items.map ofJson).mapM (resolve fuel)) (items.map ofJson) := by
        refine .mapM fun item hitem => ih item ?_
        refine lt_of_le_of_lt ?_ (Nat.succ_lt_succ_iff.mp hfuel)
        exact height_le_heightItems (List.mem_map_of_mem hitem)
      refine .bind (a := .list (items.map ofJson)) (.pure _) ?_
      exact .nested (.bind hitems (.pure (Document.list (items.map ofJson))))
    | obj members =>
      rw [ofJson, ofJsonMembers_eq] at hfuel ⊢
      have hmembers : Obtains reach
          ((members.map fun m => (ofText m.1, ofJson m.2)).mapM fun e => do
            return (← e.1.follow, ← resolve fuel e.2))
          (members.map fun m => (ofText m.1, ofJson m.2)) := by
        refine .mapM fun member hmember => ?_
        refine .bind (a := ofText member.1) (.pure _) (.bind (ih member.2 ?_) (.pure _))
        refine lt_of_le_of_lt ?_ (Nat.succ_lt_succ_iff.mp hfuel)
        exact height_le_heightEntries (e := (ofText member.1, ofJson member.2))
          (List.mem_map.mpr ⟨member, hmember, rfl⟩)
      refine .bind (a := .table (members.map fun m => (ofText m.1, ofJson m.2))) (.pure _) ?_
      exact .nested (.bind hmembers (.pure (Document.table _)))
    | _ => exact .pure _

theorem obtains_json {doc : Json} (hdoc : doc.Canonical) (hreach : (ofJson doc).height < reach) :
    Obtains reach (json (ofJson doc)) doc := by
  refine .bind .reach_eq (.bind (obtains_resolve doc hreach) ?_)
  rw [(readable_ofJson hdoc).toJson?_eq, written_ofJson hdoc]
  exact .pure _

theorem obtains_orAbsent {decode : Document → Decoder α} {d : Document} {a : α}
    (hplace : d.IsPlace = true) (habsent : d.isAbsent = false) (h : Obtains reach (decode d) a) :
    Obtains reach (orAbsent decode (some d)) (some a) := by
  refine .bind (a := d) ?_ ?_
  · cases d with
    | reference => cases hplace
    | _ => exact .pure _
  · rw [habsent]
    exact .map h

/-! ## Presented documents -/

namespace Presentation

variable {f : Document → Document} (hf : Presentation f)

include hf

theorem choice (name : String) (content : Document) :
    f (ofChoice name content) = ofChoice name (f content) := by
  have hkeys : ([(name, content)].map (·.1)).Nodup := by simp
  obtain ⟨es, heq, hperm⟩ := hf.entries hkeys
  rw [List.map_singleton, List.perm_singleton] at hperm
  rw [hperm] at heq
  exact heq

theorem obtains_text (s : String) : Obtains reach (Document.text (f (ofText s))) s := by
  rw [hf.text]
  exact Document.obtains_text s

/-- A list is read back if its items are. -/
theorem obtains_listOf {decode : Document → Decoder α} {g : α → Document} {xs : List α}
    (h : ∀ x ∈ xs, Obtains reach (decode (f (g x))) x) :
    Obtains reach (listOf decode (f (.list (xs.map g)))) xs := by
  have hread : Obtains reach (listOf decode (.list (xs.map fun x => f (g x))))
      (xs.map fun x => x) :=
    .bind (obtains_value rfl rfl) (.nested (.mapM h))
  rw [List.map_id'] at hread
  rw [hf.list, List.map_map]
  exact hread

theorem obtains_record {names : List String} {inside : List (Option Document) → Decoder α} {a : α}
    {es : List (String × Document)} {parts : List (Option Document)} (hkeys : (es.map (·.1)).Nodup)
    (hparts : names.map (valueOf? · es) = parts)
    (h : Obtains reach (inside (parts.map (Option.map f))) a) :
    Obtains reach (record names inside (f (ofEntries es))) a := by
  obtain ⟨es', heq, hperm⟩ := hf.entries hkeys
  have hkeys' : ((es.map fun e => (e.1, f e.2)).map (·.1)).Nodup := by
    simpa [Function.comp_def] using hkeys
  rw [heq]
  refine Document.obtains_record ((hperm.map (·.1)).nodup_iff.mpr hkeys') ?_
  simpa only [← hparts, List.map_map, Function.comp_def, valueOf?_perm hperm hkeys',
    valueOf?_map] using h

/-! ## Heights -/

theorem height_choice (name : String) (content : Document) :
    (f (ofChoice name content)).height = (f content).height + 1 := by
  rw [hf.choice]
  simp [ofChoice, height, heightEntries]

theorem height_lt_list {d : Document} {ds : List Document} (hd : d ∈ ds) :
    (f d).height < (f (.list ds)).height := by
  rw [hf.list, height, Nat.lt_succ_iff]
  exact height_le_heightItems (List.mem_map_of_mem hd)

theorem height_lt_entries {d : Document} {es : List (String × Document)} (name : String)
    (hkeys : (es.map (·.1)).Nodup) (hd : (name, d) ∈ es) :
    (f d).height < (f (ofEntries es)).height := by
  obtain ⟨es', heq, hperm⟩ := hf.entries hkeys
  have hmem : (name, f d) ∈ es' := hperm.mem_iff.mpr (List.mem_map.mpr ⟨(name, d), hd, rfl⟩)
  rw [heq, ofEntries, height, Nat.lt_succ_iff]
  exact height_le_heightEntries (e := (ofText name, f d)) (List.mem_map.mpr ⟨_, hmem, rfl⟩)

end Presentation

end Document

end FrameScript
