import FrameScript.Proofs.Loading

set_option autoImplicit false

/-!
# Programs with the standard library

Most of the work of loading a small program is that of sorting the native units of the standard
library by their names, twice. Here they are sorted once for all programs.

## Main definitions

* `Dict.addNew` — a dictionary with further entries, if their keys are new.
* `Library.order` — the names of the standard library in ascending order.
* `Program.link` — what is left of loading once the native units are there.

## Main results

* `Library.standard_units` — the units of the standard library in the order of their names.
* `Program.load_standard` — loading with the standard library is linking to it.
-/

namespace FrameScript

/-! ## Dictionaries -/

namespace Dict

variable {α β : Type}

/-- Adds entries one by one, if all their keys are new. -/
def addNew : List (String × α) → Dict α → Option (Dict α)
  | [], d => some d
  | (key, value) :: entries, d =>
    if contains key d then none else addNew entries (insert key value d)

/-- Entries that are added in two parts. -/
theorem addNew_append {entries entries' : List (String × α)} {d d' : Dict α} :
    addNew (entries ++ entries') d = some d' ↔
      ∃ e, addNew entries d = some e ∧ addNew entries' e = some d' := by
  induction entries generalizing d with
  | nil => simp [addNew]
  | cons entry entries ih =>
    obtain ⟨key, value⟩ := entry
    simp only [List.cons_append, addNew]
    split
    · simp
    · exact ih

/-- The same dictionary with other values. -/
def mapValues (f : α → β) (d : Dict α) : Dict β :=
  d.map fun entry => (entry.1, f entry.2)

@[simp]
theorem mapValues_nil (f : α → β) : mapValues f [] = [] := rfl

@[simp]
theorem mapValues_cons (f : α → β) (key : String) (value : α) (d : Dict α) :
    mapValues f ((key, value) :: d) = (key, f value) :: mapValues f d := rfl

@[simp]
theorem find?_mapValues (f : α → β) (key : String) (d : Dict α) :
    find? key (mapValues f d) = (find? key d).map f := by
  induction d with
  | nil => rfl
  | cons entry d ih =>
    obtain ⟨k, v⟩ := entry
    simp only [mapValues_cons, find?]
    split
    · rfl
    · exact ih

@[simp]
theorem contains_mapValues (f : α → β) (key : String) (d : Dict α) :
    contains key (mapValues f d) = contains key d := by
  simp only [contains, find?_mapValues, Option.isSome_map]

theorem insert_mapValues (f : α → β) (key : String) (value : α) (d : Dict α) :
    insert key (f value) (mapValues f d) = mapValues f (insert key value d) := by
  induction d with
  | nil => rfl
  | cons entry d ih =>
    obtain ⟨k, v⟩ := entry
    simp only [mapValues_cons, insert]
    split
    · rfl
    · split
      · rfl
      · rw [ih, mapValues_cons]

/-- Where entries go depends on their keys only. -/
theorem addNew_mapValues (f : α → β) (entries d : Dict α) :
    addNew (mapValues f entries) (mapValues f d) = (addNew entries d).map (mapValues f) := by
  induction entries generalizing d with
  | nil => rfl
  | cons entry entries ih =>
    obtain ⟨key, value⟩ := entry
    simp only [mapValues_cons, addNew, contains_mapValues]
    split
    · rfl
    · rw [insert_mapValues, ih]

theorem addNew_mapValues_nil (f : α → β) {entries d : Dict α} (h : addNew entries [] = some d) :
    addNew (mapValues f entries) [] = some (mapValues f d) :=
  (addNew_mapValues f entries []).trans (congrArg _ h)

end Dict

/-! ## Registries -/

/-- Native units under their qualified names. -/
def NativeUnit.named (units : List NativeUnit) : List (String × NativeUnit) :=
  units.map fun u => (u.sig.qualifiedName, u)

namespace Registry

/-- Units with new names are all added. -/
theorem registerAll_of_addNew {units : List NativeUnit} {r : Registry} {d : Dict NativeUnit}
    (h : Dict.addNew (NativeUnit.named units) r.units = some d) :
    registerAll units r = (none, { r with units := d }) := by
  induction units generalizing r with
  | nil =>
    cases h
    rfl
  | cons u units ih =>
    simp only [NativeUnit.named, List.map_cons, Dict.addNew] at h
    split at h
    · cases h
    next hnew =>
      rw [registerAll, register, if_neg hnew]
      exact ih h

/-- Packages with new names and units with new names are all added. -/
theorem registerPackages_of_addNew {packages : List NativePackage} {r : Registry}
    {d : Dict NativeUnit} (hnames : (r.packages ++ packages.map (·.name)).Nodup)
    (h : Dict.addNew (NativeUnit.named (packages.flatMap (·.units))) r.units = some d) :
    (r.registerPackages packages).2.units = d := by
  induction packages generalizing r with
  | nil =>
    cases h
    rfl
  | cons package packages ih =>
    rw [List.flatMap_cons, NativeUnit.named, List.map_append] at h
    obtain ⟨e, hfirst, hrest⟩ := Dict.addNew_append.mp h
    have hnew : r.packages.contains package.name = false := by
      simp only [List.map_cons, List.nodup_append, List.mem_cons] at hnames
      simpa using fun hmem => hnames.2.2 _ hmem _ (.inl rfl) rfl
    rw [registerPackages, registerPackage, hnew, registerAll_of_addNew hfirst]
    refine ih (r := ⟨e, r.packages ++ [package.name]⟩) ?_ hrest
    simpa using hnames

end Registry

/-! ## The standard library -/

namespace Library

/-- The names of the units of the standard library in ascending order, each with the place of its
unit among all units. -/
def order : Dict Nat := [
  ("ballerina.lang.array:length", 7),
  ("ballerina.lang.convertors:jsonToString", 14),
  ("ballerina.lang.convertors:stringToJson", 16),
  ("ballerina.lang.convertors:stringToXml", 17),
  ("ballerina.lang.convertors:xmlToString", 15),
  ("ballerina.lang.maps:hasKey", 9),
  ("ballerina.lang.maps:keys", 8),
  ("ballerina.lang.maps:remove", 10),
  ("ballerina.lang.string:booleanValueOf", 2),
  ("ballerina.lang.string:contains", 6),
  ("ballerina.lang.string:floatValueOf", 1),
  ("ballerina.lang.string:length", 3),
  ("ballerina.lang.string:toLowerCase", 5),
  ("ballerina.lang.string:toUpperCase", 4),
  ("ballerina.lang.string:valueOf", 0),
  ("ballerina.lang.system:getProperty", 13),
  ("ballerina.lang.system:print", 12),
  ("ballerina.lang.system:println", 11)]

/-- The unit at a place, if there is one. -/
def unitAt (i : Nat) : NativeUnit :=
  (packages.flatMap (·.units)).getD i (.function "" "" [] [] (pure []))

/-- The places of the units, in the order in which they are registered. -/
def places : Dict Nat :=
  ((packages.flatMap (·.units)).map (·.sig.qualifiedName)).zipIdx

theorem named_units :
    NativeUnit.named (packages.flatMap (·.units)) = Dict.mapValues unitAt places := by
  refine List.ext_getElem (by simp [NativeUnit.named, Dict.mapValues, places]) fun i hi _ => ?_
  have hi : i < (packages.flatMap (·.units)).length := by simpa [NativeUnit.named] using hi
  simp only [NativeUnit.named, Dict.mapValues, places, unitAt, List.getElem_map,
    List.getElem_zipIdx, Nat.zero_add, List.getD, List.getElem?_eq_getElem hi, Option.getD_some]

theorem addNew_places : Dict.addNew places [] = some order := by
  decide +kernel

/-- The units of the standard library are registered in the order of their names. -/
theorem standard_units : standard.units = Dict.mapValues unitAt order := by
  -- rewriting leaves the registry as it is; unfolding it here would register all units
  rw [standard, register]
  refine Registry.registerPackages_of_addNew (by decide +kernel) ?_
  rw [named_units]
  exact Dict.addNew_mapValues_nil unitAt addNew_places

/-- The unit of a name is the one at its place. -/
theorem get?_standard (name : String) :
    standard.get? name = (Dict.find? name order).map unitAt := by
  rw [Registry.get?, standard_units, Dict.find?_mapValues]

end Library

/-! ## Programs -/

namespace Program

variable {natives : Registry} {p q : Program}

/-- Native units with new names are all added. -/
theorem insertNatives_of_addNew {d : Dict Callable}
    (h : Dict.addNew (natives.units.map fun entry =>
      (entry.2.sig.qualifiedName, Callable.native entry.2)) p.units = some d) :
    insertNatives natives p = .ok { p with units := d } := by
  unfold insertNatives
  generalize natives.units = units at h
  induction units generalizing p with
  | nil =>
    cases h
    rfl
  | cons entry units ih =>
    obtain ⟨key, unit⟩ := entry
    simp only [List.map_cons, Dict.addNew] at h
    split at h
    · cases h
    next hnew =>
      have hinsert : p.insertUnit (.native unit) = .ok { p with
          units := Dict.insert unit.sig.qualifiedName (.native unit) p.units } := if_neg hnew
      rw [List.foldlM_cons]
      dsimp only
      rw [hinsert]
      exact ih h

/-- The native units of the standard library, and nothing else. -/
def standard (package : String) : Program :=
  { package, units := Dict.mapValues (fun i => .native (Library.unitAt i)) Library.order }

theorem insertNatives_standard (package : String) :
    insertNatives Library.standard { package } = .ok (standard package) := by
  have hnames : ∀ entry ∈ Library.order,
      (Library.unitAt entry.2).sig.qualifiedName = entry.1 := by
    decide +kernel
  have hsorted : Dict.addNew Library.order [] = some Library.order := by
    decide +kernel
  refine insertNatives_of_addNew ?_
  have hentries : Library.standard.units.map (fun entry =>
      (entry.2.sig.qualifiedName, Callable.native entry.2)) =
        Dict.mapValues (fun i => .native (Library.unitAt i)) Library.order := by
    rw [Library.standard_units, Dict.mapValues, List.map_map, Dict.mapValues]
    exact List.map_congr_left fun entry hentry =>
      congrArg (·, Callable.native (Library.unitAt entry.2)) (hnames entry hentry)
  rw [hentries]
  exact Dict.addNew_mapValues_nil _ hsorted

/-- Adds the declarations of a source to a program with all native units. -/
def link (source : Source) (p : Program) : Except LoadError Program := do
  let p ← source.structs.foldlM insertStruct p
  let state ← source.connectors.foldlM insertConnector (p, [])
  let (p, errors) ← source.functions.foldlM insertFunction state
  if errors.isEmpty then pure p else throw (.semantic errors)

/-- **Loading with the standard library is linking to it.** -/
theorem load_standard (source : Source) :
    load source Library.standard = link source (standard source.package) := by
  have hload : load source Library.standard =
      insertNatives Library.standard { package := source.package } >>= link source := rfl
  rw [hload, insertNatives_standard]
  rfl

/-- What a source loads to with the standard library, for evaluation. -/
theorem loadsTo_standard (source : Source) (test : Program → Bool) :
    loadsTo source Library.standard test =
      (link source (standard source.package)).toOption.any test := by
  rw [loadsTo, load_standard]
  cases link source (standard source.package) <;> rfl

end Program

end FrameScript
