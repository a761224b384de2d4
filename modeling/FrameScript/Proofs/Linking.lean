import FrameScript.Engine
import FrameScript.Proofs.Documents
import FrameScript.Proofs.Standard

set_option autoImplicit false

/-!
# Which sources load, and to what

Loading adds the native units and the declarations of a source to a program one by one, each under a
name that has to be new, and lays out the functions on the way. So a source loads exactly if all
names are distinct, all functions can be laid out, and the sizes their authors counted are those of
the layouts; and the program is then made of just these declarations. Where they stand in the source
does not matter.

## Main definitions

* `FunctionDecl.Fits` — a declaration that can be laid out and whose counted sizes are right.
* `Additions`, `Program.Adds` — declarations, and a program with these declarations added.
* `Source.Loadable`, `Source.linked` — a source whose parts fit together, and the program of them.
* `Source.Reordered` — a source with its declarations in another order.

## Main results

* `Program.foldlM_adds` — steps that add something each add everything together.
* `Program.load_eq_ok_iff` — the sources that load, and the programs they load to.
* `Program.load_exact` — what such a program provides, and under which names.
* `Program.load_reordered` — reordered sources load to the same program.
-/

namespace FrameScript

/-! ## Dictionaries -/

namespace Dict

variable {α : Type}

theorem contains_eq_true_iff {key : String} {d : Dict α} :
    contains key d = true ↔ key ∈ d.map (·.1) := by
  induction d with
  | nil => simp [contains, find?]
  | cons entry d ih =>
    obtain ⟨k, v⟩ := entry
    simp only [contains, find?, List.map_cons, List.mem_cons] at ih ⊢
    split
    next heq => simp [eq_of_beq heq]
    next hne =>
      have hne : key ≠ k := fun heq => hne (by simp [heq])
      simp [ih, hne]

theorem mem_keys_insert {key other : String} {value : α} {d : Dict α} :
    other ∈ (insert key value d).map (·.1) ↔ other = key ∨ other ∈ d.map (·.1) := by
  rw [← contains_eq_true_iff, contains, find?_insert, ← contains_eq_true_iff, contains]
  split
  next heq => simp [eq_of_beq heq]
  next hne =>
    have hne : other ≠ key := fun heq => hne (by simp [heq])
    simp [hne]

/-- Entries are all added exactly if their keys are distinct and new. -/
theorem addNew_eq_some_iff {entries : List (String × α)} {d d' : Dict α} :
    addNew entries d = some d' ↔
      (entries.map (·.1)).Nodup ∧ (∀ key ∈ entries.map (·.1), key ∉ d.map (·.1)) ∧
        entries.foldl (fun d (key, value) => insert key value d) d = d' := by
  induction entries generalizing d with
  | nil => simp [addNew]
  | cons entry entries ih =>
    obtain ⟨key, value⟩ := entry
    simp only [addNew, List.map_cons, List.nodup_cons, List.forall_mem_cons, List.foldl_cons]
    split
    next hold =>
      have hold := contains_eq_true_iff.mp hold
      simp [hold]
    next hnew =>
      have hnew : key ∉ d.map (·.1) := fun hmem => hnew (contains_eq_true_iff.mpr hmem)
      rw [ih]
      simp only [mem_keys_insert, not_or]
      constructor
      · rintro ⟨hnodup, hfresh, hd⟩
        exact ⟨⟨fun hmem => (hfresh key hmem).1 rfl, hnodup⟩,
          ⟨hnew, fun k hk => (hfresh k hk).2⟩, hd⟩
      · rintro ⟨⟨hkey, hnodup⟩, ⟨-, hfresh⟩, hd⟩
        exact ⟨hnodup, fun k hk => ⟨fun heq => hkey (heq ▸ hk), hfresh k hk⟩, hd⟩

/-- Entries with distinct keys make a dictionary, and no others. -/
theorem addNew_nil_iff {entries : List (String × α)} {d : Dict α} :
    addNew entries [] = some d ↔ (entries.map (·.1)).Nodup ∧ ofList entries = d := by
  simp [addNew_eq_some_iff, ofList]

/-- One entry with a new key is inserted. -/
theorem addNew_singleton {key : String} {value : α} {d : Dict α} (hnew : ¬ contains key d = true) :
    addNew [(key, value)] d = some (insert key value d) :=
  if_neg hnew

theorem eq_insert_of_addNew {key : String} {value : α} {d d' : Dict α}
    (h : addNew [(key, value)] d = some d') :
    ¬ contains key d = true ∧ insert key value d = d' := by
  unfold addNew at h
  split at h
  · cases h
  next hnew =>
    cases h
    exact ⟨hnew, rfl⟩

/-- The dictionary of distinct keys does not depend on the order of the entries. -/
theorem ofList_eq_of_perm {entries entries' : List (String × α)}
    (hkeys : (entries.map (·.1)).Nodup) (hperm : entries.Perm entries') :
    ofList entries = ofList entries' := by
  have hkeys' := (hperm.map (·.1)).nodup_iff.mp hkeys
  refine List.Perm.eq_of_pairwise (fun e e' _ _ hlt hgt => ?_) (pairwise_ofList entries)
    (pairwise_ofList entries') ((perm_ofList hkeys).trans (hperm.trans (perm_ofList hkeys').symm))
  exact absurd hgt (String.lt_asymm hlt)

/-- With distinct keys every entry is found. -/
theorem find?_of_mem {key : String} {value : α} {d : Dict α} (hkeys : (d.map (·.1)).Nodup)
    (h : (key, value) ∈ d) : find? key d = some value := by
  induction d with
  | nil => cases h
  | cons entry d ih =>
    obtain ⟨k, v⟩ := entry
    rw [List.map_cons, List.nodup_cons] at hkeys
    simp only [find?]
    rcases List.mem_cons.mp h with heq | hmem
    · cases heq
      simp
    · have hmemKeys : key ∈ d.map (·.1) := List.mem_map_of_mem (f := (·.1)) hmem
      have hne : k ≠ key := fun heq => hkeys.1 (heq ▸ hmemKeys)
      rw [if_neg (by simpa using hne)]
      exact ih hkeys.2 hmem

end Dict

/-! ## Functions -/

/-- The declaration can be laid out, to the given layout and body, and the sizes its author counted
are those of the layout; temporary slots that are counted as none are not counted. -/
structure FunctionDecl.Fits (decl : FunctionDecl) (layout : Layout) (body : List Stmt) : Prop where
  laidOut : layOut decl.params decl.body = .ok (layout, body)
  stackSize : ∀ n, decl.stackSize? = some n → n = layout.slots.length
  tempSize : ∀ n, decl.tempSize? = some n → n ≠ 0 → n = layout.temps

/-- The function that a declaration makes if it fits. -/
def FunctionDecl.function (package : String) (decl : FunctionDecl) : Function where
  sig := decl.signature package
  body := layoutBlock (Scope.ofParams decl.params) decl.body
  layout := layoutOf decl.params decl.body
  stackSize := some (layoutOf decl.params decl.body).slots.length
  tempSize := some (layoutOf decl.params decl.body).temps

/-- A declaration that fits also fits the function it makes. -/
theorem FunctionDecl.Fits.function {package : String} {decl : FunctionDecl} {layout : Layout}
    {body : List Stmt} (h : decl.Fits layout body) :
    decl.Fits (decl.function package).layout (decl.function package).body := by
  have hlaid := h.laidOut
  unfold layOut at hlaid
  split at hlaid
  · cases hlaid
    exact h
  · cases hlaid

theorem FunctionDecl.shape_function (package : String) (decl : FunctionDecl) :
    (Callable.function (decl.function package)).shape =
      .ok ((decl.function package).layout.slots, (decl.function package).layout.temps) := by
  simp [Callable.shape, function]

/-- A declaration makes a function exactly if it fits, and then this one. -/
theorem FunctionDecl.build_eq_ok_iff {package : String} {decl : FunctionDecl} {f : Function} :
    decl.build package = .ok f ↔ (∃ layout body, decl.Fits layout body) ∧
      f = decl.function package := by
  constructor
  · intro h
    obtain ⟨hnames, rfl⟩ := Function.eq_of_build h
    refine ⟨⟨layoutOf decl.params decl.body,
      layoutBlock (Scope.ofParams decl.params) decl.body, ?_⟩, rfl⟩
    have hlayout : layOut decl.params decl.body = .ok (layoutOf decl.params decl.body,
        layoutBlock (Scope.ofParams decl.params) decl.body) := by
      rw [layOut, hnames]
    unfold FunctionDecl.build at h
    rw [hlayout] at h
    dsimp only at h
    split at h
    next f hsizes =>
      obtain ⟨stackSize, hstack, hsizes⟩ := bind_eq_ok.mp hsizes
      obtain ⟨tempSize, htemp, -⟩ := bind_eq_ok.mp hsizes
      exact ⟨hlayout, ((recordSizes_setOnce _).mp hstack).1, ((recordSizes_setTemp _).mp htemp).1⟩
    · cases h
  · rintro ⟨⟨layout, body, hfits⟩, rfl⟩
    have hlayout := hfits.laidOut
    unfold layOut at hlayout
    split at hlayout
    · cases hlayout
      have hstack := (recordSizes_setOnce (decl.signature package).qualifiedName).mpr
        ⟨hfits.stackSize, rfl⟩
      have htemp := (recordSizes_setTemp (decl.signature package).qualifiedName).mpr
        ⟨hfits.tempSize, rfl⟩
      unfold FunctionDecl.build
      rw [hfits.laidOut]
      simp only [hstack, htemp]
      rfl
    · cases hlayout

/-- What is found wrong with the names of a declaration is never nothing. -/
theorem FunctionDecl.ne_nil_of_build {package : String} {decl : FunctionDecl}
    {found : List SemanticError} (h : decl.build package = .error (.semantic found)) :
    found ≠ [] := by
  unfold build layOut at h
  split at h
  next errors hlayout =>
    split at hlayout
    · cases hlayout
    next hne =>
      cases hlayout
      cases h
      simpa using hne
  · dsimp only at h
    split at h <;> cases h

/-! ## Additions -/

/-- Declarations that are added to a program. -/
structure Additions where
  /-- Callables under their qualified names. -/
  units : List (String × Callable) := []
  /-- Struct types under their names. -/
  structs : List (String × StructDecl) := []
  /-- The parameters of connectors under the names of these. -/
  connectors : List (String × List Param) := []

namespace Additions

instance : Append Additions where
  append first second :=
    ⟨first.units ++ second.units, first.structs ++ second.structs,
      first.connectors ++ second.connectors⟩

theorem append_def (first second : Additions) :
    first ++ second = ⟨first.units ++ second.units, first.structs ++ second.structs,
      first.connectors ++ second.connectors⟩ :=
  rfl

/-- The additions of all items of a list. -/
def ofAll {α : Type} (new : α → Additions) (items : List α) : Additions where
  units := items.flatMap fun a => (new a).units
  structs := items.flatMap fun a => (new a).structs
  connectors := items.flatMap fun a => (new a).connectors

/-- A callable under its qualified name. -/
def ofUnit (unit : Callable) : Additions where
  units := [(unit.sig.qualifiedName, unit)]

/-- A struct type under its name. -/
def ofStruct (decl : StructDecl) : Additions where
  structs := [(decl.name, decl)]

/-- The function of a declaration in a package. -/
def ofFunction (package : String) (decl : FunctionDecl) : Additions :=
  ofUnit (.function (decl.function package))

/-- The functions of declarations in a package under their qualified names. -/
def functionUnits (package : String) (decls : List FunctionDecl) : List (String × Callable) :=
  decls.map fun decl =>
    ((decl.signature package).qualifiedName, .function (decl.function package))

/-- The native units of a registry under their qualified names. -/
def nativeUnits (natives : Registry) : List (String × Callable) :=
  natives.units.map fun (_, unit) => (unit.sig.qualifiedName, .native unit)

/-- A connector with its actions. -/
def ofConnector (package : String) (conn : ConnectorDecl) : Additions where
  units := functionUnits package (conn.actions.map conn.actionDecl)
  connectors := [(conn.name, conn.params)]

/-- The native units of a registry and the declarations of a source, in the order in which they are
added. -/
def ofSource (natives : Registry) (source : Source) : Additions :=
  ofAll (fun entry => ofUnit (.native entry.2)) natives.units ++ ofAll ofStruct source.structs ++
    ofAll (ofConnector source.package) source.connectors ++
    ofAll (ofFunction source.package) source.functions

theorem ofAll_cons {α : Type} {new : α → Additions} {a : α} {items : List α} :
    ofAll new (a :: items) = new a ++ ofAll new items :=
  rfl

theorem ofAll_ofFunction {package : String} {decls : List FunctionDecl} :
    ofAll (ofFunction package) decls = { units := functionUnits package decls } := by
  simp [ofAll, ofFunction, ofUnit, functionUnits, Callable.sig, FunctionDecl.function,
    List.map_eq_flatMap]

/-- All that is added for a source. -/
theorem ofSource_eq {natives : Registry} {source : Source} :
    ofSource natives source =
      { units := nativeUnits natives ++ functionUnits source.package source.declarations
        structs := source.structs.map fun decl => (decl.name, decl)
        connectors := source.connectors.map fun conn => (conn.name, conn.params) } := by
  have hnatives : ofAll (fun entry => ofUnit (.native entry.2)) natives.units =
      { units := nativeUnits natives } := by
    simp [ofAll, ofUnit, nativeUnits, Callable.sig, List.map_eq_flatMap]
  have hstructs : ofAll ofStruct source.structs =
      { structs := source.structs.map fun decl => (decl.name, decl) } := by
    simp [ofAll, ofStruct, List.map_eq_flatMap]
  have hconnectors : ofAll (ofConnector source.package) source.connectors =
      { units := functionUnits source.package
          (source.connectors.flatMap fun conn => conn.actions.map conn.actionDecl)
        connectors := source.connectors.map fun conn => (conn.name, conn.params) } := by
    simp [ofAll, ofConnector, functionUnits, List.map_eq_flatMap, List.flatMap_assoc]
  rw [ofSource, hnatives, hstructs, hconnectors, ofAll_ofFunction, Source.declarations]
  simp [append_def, functionUnits]

end Additions

namespace Program

/-- The second program is the first one with additions, all of which have new names. -/
structure Adds (p : Program) (new : Additions) (q : Program) : Prop where
  package : q.package = p.package
  units : Dict.addNew new.units p.units = some q.units
  structs : Dict.addNew new.structs p.structs = some q.structs
  connectors : Dict.addNew new.connectors p.connectors = some q.connectors

variable {α : Type} {p q r : Program}

/-- A program with additions is the only one. -/
theorem Adds.unique {new : Additions} (hq : p.Adds new q) (hr : p.Adds new r) : q = r := by
  have hunits := Option.some.inj (hq.units.symm.trans hr.units)
  have hstructs := Option.some.inj (hq.structs.symm.trans hr.structs)
  have hconnectors := Option.some.inj (hq.connectors.symm.trans hr.connectors)
  have hpackage := hq.package.trans hr.package.symm
  cases q
  cases r
  cases hunits
  cases hstructs
  cases hconnectors
  cases hpackage
  rfl

/-- Nothing is added by no items. -/
theorem adds_nil_iff {new : α → Additions} : p.Adds (.ofAll new []) q ↔ q = p := by
  have hself : p.Adds (.ofAll new []) p := ⟨rfl, rfl, rfl, rfl⟩
  exact ⟨fun hadds => hadds.unique hself, fun heq => heq ▸ hself⟩

/-- Additions are added one after the other. -/
theorem adds_append_iff {first second : Additions} :
    p.Adds (first ++ second) r ↔ ∃ q, p.Adds first q ∧ q.Adds second r := by
  constructor
  · rintro ⟨hpackage, hunits, hstructs, hconnectors⟩
    obtain ⟨units, hunits, hunits'⟩ := Dict.addNew_append.mp hunits
    obtain ⟨structs, hstructs, hstructs'⟩ := Dict.addNew_append.mp hstructs
    obtain ⟨connectors, hconnectors, hconnectors'⟩ := Dict.addNew_append.mp hconnectors
    exact ⟨⟨p.package, structs, connectors, units⟩, ⟨rfl, hunits, hstructs, hconnectors⟩,
      ⟨hpackage, hunits', hstructs', hconnectors'⟩⟩
  · rintro ⟨q, hp, hq⟩
    exact ⟨hq.package.trans hp.package, Dict.addNew_append.mpr ⟨_, hp.units, hq.units⟩,
      Dict.addNew_append.mpr ⟨_, hp.structs, hq.structs⟩,
      Dict.addNew_append.mpr ⟨_, hp.connectors, hq.connectors⟩⟩

/-- If each step of a fold adds something, the fold adds everything. -/
theorem foldlM_adds {step : Program → α → Except LoadError Program} (package : String)
    (Good : α → Prop) {new : α → Additions}
    (hstep : ∀ p a q, p.package = package → (step p a = .ok q ↔ Good a ∧ p.Adds (new a) q))
    {items : List α} (hp : p.package = package) :
    items.foldlM step p = .ok q ↔ (∀ a ∈ items, Good a) ∧ p.Adds (.ofAll new items) q := by
  induction items generalizing p with
  | nil =>
    rw [List.foldlM_nil, adds_nil_iff]
    change Except.ok p = .ok q ↔ _
    simp [eq_comm]
  | cons a items ih =>
    rw [List.foldlM_cons, bind_eq_ok, Additions.ofAll_cons, adds_append_iff, List.forall_mem_cons]
    constructor
    · rintro ⟨q', hfirst, hrest⟩
      obtain ⟨hgood, hadds⟩ := (hstep p a q' hp).mp hfirst
      obtain ⟨hgoods, hadds'⟩ := (ih (hadds.package.trans hp)).mp hrest
      exact ⟨⟨hgood, hgoods⟩, q', hadds, hadds'⟩
    · rintro ⟨⟨hgood, hgoods⟩, q', hadds, hadds'⟩
      exact ⟨q', (hstep p a q' hp).mpr ⟨hgood, hadds⟩,
        (ih (hadds.package.trans hp)).mpr ⟨hgoods, hadds'⟩⟩

/-! ## Steps of loading -/

theorem insertUnit_eq_ok_iff {unit : Callable} :
    p.insertUnit unit = .ok q ↔ p.Adds (.ofUnit unit) q := by
  constructor
  · intro h
    unfold insertUnit at h
    dsimp only at h
    split at h
    · cases h
    next hnew =>
      cases h
      exact ⟨rfl, Dict.addNew_singleton hnew, rfl, rfl⟩
  · intro hadds
    obtain ⟨hnew, -⟩ := Dict.eq_insert_of_addNew hadds.units
    have hinserted : p.Adds (.ofUnit unit) { p with
        units := Dict.insert unit.sig.qualifiedName unit p.units } :=
      ⟨rfl, Dict.addNew_singleton hnew, rfl, rfl⟩
    rw [hadds.unique hinserted]
    exact if_neg hnew

theorem insertStruct_eq_ok_iff {decl : StructDecl} :
    p.insertStruct decl = .ok q ↔ p.Adds (.ofStruct decl) q := by
  constructor
  · intro h
    unfold insertStruct at h
    split at h
    · cases h
    next hnew =>
      cases h
      exact ⟨rfl, rfl, Dict.addNew_singleton hnew, rfl⟩
  · intro hadds
    obtain ⟨hnew, -⟩ := Dict.eq_insert_of_addNew hadds.structs
    have hinserted : p.Adds (.ofStruct decl) { p with
        structs := Dict.insert decl.name decl p.structs } :=
      ⟨rfl, rfl, Dict.addNew_singleton hnew, rfl⟩
    rw [hadds.unique hinserted]
    exact if_neg hnew

/-! ## Steps that collect errors -/

/-- A step that may find errors, as one that must not. -/
def cleanly (step : Program × List SemanticError → α →
    Except LoadError (Program × List SemanticError)) (p : Program) (a : α) :
    Except LoadError Program :=
  match step (p, []) a with
  | .ok (q, []) => .ok q
  | .ok (_, errors) => .error (.semantic errors)
  | .error e => .error e

theorem cleanly_eq_ok_iff {step : Program × List SemanticError → α →
    Except LoadError (Program × List SemanticError)} {a : α} :
    cleanly step p a = .ok q ↔ step (p, []) a = .ok (q, []) := by
  unfold cleanly
  split <;> simp_all

/-- If errors that were found stay, a fold finds none exactly if no step does. -/
theorem foldlM_cleanly {step : Program × List SemanticError → α →
    Except LoadError (Program × List SemanticError)}
    (hstays : ∀ s a t, step s a = .ok t → t.2 = [] → s.2 = []) {items : List α} :
    items.foldlM step (p, []) = .ok (q, []) ↔ items.foldlM (cleanly step) p = .ok q := by
  induction items generalizing p with
  | nil =>
    change Except.ok (p, []) = .ok (q, []) ↔ Except.ok p = .ok q
    simp
  | cons a items ih =>
    rw [List.foldlM_cons, List.foldlM_cons, bind_eq_ok, bind_eq_ok]
    constructor
    · rintro ⟨⟨q', errors⟩, hfirst, hrest⟩
      have hclean : errors = [] := foldlM_induction (fun s => s.2 = [] → errors = [])
        (fun s a _ t hs hstep ht => hs (hstays s a t hstep ht)) id hrest rfl
      subst hclean
      exact ⟨q', cleanly_eq_ok_iff.mpr hfirst, ih.mp hrest⟩
    · rintro ⟨q', hfirst, hrest⟩
      exact ⟨(q', []), cleanly_eq_ok_iff.mp hfirst, ih.mpr hrest⟩

theorem insertFunction_stays {s t : Program × List SemanticError} {decl : FunctionDecl}
    (h : insertFunction s decl = .ok t) (ht : t.2 = []) : s.2 = [] := by
  obtain ⟨p, errors⟩ := s
  unfold insertFunction at h
  dsimp only at h
  split at h
  next f _ =>
    rcases hq : p.insertUnit (.function f) with e | q <;> rw [hq] at h <;> cases h
    exact ht
  · cases h
    exact (List.append_eq_nil_iff.mp ht).1
  · cases h

/-- A function is added without an error exactly if it fits and its name is new. -/
theorem insertFunction_eq_ok_iff {decl : FunctionDecl} :
    cleanly insertFunction p decl = .ok q ↔
      (∃ layout body, decl.Fits layout body) ∧ p.Adds (.ofFunction p.package decl) q := by
  rw [cleanly_eq_ok_iff]
  unfold insertFunction
  dsimp only
  constructor
  · intro h
    split at h
    next f hf =>
      obtain ⟨hfits, rfl⟩ := FunctionDecl.build_eq_ok_iff.mp hf
      refine ⟨hfits, insertUnit_eq_ok_iff.mp ?_⟩
      rcases hq : p.insertUnit (.function (decl.function p.package)) with e | q' <;>
        rw [hq] at h <;> cases h
      rfl
    next found hf =>
      cases h
      exact absurd rfl (FunctionDecl.ne_nil_of_build hf)
    · cases h
  · rintro ⟨hfits, hadds⟩
    have hf : decl.build p.package = .ok (decl.function p.package) :=
      FunctionDecl.build_eq_ok_iff.mpr ⟨hfits, rfl⟩
    rw [hf]
    dsimp only
    rw [insertUnit_eq_ok_iff.mpr hadds]
    rfl

theorem insertConnector_stays {s t : Program × List SemanticError} {conn : ConnectorDecl}
    (h : insertConnector s conn = .ok t) (ht : t.2 = []) : s.2 = [] := by
  unfold insertConnector at h
  split at h
  · cases h
  · obtain ⟨s', hfold, h⟩ := bind_eq_ok.mp h
    cases h
    exact foldlM_induction (fun s' => s'.2 = [] → s.2 = [])
      (fun _ _ _ _ hs hstep ht => hs (insertFunction_stays hstep ht)) id hfold ht

/-- A connector is added without an error exactly if its actions are, and its name is new. -/
theorem insertConnector_eq_ok_iff {conn : ConnectorDecl} :
    cleanly insertConnector p conn = .ok q ↔
      (∀ action ∈ conn.actions, ∃ layout body, (conn.actionDecl action).Fits layout body) ∧
        p.Adds (.ofConnector p.package conn) q := by
  let units := Additions.functionUnits p.package (conn.actions.map conn.actionDecl)
  have hactions {q : Program} :
      (conn.actions.map conn.actionDecl).foldlM insertFunction (p, []) = .ok (q, []) ↔
        (∀ action ∈ conn.actions, ∃ layout body, (conn.actionDecl action).Fits layout body) ∧
          p.Adds { units := units } q := by
    rw [← Additions.ofAll_ofFunction, foldlM_cleanly fun _ _ _ => insertFunction_stays,
      foldlM_adds p.package _ (fun _ _ _ hp => hp ▸ insertFunction_eq_ok_iff) rfl,
      List.forall_mem_map]
  rw [cleanly_eq_ok_iff]
  unfold insertConnector
  constructor
  · intro h
    split at h
    · cases h
    next hnew =>
      obtain ⟨⟨q', errors⟩, hfold, h⟩ := bind_eq_ok.mp h
      cases h
      obtain ⟨hgood, hadds⟩ := hactions.mp hfold
      have hconnectors : p.connectors = q'.connectors := Option.some.inj hadds.connectors
      refine ⟨hgood, hadds.package, hadds.units, hadds.structs, ?_⟩
      rw [← hconnectors]
      exact Dict.addNew_singleton hnew
  · rintro ⟨hgood, hpackage, hunits, hstructs, hconnectors⟩
    obtain ⟨hnew, hconnectors⟩ := Dict.eq_insert_of_addNew hconnectors
    have hfold := hactions (q := { q with connectors := p.connectors }) |>.mpr
      ⟨hgood, hpackage, hunits, hstructs, rfl⟩
    rw [if_neg hnew]
    refine bind_eq_ok.mpr ⟨_, hfold, ?_⟩
    dsimp only
    rw [hconnectors]
    rfl

/-! ## Loading -/

variable {source : Source} {natives : Registry}

theorem insertNatives_eq_ok_iff :
    insertNatives natives p = .ok q ↔
      p.Adds (.ofAll (fun entry => .ofUnit (.native entry.2)) natives.units) q := by
  rw [insertNatives, foldlM_adds p.package (fun _ => True)
    (fun p entry q _ => by rw [insertUnit_eq_ok_iff, true_and]) rfl]
  simp

theorem foldlM_insertStruct_iff :
    source.structs.foldlM insertStruct p = .ok q ↔ p.Adds (.ofAll .ofStruct source.structs) q := by
  rw [foldlM_adds p.package (fun _ => True)
    (fun p decl q _ => by rw [insertStruct_eq_ok_iff, true_and]) rfl]
  simp

/-- A source loads exactly if its functions fit and its names are new as they come, and then to its
declarations and the native units. -/
theorem load_adds_iff :
    load source natives = .ok q ↔
      (∀ decl ∈ source.declarations, ∃ layout body, decl.Fits layout body) ∧
        ({ package := source.package } : Program).Adds (.ofSource natives source) q := by
  have hconnectors {p q : Program} (hp : p.package = source.package) :
      source.connectors.foldlM insertConnector (p, []) = .ok (q, []) ↔
        (∀ conn ∈ source.connectors, ∀ action ∈ conn.actions,
          ∃ layout body, (conn.actionDecl action).Fits layout body) ∧
        p.Adds (.ofAll (.ofConnector source.package) source.connectors) q := by
    rw [foldlM_cleanly fun _ _ _ => insertConnector_stays,
      foldlM_adds _ _ (fun _ _ _ hp => hp ▸ insertConnector_eq_ok_iff) hp]
  have hfunctions {p q : Program} (hp : p.package = source.package) :
      source.functions.foldlM insertFunction (p, []) = .ok (q, []) ↔
        (∀ decl ∈ source.functions, ∃ layout body, decl.Fits layout body) ∧
        p.Adds (.ofAll (.ofFunction source.package) source.functions) q := by
    rw [foldlM_cleanly fun _ _ _ => insertFunction_stays,
      foldlM_adds _ _ (fun _ _ _ hp => hp ▸ insertFunction_eq_ok_iff) hp]
  simp only [Additions.ofSource, adds_append_iff, Source.declarations, List.forall_mem_append,
    List.forall_mem_flatMap, List.forall_mem_map]
  constructor
  · intro h
    obtain ⟨p₁, h₁, h⟩ := bind_eq_ok.mp h
    obtain ⟨p₂, h₂, h⟩ := bind_eq_ok.mp h
    obtain ⟨⟨p₃, errors⟩, h₃, h⟩ := bind_eq_ok.mp h
    obtain ⟨⟨p₄, errors'⟩, h₄, h⟩ := bind_eq_ok.mp h
    dsimp only at h
    split at h
    next hclean =>
      cases h
      obtain rfl : errors' = [] := List.isEmpty_iff.mp hclean
      -- functions are added to what the connectors left, so these found no errors either
      obtain rfl : errors = [] := foldlM_induction (fun s => s.2 = [] → errors = [])
        (fun _ _ _ _ hs hstep ht => hs (insertFunction_stays hstep ht)) id h₄ rfl
      have hadds₁ := insertNatives_eq_ok_iff.mp h₁
      have hadds₂ := foldlM_insertStruct_iff.mp h₂
      have hpackage₂ := hadds₂.package.trans hadds₁.package
      obtain ⟨hgood₃, hadds₃⟩ := (hconnectors hpackage₂).mp h₃
      obtain ⟨hgood₄, hadds₄⟩ := (hfunctions (hadds₃.package.trans hpackage₂)).mp h₄
      exact ⟨⟨hgood₃, hgood₄⟩, p₃, ⟨p₂, ⟨p₁, hadds₁, hadds₂⟩, hadds₃⟩, hadds₄⟩
    · cases h
  · rintro ⟨⟨hgood₃, hgood₄⟩, p₃, ⟨p₂, ⟨p₁, hadds₁, hadds₂⟩, hadds₃⟩, hadds₄⟩
    have hpackage₂ := hadds₂.package.trans hadds₁.package
    have h₃ := (hconnectors hpackage₂).mpr ⟨hgood₃, hadds₃⟩
    have h₄ := (hfunctions (hadds₃.package.trans hpackage₂)).mpr ⟨hgood₄, hadds₄⟩
    refine bind_eq_ok.mpr ⟨p₁, insertNatives_eq_ok_iff.mpr hadds₁, ?_⟩
    refine bind_eq_ok.mpr ⟨p₂, foldlM_insertStruct_iff.mpr hadds₂, ?_⟩
    refine bind_eq_ok.mpr ⟨_, h₃, ?_⟩
    exact bind_eq_ok.mpr ⟨_, h₄, rfl⟩

end Program

/-- A source whose parts fit together with each other and with the native units of a registry. -/
structure Source.Loadable (natives : Registry) (source : Source) : Prop where
  names : (natives.units.map (·.2.sig.qualifiedName) ++
    source.declarations.map fun decl => (decl.signature source.package).qualifiedName).Nodup
  structs : (source.structs.map (·.name)).Nodup
  connectors : (source.connectors.map (·.name)).Nodup
  fits : ∀ decl ∈ source.declarations, ∃ layout body, decl.Fits layout body

/-- The names of everything callable. -/
theorem Source.keys_units {natives : Registry} {source : Source} :
    (Additions.nativeUnits natives ++
      Additions.functionUnits source.package source.declarations).map (·.1) =
      natives.units.map (·.2.sig.qualifiedName) ++
        source.declarations.map fun decl => (decl.signature source.package).qualifiedName := by
  simp [Additions.nativeUnits, Additions.functionUnits, Function.comp_def]

/-- The program of the declarations of a source and of the native units of a registry. -/
def Source.linked (natives : Registry) (source : Source) : Program where
  package := source.package
  structs := .ofList (source.structs.map fun decl => (decl.name, decl))
  connectors := .ofList (source.connectors.map fun conn => (conn.name, conn.params))
  units := .ofList (Additions.nativeUnits natives ++
    Additions.functionUnits source.package source.declarations)

namespace Program

variable {p : Program} {source : Source} {natives : Registry}

/-- The program of parts that fit together has just these parts. -/
theorem adds_linked (h : source.Loadable natives) :
    ({ package := source.package } : Program).Adds (.ofSource natives source)
      (source.linked natives) := by
  rw [Additions.ofSource_eq]
  refine ⟨rfl, ?_, ?_, ?_⟩
  · exact Dict.addNew_nil_iff.mpr ⟨Source.keys_units ▸ h.names, rfl⟩
  · exact Dict.addNew_nil_iff.mpr ⟨by rw [List.map_map]; exact h.structs, rfl⟩
  · exact Dict.addNew_nil_iff.mpr ⟨by rw [List.map_map]; exact h.connectors, rfl⟩

/-- **Which sources load**: those whose parts fit together, to the program of these parts. -/
theorem load_eq_ok_iff :
    load source natives = .ok p ↔ source.Loadable natives ∧ p = source.linked natives := by
  rw [load_adds_iff]
  constructor
  · rintro ⟨hfits, hadds⟩
    have hparts := hadds
    rw [Additions.ofSource_eq] at hparts
    obtain ⟨hnames, -⟩ := Dict.addNew_nil_iff.mp hparts.units
    obtain ⟨hstructs, -⟩ := Dict.addNew_nil_iff.mp hparts.structs
    obtain ⟨hconnectors, -⟩ := Dict.addNew_nil_iff.mp hparts.connectors
    rw [Source.keys_units] at hnames
    rw [List.map_map] at hstructs hconnectors
    have hloadable : source.Loadable natives := ⟨hnames, hstructs, hconnectors, hfits⟩
    exact ⟨hloadable, hadds.unique (adds_linked hloadable)⟩
  · rintro ⟨hloadable, rfl⟩
    exact ⟨hloadable.fits, adds_linked hloadable⟩

/-- Everything is stored under its qualified name. -/
theorem key_of_mem_units {key : String} {unit : Callable}
    (h : (key, unit) ∈ Additions.nativeUnits natives ++
      Additions.functionUnits source.package source.declarations) :
    key = unit.sig.qualifiedName := by
  rcases List.mem_append.mp h with hnative | hfunction
  · obtain ⟨_, _, heq⟩ := List.mem_map.mp hnative
    cases heq
    rfl
  · obtain ⟨_, _, heq⟩ := List.mem_map.mp hfunction
    cases heq
    rfl

/-- A bare name that nothing is stored under means what is stored under it in the package. -/
theorem find?_of_bare {name : String} {unit : Callable} (hpackage : p.package ≠ "")
    (hbare : ':' ∉ name.toList) (hfree : name ∉ p.callables.map (·.1))
    (hstored : Dict.find? (qualify p.package name) p.units = some unit) :
    p.find? name = some unit := by
  have hnone : Dict.find? name p.units = none := by
    rw [← Option.not_isSome_iff_eq_none]
    exact fun hsome => hfree (Dict.contains_eq_true_iff.mp hsome)
  have hinside : ¬ (p.package.isEmpty || name.toList.contains ':') = true := by
    rw [Bool.or_eq_true, List.contains_iff_mem]
    exact not_or.mpr ⟨by simpa using hpackage, hbare⟩
  rw [qualify, if_neg (by simpa using hpackage)] at hstored
  rw [find?, hnone]
  dsimp only
  rw [if_neg hinside, hstored]

/-- **Loading is exact**: a source loads exactly if its parts fit together. The program then lists,
in ascending order of the qualified names, the native units and one laid out function for each
declaration, and names mean what they are the qualified names of, or else the bare names of inside
the package. -/
theorem load_exact (source : Source) (natives : Registry) :
    ((∃ p, load source natives = .ok p) ↔ source.Loadable natives) ∧
    ∀ p, load source natives = .ok p →
      p.callables.Pairwise (·.1 < ·.1) ∧
      (∃ functions : List Function,
        List.Forall₂ (fun decl f => f.sig = decl.signature source.package ∧
          decl.Fits f.layout f.body ∧
          (Callable.function f).shape = .ok (f.layout.slots, f.layout.temps))
          source.declarations functions ∧
        p.callables.Perm
          ((natives.units.map fun entry => (entry.2.sig.qualifiedName, .native entry.2)) ++
            functions.map fun f => (f.sig.qualifiedName, .function f))) ∧
      ∀ unit ∈ p.callables.map (·.2),
        p.find? unit.sig.qualifiedName = some unit ∧
        (source.package ≠ "" → unit.sig.package = source.package → ':' ∉ unit.sig.name.toList →
          unit.sig.name ∉ p.callables.map (·.1) → p.find? unit.sig.name = some unit) := by
  refine ⟨⟨fun ⟨p, hload⟩ => (load_eq_ok_iff.mp hload).1,
    fun hloadable => ⟨_, load_eq_ok_iff.mpr ⟨hloadable, rfl⟩⟩⟩, fun p hload => ?_⟩
  obtain ⟨hloadable, rfl⟩ := load_eq_ok_iff.mp hload
  have hsorted : (source.linked natives).callables.Pairwise (·.1 < ·.1) := Dict.pairwise_ofList _
  have hperm : (source.linked natives).callables.Perm (Additions.nativeUnits natives ++
      Additions.functionUnits source.package source.declarations) :=
    Dict.perm_ofList (Source.keys_units ▸ hloadable.names)
  have hkeys : ((source.linked natives).callables.map (·.1)).Nodup :=
    List.pairwise_map.mpr (hsorted.imp String.ne_of_lt)
  refine ⟨hsorted, ⟨source.declarations.map (·.function source.package), ?_, ?_⟩,
    fun unit hunit => ?_⟩
  · refine List.forall₂_map_right_iff.mpr (List.forall₂_same.mpr fun decl hdecl => ?_)
    obtain ⟨layout, body, hfits⟩ := hloadable.fits decl hdecl
    exact ⟨rfl, hfits.function, decl.shape_function _⟩
  · rw [List.map_map]
    exact hperm
  · obtain ⟨⟨key, unit⟩, hmem, rfl⟩ := List.mem_map.mp hunit
    obtain rfl := key_of_mem_units (hperm.mem_iff.mp hmem)
    have hstored : Dict.find? unit.sig.qualifiedName (source.linked natives).units = some unit :=
      Dict.find?_of_mem hkeys hmem
    refine ⟨by simp [find?, hstored], fun hpackage hown hbare hfree => ?_⟩
    rw [Signature.qualifiedName, hown] at hstored
    exact find?_of_bare hpackage hbare hfree hstored

/-- A connector with actions that call functions which are added after them. The temporary slots of
the first action are counted as none. -/
def counterSource : Source where
  package := "demo"
  connectors := [
    { name := "counter"
      params := [⟨"start", .int⟩]
      actions := [
        { name := "next"
          params := [⟨"step", .int⟩]
          returns := [.int]
          body := [.result [
            .call "sum" [.field (.var ⟨"self", none⟩) "start", .var ⟨"step", none⟩] 0]]
          stackSize? := some 2
          tempSize? := some 0 },
        { name := "first"
          returns := [.int]
          body := [.result [.action (.var ⟨"self", none⟩) "next" [.int 1] 0]] }] },
    { name := "clock", params := [], actions := [] }]
  functions := [
    { name := "main"
      params := [⟨"start", .int⟩]
      returns := [.int]
      body := [.result [.action (.connector "counter" [.var ⟨"start", none⟩]) "first" [] 0]] },
    { name := "sum"
      params := [⟨"a", .int⟩, ⟨"b", .int⟩]
      returns := [.int]
      body := [.result [.binary .add (.var ⟨"a", none⟩) (.var ⟨"b", none⟩)]] }]

/-- An action is found under its qualified name and under its bare one. -/
theorem load_exact_counter :
    counterSource.Loadable Library.standard ∧
    ∃ p unit, load counterSource Library.standard = .ok p ∧
      unit.shape.toOption = some ([.ref (.connector "counter"), .int], 2) ∧
      p.callables.Pairwise (·.1 < ·.1) ∧
      p.find? "demo:counter.next" = some unit ∧ p.find? "counter.next" = some unit := by
  have hloads : loadsTo counterSource Library.standard (fun p =>
      (p.callables.map (·.2)).any (fun unit =>
        unit.sig.name == "counter.next" && unit.sig.package == "demo" &&
          unit.shape.toOption == some ([.ref (.connector "counter"), .int], 2)) &&
      decide ("counter.next" ∉ p.callables.map (·.1))) = true := by
    rw [loadsTo_standard]
    decide +kernel
  obtain ⟨p, hload, htest⟩ := exists_of_loadsTo hloads
  simp only [Bool.and_eq_true, List.any_eq_true, beq_iff_eq, decide_eq_true_eq] at htest
  obtain ⟨⟨unit, hunit, ⟨hname, hpackage⟩, hshape⟩, hfree⟩ := htest
  obtain ⟨hexact, hprovides⟩ := load_exact counterSource Library.standard
  obtain ⟨hsorted, -, hfind⟩ := hprovides p hload
  obtain ⟨hqualified, hbare⟩ := hfind unit hunit
  rw [Signature.qualifiedName, hname, hpackage] at hqualified
  rw [hname] at hbare
  exact ⟨hexact.mp ⟨p, hload⟩, p, unit, hload, hshape, hsorted, hqualified,
    hbare (by decide) hpackage (by decide) hfree⟩

/-! ## The order of declarations -/

end Program

/-- The same connector with its actions in another order. -/
structure ConnectorDecl.Reordered (conn conn' : ConnectorDecl) : Prop where
  name : conn'.name = conn.name
  params : conn'.params = conn.params
  actions : conn.actions.Perm conn'.actions

/-- The same source with its declarations in another order: its structs, its functions, its
connectors, and the actions of each of these. -/
structure Source.Reordered (source source' : Source) : Prop where
  package : source'.package = source.package
  structs : source.structs.Perm source'.structs
  connectors : ∃ connectors, source.connectors.Perm connectors ∧
    List.Forall₂ ConnectorDecl.Reordered connectors source'.connectors
  functions : source.functions.Perm source'.functions

namespace Source.Reordered

variable {natives : Registry} {source source' : Source}

/-- Actions are declared alike in connectors that differ in the order of them. -/
theorem actionDecls_perm {connectors connectors' : List ConnectorDecl}
    (h : List.Forall₂ ConnectorDecl.Reordered connectors connectors') :
    (connectors.flatMap fun conn => conn.actions.map conn.actionDecl).Perm
      (connectors'.flatMap fun conn => conn.actions.map conn.actionDecl) := by
  induction h with
  | nil => exact .refl _
  | @cons conn conn' _ _ hconn _ ih =>
    have hdecl : conn'.actionDecl = conn.actionDecl := by
      funext action
      rw [ConnectorDecl.actionDecl, ConnectorDecl.actionDecl, hconn.name]
    simp only [List.flatMap_cons, hdecl]
    exact (hconn.actions.map _).append ih

theorem declarations_perm (h : source.Reordered source') :
    source.declarations.Perm source'.declarations := by
  obtain ⟨connectors, hperm, hconnectors⟩ := h.connectors
  exact ((hperm.flatMap_right _).trans (actionDecls_perm hconnectors)).append h.functions

/-- Connectors are declared alike if they differ in the order of their actions. -/
theorem connectorEntries_eq {connectors connectors' : List ConnectorDecl}
    (h : List.Forall₂ ConnectorDecl.Reordered connectors connectors') :
    connectors.map (fun conn => (conn.name, conn.params)) =
      connectors'.map fun conn => (conn.name, conn.params) := by
  induction h with
  | nil => rfl
  | cons hconn _ ih => rw [List.map_cons, List.map_cons, ih, hconn.name, hconn.params]

theorem connectorEntries_perm (h : source.Reordered source') :
    (source.connectors.map fun conn => (conn.name, conn.params)).Perm
      (source'.connectors.map fun conn => (conn.name, conn.params)) := by
  obtain ⟨connectors, hperm, hconnectors⟩ := h.connectors
  exact connectorEntries_eq hconnectors ▸ hperm.map _

/-- Whether parts fit together does not depend on their order. -/
theorem loadable (h : source.Reordered source') (hsource : source.Loadable natives) :
    source'.Loadable natives where
  names := by
    rw [h.package]
    exact ((h.declarations_perm.map _).append_left _).nodup_iff.mp hsource.names
  structs := (h.structs.map _).nodup_iff.mp hsource.structs
  connectors := by
    have hperm := h.connectorEntries_perm.map (·.1)
    rw [List.map_map, List.map_map] at hperm
    exact hperm.nodup_iff.mp hsource.connectors
  fits := fun decl hdecl => hsource.fits decl (h.declarations_perm.mem_iff.mpr hdecl)

/-- The program of parts that fit together does not depend on their order. -/
theorem linked_eq (h : source.Reordered source') (hsource : source.Loadable natives) :
    source'.linked natives = source.linked natives := by
  have hstructs : (source.structs.map (fun decl => (decl.name, decl))).map (·.1) =
      source.structs.map (·.name) := by
    rw [List.map_map]
    rfl
  have hconnectors : (source.connectors.map (fun conn => (conn.name, conn.params))).map (·.1) =
      source.connectors.map (·.name) := by
    rw [List.map_map]
    rfl
  have hunits : (Additions.nativeUnits natives ++
        Additions.functionUnits source.package source.declarations).Perm
      (Additions.nativeUnits natives ++
        Additions.functionUnits source.package source'.declarations) :=
    (h.declarations_perm.map _).append_left _
  unfold linked
  rw [h.package, Dict.ofList_eq_of_perm (hstructs ▸ hsource.structs) (h.structs.map _),
    Dict.ofList_eq_of_perm (hconnectors ▸ hsource.connectors) h.connectorEntries_perm,
    Dict.ofList_eq_of_perm (keys_units ▸ hsource.names) hunits]

end Source.Reordered

namespace Program

variable {natives : Registry} {p : Program} {source source' : Source}

/-- **The order of declarations does not matter**: if a source loads, every reordered one loads to
the same program. So the analysis finds the same, in the same order, and calls end alike. -/
theorem load_reordered (h : source.Reordered source') (hload : load source natives = .ok p) :
    load source' natives = .ok p ∧
    ∀ q, load source' natives = .ok q → q.check = p.check ∧
      ∀ (config : Config) (name : String) (args : List Value) (heap : Heap)
        (properties : Dict String),
        (Engine.start q config).map (·.invoke name args heap properties) =
          (Engine.start p config).map (·.invoke name args heap properties) := by
  obtain ⟨hloadable, rfl⟩ := load_eq_ok_iff.mp hload
  have hload' : load source' natives = .ok (source.linked natives) :=
    load_eq_ok_iff.mpr ⟨h.loadable hloadable, (h.linked_eq hloadable).symm⟩
  refine ⟨hload', fun q hq => ?_⟩
  rw [hload'] at hq
  cases hq
  exact ⟨rfl, fun _ _ _ _ _ => rfl⟩

/-- A source with its functions, connectors and actions in the opposite order. -/
def counterSourceReversed : Source :=
  { counterSource with
    connectors := counterSource.connectors.reverse.map fun conn =>
      { conn with actions := conn.actions.reverse }
    functions := counterSource.functions.reverse }

/-- A call of a function that is declared after what it uses, or before. -/
theorem load_reordered_counter :
    ∃ p q, load counterSource Library.standard = .ok p ∧
      load counterSourceReversed Library.standard = .ok q ∧ q.check = p.check ∧ p.check = [] ∧
      (Engine.start q {}).map (·.invoke "main" [.int 3]) =
        (Engine.start p {}).map (·.invoke "main" [.int 3]) := by
  have hloads : loadsTo counterSource Library.standard (·.check.isEmpty) = true := by
    rw [loadsTo_standard]
    decide +kernel
  obtain ⟨p, hload, htest⟩ := exists_of_loadsTo hloads
  have hreordered : counterSource.Reordered counterSourceReversed := by
    refine ⟨rfl, .refl _, ⟨counterSource.connectors.reverse, (List.reverse_perm _).symm, ?_⟩,
      (List.reverse_perm _).symm⟩
    exact List.forall₂_map_right_iff.mpr (List.forall₂_same.mpr fun conn _ =>
      ⟨rfl, rfl, (List.reverse_perm _).symm⟩)
  obtain ⟨hload', hsame⟩ := load_reordered hreordered hload
  obtain ⟨hcheck, hinvoke⟩ := hsame p hload'
  exact ⟨p, p, hload, hload', hcheck, List.isEmpty_iff.mp htest, hinvoke {} "main" [.int 3] {} []⟩

end Program

end FrameScript
