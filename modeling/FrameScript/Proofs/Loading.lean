import FrameScript.Library.Standard
import FrameScript.Program.Load

set_option autoImplicit false

/-!
# What loading establishes

Every callable of a loaded program is stored under its qualified name. A function is one that a
declaration was laid out to, with exactly the slots its layout needs, and a native unit is one of
the registry the program was linked with.

## Main definitions

* `Program.Provides` — a program with callables of a kind under their names.
* `Callable.ComesFrom` — where the callables of a loaded program come from.
* `Program.Linked` — a program with all its callables under their names.
* `Program.DrawnFrom` — a program with the package, the connectors and the callables of a source.
* `Source.declarations` — what the functions of a source are declared by.

## Main results

* `Program.load_drawnFrom` — loaded programs are drawn from their sources.
* `Program.load_linked` — loaded programs are linked.
* `Program.load_laidOut` — every function of a loaded program is laid out by a declaration of its
  source.
* `Program.Linked.laidOut` — a function of a linked program has a laid out body and the frame its
  layout asks for.
* `Library.mem_standard` — the units of the standard library are those of its packages.
-/

namespace FrameScript

/-! ## Dictionaries -/

namespace Dict

variable {α : Type}

/-- A dictionary with a new entry, under any key. -/
theorem find?_insert (key other : String) (value : α) (d : Dict α) :
    find? other (insert key value d) = if key == other then some value else find? other d := by
  induction d with
  | nil => rfl
  | cons entry rest ih =>
    obtain ⟨k, v⟩ := entry
    simp only [insert]
    split
    next heq =>
      obtain rfl : key = k := by simpa using heq
      simp only [find?]
      split <;> rfl
    · split
      · rfl
      next hne hlt =>
        simp only [find?, ih]
        by_cases hother : (k == other) = true
        · obtain rfl : k = other := by simpa using hother
          simp [hne]
        · simp [hother]

theorem mem_of_mem_insert {key : String} {value : α} {entry : String × α} {d : Dict α}
    (h : entry ∈ insert key value d) : entry ∈ d ∨ entry = (key, value) := by
  induction d with
  | nil => exact .inr (List.mem_singleton.mp h)
  | cons first rest ih =>
    simp only [insert] at h
    split at h
    · exact (List.mem_cons.mp h).symm.imp_left (List.mem_cons_of_mem _)
    · split at h
      · exact (List.mem_cons.mp h).symm
      · rcases List.mem_cons.mp h with hfirst | hrest
        · exact .inl (hfirst ▸ List.mem_cons_self)
        · exact (ih hrest).imp_left (List.mem_cons_of_mem _)

theorem mem_of_mem_foldl_insert {entry : String × α} {entries : List (String × α)} {d : Dict α}
    (h : entry ∈ entries.foldl (fun d (key, value) => insert key value d) d) :
    entry ∈ d ∨ entry ∈ entries := by
  induction entries generalizing d with
  | nil => exact .inl h
  | cons first rest ih =>
    rcases ih h with hinsert | hrest
    · exact (mem_of_mem_insert hinsert).imp_right fun (heq : entry = first) =>
        heq ▸ List.mem_cons_self
    · exact .inr (List.mem_cons_of_mem _ hrest)

/-- The entries of the dictionary of a list are entries of the list. -/
theorem mem_of_mem_ofList {entry : String × α} {entries : List (String × α)}
    (h : entry ∈ ofList entries) : entry ∈ entries :=
  (mem_of_mem_foldl_insert h).resolve_left (by simp)

theorem mem_of_mem_erase {key : String} {entry : String × α} {d : Dict α}
    (h : entry ∈ erase key d) : entry ∈ d := by
  induction d with
  | nil => exact h
  | cons first rest ih =>
    simp only [erase] at h
    split at h
    · exact List.mem_cons_of_mem _ h
    · rcases List.mem_cons.mp h with hfirst | hrest
      · exact hfirst ▸ List.mem_cons_self
      · exact List.mem_cons_of_mem _ (ih hrest)

/-- What is found is an entry. -/
theorem mem_of_find? {key : String} {value : α} {d : Dict α} (h : find? key d = some value) :
    (key, value) ∈ d := by
  induction d with
  | nil => cases h
  | cons entry rest ih =>
    obtain ⟨k, v⟩ := entry
    simp only [find?] at h
    split at h
    next heq =>
      obtain rfl : k = key := by simpa using heq
      cases h
      exact List.mem_cons_self
    · exact List.mem_cons_of_mem _ (ih h)

end Dict

/-! ## Results that may be errors -/

/-- A sequence of results is a value exactly if all its parts are. -/
theorem bind_eq_ok {α β ε : Type} {x : Except ε α} {f : α → Except ε β} {b : β} :
    (x >>= f) = .ok b ↔ ∃ a, x = .ok a ∧ f a = .ok b := by
  rcases x with e | a
  · exact ⟨nofun, nofun⟩
  · refine ⟨fun h => ⟨a, rfl, h⟩, ?_⟩
    rintro ⟨a', h, h'⟩
    cases h
    exact h'

/-! ## Lists -/

/-- What comes first behind the first items of a list. -/
theorem cons_prefix_drop {α : Type} {a : α} {as bs : List α} {n : Nat}
    (h : a :: as <+: bs.drop n) : bs[n]? = some a ∧ as <+: bs.drop (n + 1) := by
  obtain ⟨rest, hrest⟩ := h
  refine ⟨?_, rest, ?_⟩
  · rw [← List.head?_drop, ← hrest]
    rfl
  · rw [← List.drop_drop, ← hrest]
    rfl

/-- What comes first behind the first items of a list, in two parts. -/
theorem append_prefix_drop {α : Type} {as bs cs : List α} {n : Nat}
    (h : as ++ bs <+: cs.drop n) : as <+: cs.drop n ∧ bs <+: cs.drop (n + as.length) := by
  obtain ⟨rest, hrest⟩ := h
  refine ⟨⟨bs ++ rest, by rw [← hrest, List.append_assoc]⟩, ⟨rest, ?_⟩⟩
  rw [← List.drop_drop, ← hrest, List.append_assoc, List.drop_left]

/-! ## Linked programs -/

/-- Where the callables of a loaded program come from: functions are built from declarations, and
native units lie in the registry. -/
inductive Callable.ComesFrom (natives : Registry) : Callable → Prop
  | built {package : String} {decl : FunctionDecl} {f : Function}
    (h : decl.build package = .ok f) : ComesFrom natives (.function f)
  | registered {key : String} {u : NativeUnit}
    (h : (key, u) ∈ natives.units) : ComesFrom natives (.native u)

/-- Every callable of the program is stored under its qualified name and has a property. -/
def Program.Provides (P : Callable → Prop) (p : Program) : Prop :=
  ∀ key unit, Dict.find? key p.units = some unit → unit.sig.qualifiedName = key ∧ P unit

/-- Every callable of the program is stored under its qualified name and has been built or
registered. -/
def Program.Linked (natives : Registry) (p : Program) : Prop :=
  p.Provides (Callable.ComesFrom natives)

/-- The declarations of the functions of a source, those of actions among them. -/
def Source.declarations (source : Source) : List FunctionDecl :=
  source.connectors.flatMap (fun conn => conn.actions.map conn.actionDecl) ++ source.functions

/-- The program is of the package of the source and has only connectors that are declared there, and
what it provides has a property. -/
structure Program.DrawnFrom (source : Source) (P : Callable → Prop) (p : Program) : Prop where
  provides : p.Provides P
  package : p.package = source.package
  connectors : ∀ name params, p.connectorParams? name = some params →
    ∃ conn ∈ source.connectors, conn.name = name

/-- A property that each step of a fold keeps holds of its result. -/
theorem foldlM_induction {α σ ε : Type} {step : σ → α → Except ε σ} (P : σ → Prop) {items : List α}
    (hstep : ∀ s, ∀ a ∈ items, ∀ s', P s → step s a = .ok s' → P s') {s t : σ} (hs : P s)
    (h : items.foldlM step s = .ok t) : P t := by
  induction items generalizing s with
  | nil =>
    cases h
    exact hs
  | cons a items ih =>
    simp only [List.foldlM_cons] at h
    obtain ⟨s', hfirst, h⟩ := bind_eq_ok.mp h
    refine ih (fun s a ha => hstep s a (List.mem_cons_of_mem _ ha)) ?_ h
    exact hstep s a List.mem_cons_self s' hs hfirst

namespace Program

variable {source : Source} {natives : Registry} {p q : Program} {P : Callable → Prop}

/-! ## Loading -/

theorem DrawnFrom.insertUnit {unit : Callable} (hp : p.DrawnFrom source P) (hunit : P unit)
    (h : p.insertUnit unit = .ok q) : q.DrawnFrom source P := by
  simp only [Program.insertUnit] at h
  split at h
  · cases h
  · cases h
    refine ⟨fun key found hfound => ?_, hp.package, hp.connectors⟩
    rw [Dict.find?_insert] at hfound
    split at hfound
    next heq =>
      cases hfound
      exact ⟨by simpa using heq, hunit⟩
    · exact hp.provides key found hfound

theorem DrawnFrom.insertNatives (hp : p.DrawnFrom source P)
    (hnatives : ∀ key unit, (key, unit) ∈ natives.units → P (.native unit))
    (h : insertNatives natives p = .ok q) : q.DrawnFrom source P := by
  refine foldlM_induction (DrawnFrom source P) (fun s entry hentry s' hs hstep => ?_) hp h
  exact hs.insertUnit (hnatives entry.1 entry.2 hentry) hstep

theorem DrawnFrom.insertStruct {decl : StructDecl} (hp : p.DrawnFrom source P)
    (h : p.insertStruct decl = .ok q) : q.DrawnFrom source P := by
  simp only [Program.insertStruct] at h
  split at h
  · cases h
  · cases h
    exact ⟨hp.provides, hp.package, hp.connectors⟩

theorem DrawnFrom.insertFunction {decl : FunctionDecl} {found found' : List SemanticError}
    (hp : p.DrawnFrom source P)
    (hbuilt : ∀ f, decl.build source.package = .ok f → P (.function f))
    (h : insertFunction (p, found) decl = .ok (q, found')) : q.DrawnFrom source P := by
  simp only [Program.insertFunction, hp.package] at h
  split at h
  next f hf =>
    rcases hq : p.insertUnit (.function f) with e | r
    · rw [hq] at h
      cases h
    · rw [hq] at h
      cases h
      exact hp.insertUnit (hbuilt f hf) hq
  · cases h
    exact hp
  · cases h

theorem DrawnFrom.insertConnector {conn : ConnectorDecl} {found found' : List SemanticError}
    (hp : p.DrawnFrom source P) (hconn : conn ∈ source.connectors)
    (hbuilt : ∀ action ∈ conn.actions, ∀ f,
      (conn.actionDecl action).build source.package = .ok f → P (.function f))
    (h : insertConnector (p, found) conn = .ok (q, found')) : q.DrawnFrom source P := by
  simp only [Program.insertConnector] at h
  split at h
  · cases h
  · obtain ⟨s, hfold, h⟩ := bind_eq_ok.mp h
    have hs : s.1.DrawnFrom source P := by
      refine foldlM_induction (fun s => s.1.DrawnFrom source P)
        (fun s decl hdecl s' hs hstep => ?_) hp hfold
      obtain ⟨action, haction, rfl⟩ := List.mem_map.mp hdecl
      exact hs.insertFunction (hbuilt action haction) hstep
    cases h
    refine ⟨hs.provides, hs.package, fun name params hparams => ?_⟩
    rw [connectorParams?, Dict.find?_insert] at hparams
    split at hparams
    next heq => exact ⟨conn, hconn, by simpa using heq⟩
    · exact hs.connectors name params hparams

/-- A loaded program is drawn from its source: it provides the native units of the registry and the
functions that the declarations of the source build. -/
theorem load_drawnFrom (hnatives : ∀ key unit, (key, unit) ∈ natives.units → P (.native unit))
    (hbuilt : ∀ decl ∈ source.declarations, ∀ f,
      decl.build source.package = .ok f → P (.function f))
    (h : load source natives = .ok p) : p.DrawnFrom source P := by
  obtain ⟨p₁, h₁, h⟩ := bind_eq_ok.mp h
  obtain ⟨p₂, h₂, h⟩ := bind_eq_ok.mp h
  obtain ⟨s₃, h₃, h⟩ := bind_eq_ok.mp h
  obtain ⟨s₄, h₄, h⟩ := bind_eq_ok.mp h
  have hempty : DrawnFrom source P { package := source.package } :=
    ⟨fun _ _ hnone => (nomatch hnone), rfl, fun _ _ hnone => (nomatch hnone)⟩
  have hp₁ : p₁.DrawnFrom source P := hempty.insertNatives hnatives h₁
  have hp₂ : p₂.DrawnFrom source P :=
    foldlM_induction (DrawnFrom source P) (fun _ _ _ _ hs hstep => hs.insertStruct hstep) hp₁ h₂
  have hp₃ : s₃.1.DrawnFrom source P := by
    refine foldlM_induction (fun s => s.1.DrawnFrom source P)
      (fun s conn hconn s' hs hstep => ?_) hp₂ h₃
    refine hs.insertConnector hconn (fun action haction => hbuilt _ ?_) hstep
    refine List.mem_append_left _ (List.mem_flatMap.mpr ⟨conn, hconn, ?_⟩)
    exact List.mem_map_of_mem haction
  have hp₄ : s₄.1.DrawnFrom source P := by
    refine foldlM_induction (fun s => s.1.DrawnFrom source P)
      (fun s decl hdecl s' hs hstep => ?_) hp₃ h₄
    exact hs.insertFunction (hbuilt decl (List.mem_append_right _ hdecl)) hstep
  obtain ⟨p₄, found⟩ := s₄
  dsimp only at h
  split at h
  · cases h
    exact hp₄
  · cases h

/-- **Loaded programs are linked**: every callable is found under its qualified name, every function
is the layout of a declaration, and every native unit comes from the registry. -/
theorem load_linked (h : load source natives = .ok p) : p.Linked natives :=
  (load_drawnFrom (fun _ _ hmem => .registered hmem) (fun _ _ _ hbuild => .built hbuild) h).provides

/-- A loaded program is of the package of its source. -/
theorem load_package (h : load source natives = .ok p) : p.package = source.package :=
  (load_drawnFrom (P := fun _ => True) (fun _ _ _ => trivial) (fun _ _ _ _ => trivial) h).package

/-- The connectors of a loaded program are declared in its source. -/
theorem load_connectors (h : load source natives = .ok p) {name : String} {params : List Param}
    (hname : p.connectorParams? name = some params) :
    ∃ conn ∈ source.connectors, conn.name = name :=
  (load_drawnFrom (P := fun _ => True) (fun _ _ _ => trivial) (fun _ _ _ _ => trivial)
    h).connectors name params hname

/-- The callable a name means is one that can be found. -/
theorem find?_of_resolve {p : Program} {name : String} {unit : Callable}
    (h : p.resolve name = .ok unit) : p.find? name = some unit := by
  unfold resolve at h
  split at h
  · simp_all
  · cases h

theorem resolve_of_find? {p : Program} {name : String} {unit : Callable}
    (h : p.find? name = some unit) : p.resolve name = .ok unit := by
  rw [resolve, h]

/-! ## Linked programs -/

section Provides

variable (hp : p.Provides P)

include hp

/-- A name means what is stored under it, or what is stored under it in the package. -/
theorem Provides.qualifiedName_of_find? {name : String} {unit : Callable}
    (h : p.find? name = some unit) :
    unit.sig.qualifiedName = name ∨
      p.package ≠ "" ∧ unit.sig.qualifiedName = qualify p.package name := by
  unfold find? at h
  split at h
  next found hfound =>
    cases h
    exact .inl (hp name _ hfound).1
  · split at h
    · cases h
    next hnone =>
      obtain ⟨hpackage, -⟩ := not_or.mp (mt Bool.or_eq_true_iff.mpr hnone)
      refine .inr ⟨by simpa using hpackage, ?_⟩
      rw [qualify, if_neg hpackage]
      exact (hp _ _ h).1

/-- What a name means is stored under its own qualified name. -/
theorem Provides.find?_qualifiedName {name : String} {unit : Callable}
    (h : p.find? name = some unit) : Dict.find? unit.sig.qualifiedName p.units = some unit := by
  unfold find? at h
  split at h
  next found hfound =>
    cases h
    rwa [(hp name _ hfound).1]
  · split at h
    · cases h
    · rwa [(hp _ _ h).1]

theorem Provides.find? {name : String} {unit : Callable} (h : p.find? name = some unit) :
    P unit :=
  (hp _ _ (hp.find?_qualifiedName h)).2

end Provides

theorem Linked.comesFrom (hp : p.Linked natives) {name : String} {unit : Callable}
    (h : p.find? name = some unit) : unit.ComesFrom natives :=
  Provides.find? hp h

end Program

/-! ## Functions of linked programs -/

/-- No parameter is repeated exactly if the names are distinct and none of them was seen before. -/
theorem repeatedParams_eq_nil_iff {params : List Param} {seen : List String} :
    repeatedParams seen params = [] ↔
      (params.map (·.name)).Nodup ∧ ∀ p ∈ params, p.name ∉ seen := by
  induction params generalizing seen with
  | nil => simp [repeatedParams]
  | cons p params ih =>
    rw [repeatedParams, List.map_cons, List.nodup_cons, List.forall_mem_cons]
    split
    next hold => simp_all
    next hnew =>
      have hnew : p.name ∉ seen := by simpa using hnew
      rw [ih]
      constructor
      · rintro ⟨hnodup, hfresh⟩
        refine ⟨⟨fun hmem => ?_, hnodup⟩, hnew, fun q hq hseen => ?_⟩
        · obtain ⟨q, hq, heq⟩ := List.mem_map.mp hmem
          exact hfresh q hq (heq ▸ List.mem_cons_self)
        · exact hfresh q hq (List.mem_cons_of_mem _ hseen)
      · rintro ⟨⟨hp, hnodup⟩, -, hfresh⟩
        refine ⟨hnodup, fun q hq hmem => ?_⟩
        rcases List.mem_cons.mp hmem with heq | hseen
        · exact hp (heq ▸ List.mem_map_of_mem hq)
        · exact hfresh q hq hseen

/-- A counted number of slots has to be the needed one. -/
theorem recordSizes_setOnce (unit : String) {declared? : Option Nat} {needed : Nat}
    {size : FrameSize} :
    recordSizes (FrameSize.setOnce unit) declared? needed = .ok size ↔
      (∀ n, declared? = some n → n = needed) ∧ size = some needed := by
  cases declared? with
  | none =>
    change Except.ok (some needed) = .ok size ↔ _
    simp [eq_comm]
  | some declared =>
    change FrameSize.setOnce unit needed (some declared) = .ok size ↔ _
    unfold FrameSize.setOnce
    by_cases heq : declared = needed
    · simp [heq, eq_comm]
    · simp [heq]

/-- A counted number of temporary slots has to be the needed one, or zero. -/
theorem recordSizes_setTemp (unit : String) {declared? : Option Nat} {needed : Nat}
    {size : FrameSize} :
    recordSizes (FrameSize.setTemp unit) declared? needed = .ok size ↔
      (∀ n, declared? = some n → n ≠ 0 → n = needed) ∧ size = some needed := by
  cases declared? with
  | none =>
    change Except.ok (some needed) = .ok size ↔ _
    simp [eq_comm]
  | some declared =>
    change FrameSize.setTemp unit needed (some declared) = .ok size ↔ _
    unfold FrameSize.setTemp
    by_cases heq : declared = needed
    · simp [heq, eq_comm]
    · by_cases hzero : declared = 0
      · simp [hzero, eq_comm]
      · have hpos : 0 < declared := Nat.pos_of_ne_zero hzero
        simp [heq, hzero, hpos]

namespace Function

/-- A function whose body and layout are those of a declaration, and whose frames have the sizes of
the layout. -/
structure LaidOut (f : Function) (decl : FunctionDecl) : Prop where
  params : f.sig.params = decl.params
  returns : f.sig.returns = decl.returns
  bound : nameErrors decl.params decl.body = []
  layout : f.layout = layoutOf decl.params decl.body
  body : f.body = layoutBlock (Scope.ofParams decl.params) decl.body
  shape : (Callable.function f).shape = .ok (f.layout.slots, f.layout.temps)

/-- What a declaration builds, and that it builds something only if its names mean something. -/
theorem eq_of_build {package : String} {decl : FunctionDecl} {f : Function}
    (h : decl.build package = .ok f) : nameErrors decl.params decl.body = [] ∧ f = {
      sig := decl.signature package
      body := layoutBlock (Scope.ofParams decl.params) decl.body
      layout := layoutOf decl.params decl.body
      stackSize := some (layoutOf decl.params decl.body).slots.length
      tempSize := some (layoutOf decl.params decl.body).temps } := by
  unfold FunctionDecl.build layOut at h
  split at h
  · cases h
  next layout body hlayout =>
    split at hlayout
    next hbound =>
      cases hlayout
      dsimp only at h
      split at h
      next g hsizes =>
        cases h
        obtain ⟨stackSize, hstack, hsizes⟩ := bind_eq_ok.mp hsizes
        obtain ⟨tempSize, htemp, hsizes⟩ := bind_eq_ok.mp hsizes
        cases hsizes
        obtain rfl := ((recordSizes_setOnce _).mp hstack).2
        obtain rfl := ((recordSizes_setTemp _).mp htemp).2
        exact ⟨hbound, rfl⟩
      · cases h
    · cases hlayout

/-- The function of a declaration is laid out by it. -/
theorem laidOut_of_build {package : String} {decl : FunctionDecl} {f : Function}
    (h : decl.build package = .ok f) : f.LaidOut decl := by
  obtain ⟨hbound, rfl⟩ := eq_of_build h
  exact {
    params := rfl
    returns := rfl
    bound := hbound
    layout := rfl
    body := rfl
    shape := by simp [Callable.shape] }

end Function

/-- A function of a linked program is laid out by some declaration. -/
theorem Program.Linked.laidOut {natives : Registry} {p : Program} (hp : p.Linked natives)
    {name : String} {f : Function} (h : p.find? name = some (.function f)) :
    ∃ decl, f.LaidOut decl := by
  cases hp.comesFrom h with
  | built hbuild => exact ⟨_, Function.laidOut_of_build hbuild⟩

/-- The functions of a loaded program are built from declarations of its source. -/
theorem Program.load_built {source : Source} {natives : Registry} {p : Program}
    (h : Program.load source natives = .ok p) {name : String} {f : Function}
    (hf : p.find? name = some (.function f)) :
    ∃ decl ∈ source.declarations, decl.build source.package = .ok f := by
  have hprovides : p.Provides fun unit => ∀ f, unit = .function f →
      ∃ decl ∈ source.declarations, decl.build source.package = .ok f := by
    refine (load_drawnFrom (fun _ _ _ _ hnative => by cases hnative) ?_ h).provides
    intro decl hdecl f hbuild g hg
    cases hg
    exact ⟨decl, hdecl, hbuild⟩
  exact hprovides.find? hf f rfl

/-- **Functions are laid out by their source**: every function of a loaded program is what some
declaration of its source is laid out to. -/
theorem Program.load_laidOut {source : Source} {natives : Registry} {p : Program}
    (h : Program.load source natives = .ok p) {name : String} {f : Function}
    (hf : p.find? name = some (.function f)) : ∃ decl ∈ source.declarations, f.LaidOut decl := by
  obtain ⟨decl, hdecl, hbuild⟩ := Program.load_built h hf
  exact ⟨decl, hdecl, Function.laidOut_of_build hbuild⟩

/-! ## Programs at hand -/

namespace Program

/-- Whether a source loads to a program that passes a test. -/
def loadsTo (source : Source) (natives : Registry) (test : Program → Bool) : Bool :=
  match load source natives with
  | .ok p => test p
  | .error _ => false

theorem exists_of_loadsTo {source : Source} {natives : Registry} {test : Program → Bool}
    (h : loadsTo source natives test = true) :
    ∃ p, load source natives = .ok p ∧ test p = true := by
  unfold loadsTo at h
  split at h
  next p hp => exact ⟨p, hp, h⟩
  · cases h

/-- The functions that names mean are functions of the program. -/
theorem mem_functions {p : Program} {name : String} {f : Function}
    (h : p.find? name = some (.function f)) : f ∈ p.functions := by
  have hmem : ∃ key, (key, Callable.function f) ∈ p.units := by
    unfold Program.find? at h
    split at h
    next found hfound =>
      cases h
      exact ⟨_, Dict.mem_of_find? hfound⟩
    · split at h
      · cases h
      · exact ⟨_, Dict.mem_of_find? h⟩
  obtain ⟨key, hmem⟩ := hmem
  exact List.mem_filterMap.mpr ⟨_, hmem, rfl⟩

/-- Whether a source loads to a program in which a name means a callable. -/
def loadsWith (source : Source) (natives : Registry) (name : String) : Bool :=
  loadsTo source natives fun p => (p.find? name).isSome

theorem exists_of_loadsWith {source : Source} {natives : Registry} {name : String}
    (h : loadsWith source natives name = true) :
    ∃ p unit, load source natives = .ok p ∧ p.find? name = some unit := by
  obtain ⟨p, hp, hname⟩ := exists_of_loadsTo h
  obtain ⟨unit, hunit⟩ := Option.isSome_iff_exists.mp hname
  exact ⟨p, unit, hp, hunit⟩

/-- A function of a program whose name only one declaration of its source has is built from that. -/
theorem build_of_name {source : Source} {natives : Registry} {p : Program}
    (hload : load source natives = .ok p) {name : String} {w : Function}
    (hw : p.find? name = some (.function w)) (decl : FunctionDecl)
    (hdecl : ∀ decl' ∈ source.declarations, decl'.name = w.sig.name → decl' = decl) :
    decl.build source.package = .ok w := by
  obtain ⟨decl', hmem, hbuild⟩ := load_built hload hw
  have hname : decl'.name = w.sig.name := by
    rw [(Function.eq_of_build hbuild).2]
    rfl
  rwa [← hdecl decl' hmem hname]

/-- Whether a name means a function of that name that passes a test. -/
def functionPasses (p : Program) (name : String) (test : Function → Bool) : Bool :=
  match p.find? name with
  | some (.function f) => f.sig.name == name && test f
  | _ => false

theorem exists_of_functionPasses {p : Program} {name : String} {test : Function → Bool}
    (h : p.functionPasses name test = true) :
    ∃ f, p.find? name = some (.function f) ∧ f.sig.name = name ∧ test f = true := by
  unfold functionPasses at h
  split at h
  next f hf =>
    rw [Bool.and_eq_true, beq_iff_eq] at h
    exact ⟨f, hf, h⟩
  · cases h

/-- Whether a name means a native unit that passes a test. -/
def nativePasses (p : Program) (name : String) (test : NativeUnit → Bool) : Bool :=
  match p.find? name with
  | some (.native u) => test u
  | _ => false

theorem exists_of_nativePasses {p : Program} {name : String} {test : NativeUnit → Bool}
    (h : p.nativePasses name test = true) :
    ∃ u, p.find? name = some (.native u) ∧ test u = true := by
  unfold nativePasses at h
  split at h
  next u hu => exact ⟨u, hu, h⟩
  · cases h

end Program

/-! ## The standard library -/

namespace Registry

theorem mem_register {u v : NativeUnit} {r s : Registry} {key : String}
    (h : r.register u = .ok s) (hv : (key, v) ∈ s.units) : (∃ key, (key, v) ∈ r.units) ∨ v = u := by
  unfold register at h
  dsimp only at h
  split at h
  · cases h
  · cases h
    exact (Dict.mem_of_mem_insert hv).imp (fun hold => ⟨key, hold⟩) fun heq => congrArg Prod.snd heq

theorem mem_registerAll {units : List NativeUnit} {r : Registry} {key : String} {v : NativeUnit}
    (hv : (key, v) ∈ (registerAll units r).2.units) : (∃ key, (key, v) ∈ r.units) ∨ v ∈ units := by
  induction units generalizing r key with
  | nil => exact .inl ⟨key, hv⟩
  | cons u us ih =>
    unfold registerAll at hv
    split at hv
    next s hs =>
      rcases ih hv with ⟨key, hold⟩ | hmem
      · exact (mem_register hs hold).imp_right fun (heq : v = u) => heq ▸ List.mem_cons_self
      · exact .inr (List.mem_cons_of_mem _ hmem)
    · exact .inl ⟨key, hv⟩

/-- The units of a registry that packages are added to are those it had and those of the
packages. -/
theorem mem_registerPackages {packages : List NativePackage} {r : Registry} {key : String}
    {v : NativeUnit} (hv : (key, v) ∈ (r.registerPackages packages).2.units) :
    (∃ key, (key, v) ∈ r.units) ∨ ∃ package ∈ packages, v ∈ package.units := by
  have hpackage (package : NativePackage) (r : Registry) (key : String)
      (hv : (key, v) ∈ (r.registerPackage package).2.units) :
      (∃ key, (key, v) ∈ r.units) ∨ v ∈ package.units := by
    unfold registerPackage at hv
    split at hv
    · exact .inl ⟨key, hv⟩
    · rcases hall : registerAll package.units r with ⟨_ | f, s⟩ <;> rw [hall] at hv
      · exact mem_registerAll (by rw [hall]; exact hv)
      · exact mem_registerAll (by rw [hall]; exact hv)
  induction packages generalizing r key with
  | nil => exact .inl ⟨key, hv⟩
  | cons package packages ih =>
    have hfirst := hpackage package r
    unfold registerPackages at hv
    rcases hr : r.registerPackage package with ⟨_ | f, s⟩ <;> rw [hr] at hv hfirst
    · rcases ih hv with ⟨key, hold⟩ | ⟨q, hq, hmem⟩
      · exact (hfirst key hold).imp_right fun hmem => ⟨package, List.mem_cons_self, hmem⟩
      · exact .inr ⟨q, List.mem_cons_of_mem _ hq, hmem⟩
    · exact (hfirst key hv).imp_right fun hmem => ⟨package, List.mem_cons_self, hmem⟩

end Registry

/-- The units of the standard library are those of its packages. -/
theorem Library.mem_standard {key : String} {u : NativeUnit} (h : (key, u) ∈ standard.units) :
    ∃ package ∈ packages, u ∈ package.units := by
  -- rewriting leaves the registry as it is; unfolding it here would register all units
  rw [standard, register] at h
  refine (Registry.mem_registerPackages h).resolve_left ?_
  rintro ⟨key, hnone⟩
  exact List.not_mem_nil hnone

/-- The native units of a program that is linked with the standard library are those of its
packages. -/
theorem Program.Linked.mem_packages {p : Program} (hp : p.Linked Library.standard) {name : String}
    {u : NativeUnit} (h : p.find? name = some (.native u)) :
    ∃ package ∈ Library.packages, u ∈ package.units := by
  cases hp.comesFrom h with
  | registered hmem => exact Library.mem_standard hmem

end FrameScript
