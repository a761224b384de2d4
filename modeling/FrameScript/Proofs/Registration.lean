import FrameScript.Proofs.Linking

set_option autoImplicit false

/-!
# Registering packages

A package hands its units to a registry one by one, and the first one whose name is taken stops it.
Nothing is taken back then: the units in front of that one stay, under their names and beside all
that was there before, but the package itself does not count as registered.

## Main definitions

* `Registry.Gains` — a registry with further units, each under its own name.
* `Registry.Takes` — all units of a package have names that are distinct and new.
* `Registry.Registers` — how the registration of a package ends.

## Main results

* `Registry.registerAll_ends` — units that are registered one by one.
* `Registry.registration_ends` — a package is registered completely if it can be, and otherwise up
  to the first unit whose name is taken.
-/

namespace FrameScript

namespace Registry

/-! ## Further units -/

/-- The registry has these units in addition, each under its own qualified name. No two of them have
the same name, none has a name that was taken before, and what was there before still is. -/
structure Gains (r : Registry) (units : List NativeUnit) (r' : Registry) : Prop where
  distinct : (units.map (·.sig.qualifiedName)).Nodup
  fresh : ∀ u ∈ units, r.get? u.sig.qualifiedName = none
  entries : r'.units.Perm (NativeUnit.named units ++ r.units)
  added : ∀ u ∈ units, r'.get? u.sig.qualifiedName = some u
  kept : ∀ name ∉ units.map (·.sig.qualifiedName), r'.get? name = r.get? name

theorem Gains.nil (r : Registry) : r.Gains [] r where
  distinct := .nil
  fresh := by simp
  entries := .refl _
  added := by simp
  kept _ _ := rfl

/-- A unit with a new name in front of others. -/
theorem Gains.cons {r r' : Registry} {u : NativeUnit} {units : List NativeUnit}
    (hu : r.get? u.sig.qualifiedName = none)
    (h : { r with units := Dict.insert u.sig.qualifiedName u r.units }.Gains units r') :
    r.Gains (u :: units) r' := by
  have hget (name : String) : { r with units := Dict.insert u.sig.qualifiedName u r.units }.get? name =
      if u.sig.qualifiedName == name then some u else r.get? name :=
    Dict.find?_insert _ _ _ _
  have hkey : u.sig.qualifiedName ∉ r.units.map (·.1) := by
    rw [← Dict.contains_eq_true_iff, Dict.contains, show Dict.find? _ r.units = none from hu]
    exact Bool.false_ne_true
  have hne : ∀ v ∈ units, v.sig.qualifiedName ≠ u.sig.qualifiedName := by
    intro v hv heq
    have hfresh := h.fresh v hv
    rw [hget, heq, if_pos (beq_self_eq_true _)] at hfresh
    cases hfresh
  constructor
  case distinct =>
    refine List.nodup_cons.mpr ⟨fun hmem => ?_, h.distinct⟩
    obtain ⟨v, hv, heq⟩ := List.mem_map.mp hmem
    exact hne v hv heq
  case fresh =>
    refine List.forall_mem_cons.mpr ⟨hu, fun v hv => ?_⟩
    have hfresh := h.fresh v hv
    rwa [hget, if_neg (by simpa using (hne v hv).symm)] at hfresh
  case entries =>
    exact h.entries.trans (((Dict.perm_insert hkey).append_left _).trans List.perm_middle)
  case added =>
    refine List.forall_mem_cons.mpr ⟨?_, h.added⟩
    rw [h.kept _ fun hmem => ?_, hget, if_pos (beq_self_eq_true _)]
    obtain ⟨v, hv, heq⟩ := List.mem_map.mp hmem
    exact hne v hv heq
  case kept =>
    intro name hname
    rw [List.map_cons, List.mem_cons, not_or] at hname
    rw [h.kept name hname.2, hget, if_neg (by simpa using Ne.symm hname.1)]

/-! ## One unit after the other -/

/-- How the registration of units one after the other ends: all of them are registered, or those in
front of the first whose name is taken, by one of them or from before. -/
inductive RegistersAll (r : Registry) (units : List NativeUnit) : Option Fault × Registry → Prop
  | all {r' : Registry} (hgains : r.Gains units r') (hpackages : r'.packages = r.packages) :
    RegistersAll r units (none, r')
  | upTo {front rest : List NativeUnit} {u : NativeUnit} {r' : Registry}
    (hunits : units = front ++ u :: rest) (hgains : r.Gains front r')
    (hpackages : r'.packages = r.packages)
    (htaken : u.sig.qualifiedName ∈ front.map (·.sig.qualifiedName) ∨
      (r.get? u.sig.qualifiedName).isSome = true) :
    RegistersAll r units (some (.wiring (.duplicateUnit u.sig.qualifiedName)), r')

theorem registerAll_ends (units : List NativeUnit) (r : Registry) :
    r.RegistersAll units (registerAll units r) := by
  induction units generalizing r with
  | nil => exact .all (.nil r) rfl
  | cons u units ih =>
    rw [registerAll, register]
    split
    next r₁ hok =>
      split at hok
      · cases hok
      next hnew =>
        cases hok
        have hu : r.get? u.sig.qualifiedName = none := by
          simpa [Registry.get?, Dict.contains] using hnew
        have hrest := ih { r with units := Dict.insert u.sig.qualifiedName u r.units }
        generalize registerAll units _ = result at hrest ⊢
        cases hrest with
        | all hgains hpackages => exact .all (hgains.cons hu) hpackages
        | @upTo front rest v r' hunits hgains hpackages htaken =>
          refine .upTo (congrArg (u :: ·) hunits) (hgains.cons hu) hpackages ?_
          rw [List.map_cons, List.mem_cons]
          rw [Registry.get?, Dict.find?_insert] at htaken
          split at htaken
          next heq => exact .inl (.inl (eq_of_beq heq).symm)
          · exact htaken.imp_left .inr
    next f herror =>
      split at herror
      next htaken =>
        cases herror
        exact .upTo (List.nil_append (u :: units)).symm (.nil r) rfl (.inr htaken)
      · cases herror

/-! ## Packages -/

/-- The registry takes all of the package: there is none of its name, and the names of its units are
distinct and new. -/
structure Takes (r : Registry) (p : NativePackage) : Prop where
  package : p.name ∉ r.packages
  distinct : (p.units.map (·.sig.qualifiedName)).Nodup
  fresh : ∀ u ∈ p.units, r.get? u.sig.qualifiedName = none

/-- How the registration of a package ends. -/
inductive Registers (r : Registry) (p : NativePackage) : Option Fault × Registry → Prop
  /-- There is a package of its name, and nothing changes. -/
  | known (hname : p.name ∈ r.packages) :
    Registers r p (some (.wiring (.duplicatePackage p.name)), r)
  /-- The name of a unit is taken. The registry gains the units in front of it, and the names of the
  packages stay as they are. -/
  | upTo {front rest : List NativeUnit} {u : NativeUnit} {r' : Registry} (hname : p.name ∉ r.packages)
    (hunits : p.units = front ++ u :: rest) (hgains : r.Gains front r')
    (hpackages : r'.packages = r.packages)
    (htaken : u.sig.qualifiedName ∈ front.map (·.sig.qualifiedName) ∨
      (r.get? u.sig.qualifiedName).isSome = true) :
    Registers r p (some (.wiring (.duplicateUnit u.sig.qualifiedName)), r')
  /-- The registry gains all units, and the name of the package, which is there once. -/
  | complete {r' : Registry} (hgains : r.Gains p.units r')
    (hpackages : r'.packages = r.packages ++ [p.name]) (hcount : r'.packages.count p.name = 1) :
    Registers r p (none, r')

theorem registers_registerPackage (p : NativePackage) (r : Registry) :
    r.Registers p (r.registerPackage p) := by
  unfold registerPackage
  split
  next hname => exact .known (by simpa using hname)
  next hname =>
    have hname : p.name ∉ r.packages := by simpa using hname
    have hends := registerAll_ends p.units r
    generalize registerAll p.units r = result at hends ⊢
    cases hends with
    | upTo hunits hgains hpackages htaken => exact .upTo hname hunits hgains hpackages htaken
    | all hgains hpackages =>
      refine .complete ⟨hgains.distinct, hgains.fresh, hgains.entries, hgains.added, hgains.kept⟩
        (by rw [hpackages]) ?_
      simp [hpackages, List.count_eq_zero_of_not_mem hname]

/-- **How registration ends.** A package is registered without a fault exactly if there is none of
its name and the names of its units are distinct and new. Then the registry has gained just these
units, each under its own qualified name, and the name of the package once. If there is a package of
the name, the registry stays as it is. Otherwise the fault names the first unit whose name is taken,
the names of the packages stay as they are, and the registry has gained just the units in front of
that one: no unit that was there before is lost or replaced.

**Proof sketch.** Induction on the units (`registerAll_ends`): a unit with a new name is one entry
more, and is found under that name ever after since no later unit may take it. -/
theorem registration_ends (p : NativePackage) (r : Registry) :
    r.Registers p (r.registerPackage p) ∧ ((r.registerPackage p).1 = none ↔ r.Takes p) := by
  have hends := registers_registerPackage p r
  refine ⟨hends, ?_⟩
  generalize r.registerPackage p = result at hends
  cases hends with
  | known hname => exact iff_of_false nofun fun htakes => htakes.package hname
  | @upTo front rest u r' hname hunits hgains hpackages htaken =>
    refine iff_of_false nofun fun htakes => ?_
    rcases htaken with hfront | hold
    · have hdistinct := htakes.distinct
      rw [hunits, List.map_append, List.map_cons, List.nodup_append] at hdistinct
      exact hdistinct.2.2 _ hfront _ List.mem_cons_self rfl
    · rw [htakes.fresh u (by simp [hunits])] at hold
      cases hold
  | complete hgains hpackages hcount =>
    refine iff_of_true rfl ⟨fun hmem => ?_, hgains.distinct, hgains.fresh⟩
    rw [hpackages, List.count_append, List.count_singleton_self] at hcount
    exact absurd (List.count_pos_iff.mpr hmem) (by omega)

/-- A package with two units of one name. -/
def repeating : NativePackage :=
  { name := "p"
    units := [.function "p" "a" [] [] (pure []), .function "p" "a" [] [] (pure [])] }

/-- The registration of the package fails, but its first unit stays. -/
theorem registration_leaves_unit :
    (({} : Registry).registerPackage repeating).1 = some (.wiring (.duplicateUnit "p:a")) ∧
      (({} : Registry).registerPackage repeating).2.units.map (·.1) = ["p:a"] ∧
      ({} : Registry).units.map (·.1) = [] := by
  refine ⟨?_, ?_, rfl⟩ <;> decide +kernel

end Registry

end FrameScript
