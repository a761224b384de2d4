import FrameScript.Program.Callable

set_option autoImplicit false

/-!
# Registries

The native units a program may call, by their qualified names.

## Main definitions

* `Registry` — the units, and the packages they were registered with.
* `Registry.register` — adds a unit.
* `Registry.registerPackage` — adds the units of a package one by one.
-/

namespace FrameScript

/-- The native units of a host. -/
structure Registry where
  /-- The units in ascending order of their qualified names. -/
  units : Dict NativeUnit := []
  /-- The names of the registered packages. -/
  packages : List String := []

/-- A group of native units. -/
structure NativePackage where
  /-- The name of the package. -/
  name : String
  /-- Its units, in the order they are registered. -/
  units : List NativeUnit

namespace Registry

/-- The unit of a qualified name. -/
def get? (name : String) (r : Registry) : Option NativeUnit :=
  Dict.find? name r.units

/-- Adds a unit, unless its name is taken. -/
def register (u : NativeUnit) (r : Registry) : Except Fault Registry :=
  let key := u.sig.qualifiedName
  if Dict.contains key r.units then .error (.wiring (.duplicateUnit key))
  else .ok { r with units := Dict.insert key u r.units }

/-- Adds units one by one up to the first whose name is taken. The registry comes back in any case,
with the fault that stopped it. -/
def registerAll : List NativeUnit → Registry → Option Fault × Registry
  | [], r => (none, r)
  | u :: us, r =>
    match r.register u with
    | .ok r => registerAll us r
    | .error f => (some f, r)

/-- Adds the units of a package, unless a package of its name is there. Units in front of one whose
name is taken stay, but the package then does not count as registered. -/
def registerPackage (p : NativePackage) (r : Registry) : Option Fault × Registry :=
  if r.packages.contains p.name then (some (.wiring (.duplicatePackage p.name)), r)
  else
    match registerAll p.units r with
    | (some f, r) => (some f, r)
    | (none, r) => (none, { r with packages := r.packages ++ [p.name] })

/-- Adds packages in order up to the first that fails. -/
def registerPackages : List NativePackage → Registry → Option Fault × Registry
  | [], r => (none, r)
  | p :: ps, r =>
    match r.registerPackage p with
    | (none, r) => registerPackages ps r
    | failed => failed

end Registry

end FrameScript
