import FrameScript.Program.Registry

set_option autoImplicit false

/-!
# The array and map packages

Native units that look into arrays and maps.

## Main definitions

* `Library.arrays`, `Library.maps` — the packages.
-/

namespace FrameScript

namespace Library

open Exec

/-! ## Arrays -/

/-- The name of the array package. -/
def arraysName : String := "ballerina.lang.array"

/-- The number of elements of an array. -/
def arrayLength : Exec (List Value) := do
  match ← argument 0 with
  | .array _ id => return [.int (Int64.ofNat ((← heap).array id).size)]
  | other =>
    let found := other.ty.text
    hostError s!"length() expects an array, got '{found}'"

/-- The array package. -/
def arrays : NativePackage :=
  { name := arraysName
    units := [.function arraysName "length" [⟨"arr", .arrayOf .any⟩] [.int] arrayLength] }

/-! ## Maps -/

/-- The name of the map package. -/
def mapsName : String := "ballerina.lang.maps"

/-- An argument that is a map, by its identity. -/
def mapArgument (index : Nat) : Exec Nat := do
  match ← argument index with
  | .map id => return id
  | other =>
    let found := other.ty.text
    hostError s!"argument {index} is '{found}', expected 'map'"

/-- The keys in ascending order. -/
def mapKeys : Exec (List Value) := do
  let id ← mapArgument 0
  let keys := Dict.keys ((← heap).map id)
  let v ← make (Heap.newArray .string (keys.map Value.str).toArray)
  return [v]

/-- Whether a key is there. -/
def mapHasKey : Exec (List Value) := do
  let id ← mapArgument 0
  let key ← stringArgument 1
  return [.bool (Dict.contains key ((← heap).map id))]

/-- Removes a key. -/
def mapRemove : Exec (List Value) := do
  let id ← mapArgument 0
  let key ← stringArgument 1
  modifyHeap (Heap.setMap id (Dict.erase key))
  return []

/-- The map package. -/
def maps : NativePackage :=
  { name := mapsName
    units := [
      .function mapsName "keys" [⟨"m", .ref .map⟩] [.arrayOf .string] mapKeys,
      .function mapsName "hasKey" [⟨"m", .ref .map⟩, ⟨"key", .string⟩] [.boolean] mapHasKey,
      .function mapsName "remove" [⟨"m", .ref .map⟩, ⟨"key", .string⟩] [] mapRemove] }

end Library

end FrameScript
