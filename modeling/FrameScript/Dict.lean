set_option autoImplicit false

/-!
# Dictionaries

Finite maps from strings, kept as lists of entries in ascending order of the keys, so that every
listing of a dictionary is in the order of its keys. Strings are ordered by code points, which is
the order of their bytes in UTF-8.

## Main definitions

* `Dict` — the entries of a dictionary.
* `Dict.find?`, `Dict.contains` — reading.
* `Dict.insert`, `Dict.erase`, `Dict.ofList` — building; of two entries with one key the later
  stays.
-/

namespace FrameScript

/-- A finite map from strings, as its entries in ascending order of the keys. -/
abbrev Dict (α : Type) : Type := List (String × α)

namespace Dict

variable {α : Type}

/-- The value stored under a key. -/
def find? (key : String) : Dict α → Option α
  | [] => none
  | (k, v) :: rest => if k == key then some v else find? key rest

/-- Whether a value is stored under a key. -/
def contains (key : String) (d : Dict α) : Bool :=
  (d.find? key).isSome

/-- Stores a value under a key, in place of the one stored there before. -/
def insert (key : String) (value : α) : Dict α → Dict α
  | [] => [(key, value)]
  | (k, v) :: rest =>
    if key == k then (key, value) :: rest
    else if key < k then (key, value) :: (k, v) :: rest
    else (k, v) :: insert key value rest

/-- Removes a key. -/
def erase (key : String) : Dict α → Dict α
  | [] => []
  | (k, v) :: rest => if k == key then rest else (k, v) :: erase key rest

/-- The dictionary of a list of entries; the last entry of a key counts. -/
def ofList (entries : List (String × α)) : Dict α :=
  entries.foldl (fun d (key, value) => insert key value d) []

/-- The keys in ascending order. -/
def keys (d : Dict α) : List String :=
  d.map (·.1)

end Dict

end FrameScript
