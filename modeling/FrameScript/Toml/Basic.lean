import FrameScript.Dict

set_option autoImplicit false

/-!
# TOML documents

The values of a TOML document. Tables come about in several ways, and what may still be added to a
table depends on how it came about, so every table remembers that.

## Main definitions

* `TableOrigin` — how a table came about.
* `Toml` — a value, and `Toml.member?`, an entry of a table.
* `Toml.isReadable` — whether a value holds no number that is too large.
* `Toml.assign?`, `Toml.openTable?`, `Toml.openRow?` — what a key with its value, a header and a
  header in double brackets add to a document.
-/

namespace FrameScript

/-- How a table came about. -/
inductive TableOrigin
  /-- Written in one piece between braces. -/
  | braces
  /-- By a header of its own. -/
  | header
  /-- As part of the way to the table of another header. -/
  | passage
  /-- As part of the way that a dotted key describes. -/
  | dotted
  deriving DecidableEq, Repr

/-- A value of a document. -/
inductive Toml
  /-- A truth value. -/
  | bool (b : Bool)
  /-- An integer. -/
  | int (n : Int)
  /-- A floating point number. -/
  | float (x : Float)
  /-- A number that is too large to be read. -/
  | tooLarge
  /-- A text. -/
  | text (s : String)
  /-- A date, a time or both, as it is written. -/
  | moment (s : String)
  /-- An array written between brackets. -/
  | array (items : List Toml)
  /-- An array of tables with headers of their own, the latest first. -/
  | rows (tables : List Toml)
  /-- A table. -/
  | table (origin : TableOrigin) (entries : List (String × Toml))

namespace Toml

instance : Inhabited Toml := ⟨.table .header []⟩

/-- The entry of a table under a key. -/
def member? (key : String) : Toml → Option Toml
  | .table _ entries => Dict.find? key entries
  | _ => none

/-- The items of an array of either kind. -/
def items? : Toml → Option (List Toml)
  | .array items => some items
  | .rows tables => some tables.reverse
  | _ => none

mutual

/-- Whether a value holds no number that is too large. -/
def isReadable : Toml → Bool
  | .tooLarge => false
  | .array items => areReadable items
  | .rows tables => areReadable tables
  | .table _ entries => entriesAreReadable entries
  | _ => true

/-- Whether all values hold no number that is too large. -/
def areReadable : List Toml → Bool
  | [] => true
  | t :: ts => isReadable t && areReadable ts

/-- Whether the values of all entries hold no number that is too large. -/
def entriesAreReadable : List (String × Toml) → Bool
  | [] => true
  | (_, t) :: entries => isReadable t && entriesAreReadable entries

end

/-! ## Growing documents -/

/-- Whether a dotted key may lead through a table that is there already. -/
def TableOrigin.isOpen : TableOrigin → Bool
  | .passage | .dotted => true
  | .braces | .header => false

/-- Changes the table at the end of a path from a table. Tables that are missing on the way are
made, through an array of tables the path leads into the latest of them. A table between braces is
closed to every path, and one with a header is closed to dotted keys. -/
def within (dotted : Bool) (change : Toml → Option Toml) : List String → Toml → Option Toml
  | [], t => change t
  | key :: path, .table origin entries =>
    let child? : Option Toml :=
      match Dict.find? key entries with
      | none => within dotted change path (.table (if dotted then .dotted else .passage) [])
      | some (.rows (row :: older)) =>
        (within dotted change path row).map fun row => .rows (row :: older)
      | some (.table childOrigin members) =>
        if childOrigin == .braces || (dotted && !TableOrigin.isOpen childOrigin) then none
        else within dotted change path (.table childOrigin members)
      | some _ => none
    child?.map fun child => .table origin (Dict.insert key child entries)
  | _, _ => none

/-- Puts a value under a key that is free. A key behind dots needs a table made by dotted keys. -/
def put (dotted : Bool) (key : String) (value : Toml) : Toml → Option Toml
  | .table origin entries =>
    if dotted && origin != .dotted then none
    else if Dict.contains key entries then none
    else some (.table origin (Dict.insert key value entries))
  | _ => none

/-- Adds a value under a dotted key, seen from a table. -/
def assign? (t : Toml) (path : List String) (key : String) (value : Toml) : Option Toml :=
  within true (put (!path.isEmpty) key value) path t

/-- Adds the table of a header. A table that was only passed on the way to others may get its header
later. -/
def openTable? (t : Toml) (path : List String) (key : String) : Option Toml :=
  let add : Toml → Option Toml
    | .table origin entries =>
      match Dict.find? key entries with
      | none => some (.table origin (Dict.insert key (.table .header []) entries))
      | some (.table .passage members) =>
        some (.table origin (Dict.insert key (.table .header members) entries))
      | some _ => none
    | _ => none
  within false add path t

/-- Adds a further table of an array of tables. -/
def openRow? (t : Toml) (path : List String) (key : String) : Option Toml :=
  let add : Toml → Option Toml
    | .table origin entries =>
      let row := .table .header []
      match Dict.find? key entries with
      | none => some (.table origin (Dict.insert key (.rows [row]) entries))
      | some (.rows older) => some (.table origin (Dict.insert key (.rows (row :: older)) entries))
      | some _ => none
    | _ => none
  within false add path t

end Toml

end FrameScript
