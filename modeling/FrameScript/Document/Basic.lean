import FrameScript.Json.Basic

set_option autoImplicit false

/-!
# Raw documents

What a reader of JSON or YAML text hands on: a tree in which repeated keys, the order of keys and
the spelling of scalars are still there. What a document means is up to whoever takes it apart, so
a scalar offers several readings and a part that nobody asks for may be unreadable.

## Main definitions

* `Scalar`, `Leaf` — a scalar by the text it may be taken as and the value it stands for.
* `Document` — a leaf, a list, a table or a reference to a node that is written elsewhere.
* `Document.text?`, `Document.int?`, `Document.float?`, `Document.bool?`, `Document.items?` — the
  readings.
* `Document.variant?` — a choice, written as its name or as a table with one entry.
* `Document.toJson?` — the free-form document.
* `Document.height`, `Document.size` — how deep and how large a document is.
-/

namespace FrameScript

/-! ## The tree -/

/-- What a scalar stands for. -/
inductive Scalar
  /-- The null scalar. -/
  | null
  /-- A truth value. -/
  | bool (b : Bool)
  /-- An integer. -/
  | int (n : Int)
  /-- A floating point number. -/
  | float (x : Float)
  /-- A text. -/
  | str (s : String)
  deriving BEq

/-- A scalar, by its readings. -/
structure Leaf where
  /-- The value it stands for, unless that is a number out of range. -/
  value? : Option Scalar
  /-- The text it has where a text is wanted. -/
  text? : Option String
  /-- The choice it is marked with. -/
  choice? : Option String
  /-- Whether it is written in quotes. A null in quotes does not count as absent. -/
  isQuoted : Bool := false
  deriving BEq

/-- A document as it is written. -/
inductive Document
  /-- A scalar. -/
  | leaf (l : Leaf)
  /-- A sequence. -/
  | list (items : List Document)
  /-- Entries in the order they are written, each a key with its value. -/
  | table (entries : List (Document × Document))
  /-- The node of the given number, which is written elsewhere. -/
  | reference (target : Nat)
  deriving BEq

namespace Document

instance : Inhabited Document := ⟨.list []⟩

/-! ## Building -/

/-- A scalar that stands for a value and is no text. -/
def ofScalar (v : Scalar) : Document :=
  .leaf { value? := some v, text? := none, choice? := none }

/-- A text. -/
def ofText (s : String) : Document :=
  .leaf { value? := some (.str s), text? := some s, choice? := none }

/-- A part of a document that has no reading. -/
def unreadable : Document :=
  .leaf { value? := none, text? := none, choice? := none }

/-- A table with the given keys. -/
def ofEntries (entries : List (String × Document)) : Document :=
  .table (entries.map fun (key, value) => (ofText key, value))

/-- A choice with its content. -/
def ofChoice (name : String) (content : Document) : Document :=
  .table [(ofText name, content)]

/-! ## Readings -/

/-- The text of a scalar. -/
def text? : Document → Option String
  | .leaf l => l.text?
  | _ => none

/-- The value of a scalar. -/
def scalar? : Document → Option Scalar
  | .leaf l => l.value?
  | _ => none

/-- Whether this is the null scalar. -/
def isNull (d : Document) : Bool :=
  d.scalar? == some .null

/-- Whether this stands for a part that is left out. -/
def isAbsent : Document → Bool
  | .leaf l => l.value? == some .null && !l.isQuoted
  | _ => false

/-- The integer a scalar stands for. -/
def int? (d : Document) : Option Int :=
  match d.scalar? with
  | some (.int n) => some n
  | _ => none

/-- The natural number a scalar stands for. -/
def nat? (d : Document) : Option Nat :=
  match d.scalar? with
  | some (.int (.ofNat n)) => some n
  | _ => none

/-- The truth value a scalar stands for. -/
def bool? (d : Document) : Option Bool :=
  match d.scalar? with
  | some (.bool b) => some b
  | _ => none

/-- The double nearest to an integer. -/
def floatOfInt (n : Int) : Float :=
  Float.ofInt n

/-- The number a scalar stands for, as a double. -/
def float? (d : Document) : Option Float :=
  match d.scalar? with
  | some (.float x) => some x
  | some (.int n) => some (floatOfInt n)
  | _ => none

/-- The items of a list. -/
def items? : Document → Option (List Document)
  | .list items => some items
  | _ => none

/-- A choice among `names`: its name alone, or its name with its content. -/
def variant? (names : List String) : Document → Option (String × Option Document)
  | .leaf l =>
    match l.choice? with
    | some name =>
      if names.contains name then some (name, some (.leaf l))
      else l.text?.map fun name => (name, none)
    | none => l.text?.map fun name => (name, none)
  | .table [(.leaf key, content)] => key.text?.map fun name => (name, some content)
  | _ => none

/-! ## Free-form documents -/

/-- The free-form document of a scalar. -/
def scalarToJson : Scalar → Json
  | .null => .null
  | .bool b => .bool b
  | .int n => .int n
  | .float x => Json.ofFloat x
  | .str s => .str s

mutual

/-- The free-form document, unless a part of it is unreadable or written elsewhere. -/
def toJson? : Document → Option Json
  | .leaf l => l.value?.map scalarToJson
  | .list items => (itemsToJson? items).map Json.arr
  | .table entries => (entriesToJson? entries).map Json.ofMembers
  | .reference _ => none

/-- The free-form documents of the items of a list. -/
def itemsToJson? : List Document → Option (List Json)
  | [] => some []
  | item :: items =>
    match toJson? item, itemsToJson? items with
    | some j, some js => some (j :: js)
    | _, _ => none

/-- The members of an object. -/
def entriesToJson? : List (Document × Document) → Option (List (String × Json))
  | [] => some []
  | (key, value) :: entries =>
    match key.text?, toJson? value, entriesToJson? entries with
    | some name, some j, some members => some ((name, j) :: members)
    | _, _, _ => none

end

/-! ## Measures -/

mutual

/-- How many levels of lists and tables a document has. -/
def height : Document → Nat
  | .leaf _ => 0
  | .list items => heightItems items + 1
  | .table entries => heightEntries entries + 1
  | .reference _ => 0

/-- The greatest height of the items of a list. -/
def heightItems : List Document → Nat
  | [] => 0
  | item :: items => max (height item) (heightItems items)

/-- The greatest height of the values of a table. -/
def heightEntries : List (Document × Document) → Nat
  | [] => 0
  | (_, value) :: entries => max (height value) (heightEntries entries)

end

mutual

/-- How many scalars, references, and starts and ends of lists and tables a document has. -/
def size : Document → Nat
  | .leaf _ => 1
  | .list items => sizeItems items + 2
  | .table entries => sizeEntries entries + 2
  | .reference _ => 1

/-- The sizes of the items of a list together. -/
def sizeItems : List Document → Nat
  | [] => 0
  | item :: items => size item + sizeItems items

/-- The sizes of the keys and values of a table together. -/
def sizeEntries : List (Document × Document) → Nat
  | [] => 0
  | (key, value) :: entries => size key + size value + sizeEntries entries

end

end Document

end FrameScript
