import FrameScript.Document.Basic

set_option autoImplicit false

/-!
# Taking documents apart

How values are read from raw documents. A reference stands for the node it leads to, which may lie
around the reference itself. So references are followed only where something is read, and how many
may be followed is limited, as is how many lists and tables may be read inside each other.

## Main definitions

* `LinkedDocument` — a document with the nodes its references lead to, and the limits.
* `Decoder` — computations that take documents apart.
* `Decoder.nested` — computations inside a list or a table.
* `Document.follow` — what a reference stands for.
* `Document.text`, `Document.value`, `Document.listOf`, `Document.record`, `Document.variant` — the
  readings, each of which follows references.
* `Document.json` — the free-form document.

## Implementation notes

Nested values are read with fuel. Each value lies in a proper part of the one around it, or a
reference in such a part was followed, so a document can be entered no deeper than `reach` tells.
-/

namespace FrameScript

/-- A document with what it takes to read it. -/
structure LinkedDocument where
  /-- The document. -/
  root : Document
  /-- The nodes that references lead to. All are parts of the document. -/
  targets : Array Document := #[]
  /-- How many references may be followed. -/
  maxJumps : Nat := 0
  /-- How many lists and tables may be read inside each other, if there is a limit. -/
  maxNesting? : Option Nat := none

namespace Decoder

/-- What surrounds a computation. -/
structure Scope where
  /-- The nodes that references lead to. -/
  targets : Array Document
  /-- How many references may be followed. -/
  maxJumps : Nat
  /-- How many lists and tables may still be entered, if there is a limit. -/
  room? : Option Nat
  /-- How many values can lie around each other. -/
  reach : Nat

end Decoder

/-- Computations that take documents apart and may fail. The state counts the references that were
followed. -/
abbrev Decoder : Type → Type := ReaderT Decoder.Scope (StateT Nat Option)

namespace Decoder

variable {α : Type}

/-- How many values can lie around each other. -/
def reach : Decoder Nat := do
  return (← read).reach

/-- A computation inside a list or a table. -/
def nested (inside : Decoder α) : Decoder α := do
  match (← read).room? with
  | none => inside
  | some 0 => failure
  | some (room + 1) => withReader ({ · with room? := some room }) inside

/-- A part that has to be there. -/
def required (decode : Document → Decoder α) : Option Document → Decoder α
  | none => failure
  | some d => decode d

/-- A part that has a default if it is missing. -/
def orDefault (default : α) (decode : Document → Decoder α) : Option Document → Decoder α
  | none => pure default
  | some d => decode d

end Decoder

/-- What `decode` reads from a document. -/
def LinkedDocument.decode? {α : Type} (decode : Document → Decoder α) (d : LinkedDocument) :
    Option α :=
  let reach := (d.maxJumps + 1) * (d.root.height + 1)
  ((decode d.root).run ⟨d.targets, d.maxJumps, d.maxNesting?, reach⟩ 0).map (·.1)

namespace Document

variable {α : Type}

/-- What `decode` reads from a document without references. -/
def decode? (decode : Document → Decoder α) (d : Document) : Option α :=
  LinkedDocument.decode? decode { root := d }

/-! ## Scalars -/

/-- What a reference stands for. Everything else stands for itself. -/
def follow : Document → Decoder Document
  | .reference target => do
    let scope ← read
    let jumps ← get
    if jumps < scope.maxJumps then do
      set (jumps + 1)
      scope.targets[target]?
    else failure
  | d => pure d

/-- Reads a part by one of the readings of documents. -/
def value (reading : Document → Option α) (d : Document) : Decoder α := do
  reading (← d.follow)

/-- Reads a text. -/
def text (d : Document) : Decoder String :=
  d.value text?

/-- Reads a null. -/
def null (d : Document) : Decoder Unit := do
  guard (← d.follow).isNull

/-- Reads a part that may be absent. -/
def orAbsent (decode : Document → Decoder α) : Option Document → Decoder (Option α)
  | none => pure none
  | some d => do
    let d ← d.follow
    if d.isAbsent then pure none else some <$> decode d

/-! ## Lists and tables -/

/-- Reads the items of a list by `inside`. -/
def items (inside : List Document → Decoder α) (d : Document) : Decoder α := do
  let parts ← d.value items?
  Decoder.nested (inside parts)

/-- Reads a list whose items are all read by `decode`. -/
def listOf (decode : Document → Decoder α) (d : Document) : Decoder (List α) :=
  d.items (·.mapM decode)

/-- Reads a pair of a name and a part, written as a list of two. -/
def named (decode : Document → Decoder α) : Document → Decoder (String × α) :=
  items fun
    | [name, part] => do return (← name.text, ← decode part)
    | _ => failure

/-- Whether `name` is the key of more than one entry. -/
def isRepeated (name : String) (entries : List (String × Document)) : Bool :=
  (entries.filter (·.1 == name)).length > 1

/-- The value of the first entry with the given key. -/
def valueOf? (name : String) (entries : List (String × Document)) : Option Document :=
  (entries.find? (·.1 == name)).map (·.2)

/-- Reads a record whose fields are `names`, by their values, some of which may be missing. A table
may have further keys, which are passed over; a key that is no text or a repeated field is an error.
A list holds the fields in order and may end early. -/
def record (names : List String) (inside : List (Option Document) → Decoder α) (d : Document) :
    Decoder α := do
  match ← d.follow with
  | .list items =>
    if items.length ≤ names.length then
      Decoder.nested
        (inside (items.map some ++ List.replicate (names.length - items.length) none))
    else failure
  | .table entries => Decoder.nested do
    let keyed ← entries.mapM fun (key, value) => do return (← key.text, value)
    if names.any (isRepeated · keyed) then failure
    else inside (names.map (valueOf? · keyed))
  | _ => failure

/-! ## Choices -/

/-- Reads a choice among `names`, by its name and its content, if it has one. -/
def variant (names : List String) (d : Document) : Decoder (String × Option Document) :=
  d.value (variant? names)

/-- Reads a choice without content, by its name or as a table with a null. -/
def bareVariant (names : List String) (d : Document) : Decoder String := do
  let (name, content?) ← d.variant names
  guard (names.contains name)
  match content? with
  | none => pure name
  | some content => do
    content.null
    return name

/-! ## Free-form documents -/

/-- Puts what they stand for in the place of all references in a document. -/
def resolve : Nat → Document → Decoder Document
  | 0, _ => failure
  | fuel + 1, d => do
    match ← d.follow with
    | .list items => Decoder.nested do return .list (← items.mapM (resolve fuel))
    | .table entries => Decoder.nested do
      return .table (← entries.mapM fun (key, value) => do
        return (← key.follow, ← resolve fuel value))
    | d => pure d

/-- Reads a free-form document. -/
def json (d : Document) : Decoder Json := do
  (← resolve (← Decoder.reach) d).toJson?

end Document

end FrameScript
