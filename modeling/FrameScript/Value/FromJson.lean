import FrameScript.Heap
import FrameScript.Integer
import FrameScript.Json.Printer
import FrameScript.Source.Basic

set_option autoImplicit false

/-!
# Values from documents

Builds the value of a declared type that a document describes.

## Main definitions

* `ConversionError` — why there is none.
* `Builder` — computations that make objects and may fail.
* `Value.ofJson` — the value of a type. Structs get all declared fields in their order, those that
  the document leaves out at their default; under `any` the document chooses the type.

## Implementation notes

The fields of a struct are read in the order of their declaration, not in the order of the members.
So the members are first turned into readers, each waiting for a type, and the declaration then
picks among these.
-/

namespace FrameScript

/-- Why a document describes no value of a type. -/
inductive ConversionError
  /-- The document does not have the form that the type asks for. -/
  | mismatch (doc : Json) (ty : Ty)
  /-- The struct type is not declared. -/
  | unknownStruct (name : String)
  /-- The struct type has no field of that name. -/
  | unknownField (struct field : String)

/-- The text of the error. -/
def ConversionError.message : ConversionError → String
  | .mismatch doc ty => s!"cannot convert {doc.text} to '{ty.text}'"
  | .unknownStruct name => s!"unknown struct '{name}'"
  | .unknownField struct field => s!"struct '{struct}' has no field '{field}'"

/-- Computations that make objects and may fail. -/
abbrev Builder : Type → Type := StateT Heap (Except ConversionError)

namespace Value

/-- Makes an object. -/
def make (new : Heap → Value × Heap) : Builder Value :=
  modifyGet new

/-- The first member that is no declared field. -/
def unknownMember? (fields : List Param) (names : List String) : Option String :=
  names.find? fun name => !fields.any (·.name == name)

/-- The fields of a struct, read in the order of their declaration. -/
def buildFields (readers : List (String × (Ty → Builder Value))) :
    List Param → Builder (List (String × Value))
  | [] => pure []
  | p :: ps => do
    let v ← match Dict.find? p.name readers with
      | some read => read p.ty
      | none => pure p.ty.default
    let rest ← buildFields readers ps
    pure ((p.name, v) :: rest)

/-- A struct from the readers of its members. -/
def buildStruct (structs : String → Option (List Param)) (name : String)
    (readers : List (String × (Ty → Builder Value))) : Builder Value := do
  match structs name with
  | none => throw (.unknownStruct name)
  | some decl =>
    match unknownMember? decl (readers.map (·.1)) with
    | some field => throw (.unknownField name field)
    | none =>
      let fields ← buildFields readers decl
      make (Heap.newStruct name fields)

variable (structs : String → Option (List Param))

/-- The value a document that is neither array nor object describes. -/
def ofScalarJson (doc : Json) (ty : Ty) : Builder Value :=
  match ty, doc with
  | .ref r, .null => pure (.null r)
  | .ref .json, doc => pure (.json doc)
  | .int, .int n =>
    match Integer.ofInt? n with
    | some n => pure (.int n)
    | none => throw (.mismatch doc ty)
  | .float, .int n => pure (.float (Float.ofInt n))
  | .float, .float x => pure (.float x.val)
  | .boolean, .bool b => pure (.bool b)
  | .string, .str s => pure (.str s)
  | .ref .xml, .str s => pure (.xml s)
  | .ref .message, .str s => make (Heap.newMessage s)
  | .any, .null => pure .bareNull
  | .any, .bool b => pure (.bool b)
  | .any, .int n =>
    match Integer.ofInt? n with
    | some n => pure (.int n)
    | none => pure (.float (Float.ofInt n))
  | .any, .float x => pure (.float x.val)
  | .any, .str s => pure (.str s)
  | _, _ => throw (.mismatch doc ty)

mutual

/-- The value of a type that a document describes. -/
def ofJson : Json → Ty → Builder Value
  | .arr items, ty =>
    match ty with
    | .ref (.array elem) => do
      let vs ← ofJsonItems items elem
      make (Heap.newArray elem vs.toArray)
    | .any => do
      let vs ← ofJsonItems items .any
      make (Heap.newArray .any vs.toArray)
    | ty => ofScalarJson (.arr items) ty
  | .obj members, ty =>
    match ty with
    | .ref .map => do
      let entries ← ofJsonMembers members
      make (Heap.newMap entries)
    | .any => do
      let entries ← ofJsonMembers members
      make (Heap.newMap entries)
    | .ref (.struct name) => buildStruct structs name (readers members)
    | ty => ofScalarJson (.obj members) ty
  | doc, ty => ofScalarJson doc ty

/-- The values of one type that the items of an array describe. -/
def ofJsonItems : List Json → Ty → Builder (List Value)
  | [], _ => pure []
  | item :: items, ty => do
    let v ← ofJson item ty
    let vs ← ofJsonItems items ty
    pure (v :: vs)

/-- The entries of a map. -/
def ofJsonMembers : List (String × Json) → Builder (List (String × Value))
  | [] => pure []
  | (name, value) :: members => do
    let v ← ofJson value .any
    let vs ← ofJsonMembers members
    pure ((name, v) :: vs)

/-- The members of an object as readers. -/
def readers : List (String × Json) → List (String × (Ty → Builder Value))
  | [] => []
  | (name, value) :: members => (name, ofJson value) :: readers members

end

end Value

end FrameScript
