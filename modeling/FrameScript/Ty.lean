import FrameScript.Text.CharClass

set_option autoImplicit false

/-!
# Declared types

The types of slots, parameters, results and expressions, how they are written, and which type may
be stored where.

## Main definitions

* `Ty`, `RefTy` — value types, the top type `any`, and the reference types. Only references may be
  null, and a null is tagged with a `RefTy`.
* `Ty.accepts` — assignment compatibility.
* `Ty.comparableWith` — which types `==` and `!=` may meet.
* `Ty.text`, `Ty.parse?` — the written form of a type and its reader.
-/

namespace FrameScript

/-! ## Types -/

mutual

/-- A declared type. -/
inductive Ty
  /-- 64-bit integers. -/
  | int
  /-- 64-bit floating point numbers. -/
  | float
  /-- Truth values. -/
  | boolean
  /-- Texts. -/
  | string
  /-- The top type; a slot of this type may hold anything, null included. -/
  | any
  /-- A reference type. -/
  | ref (r : RefTy)
  deriving DecidableEq, Repr

/-- A reference type; each has a null of its own. -/
inductive RefTy
  /-- Arrays of one element type. -/
  | array (elem : Ty)
  /-- Maps from strings to values of any type. -/
  | map
  /-- A declared struct. -/
  | struct (name : String)
  /-- A declared connector. -/
  | connector (name : String)
  /-- Messages. -/
  | message
  /-- Markup documents, which are opaque texts. -/
  | xml
  /-- Free-form documents. -/
  | json
  /-- The type of the `null` literal. -/
  | null
  deriving DecidableEq, Repr

end

namespace Ty

instance : Inhabited Ty := ⟨.any⟩

/-- Arrays with elements of the given type. -/
abbrev arrayOf (elem : Ty) : Ty :=
  .ref (.array elem)

/-! ## Kinds of types -/

/-- The types whose values are copied and never null. -/
def isValueType : Ty → Bool
  | .int | .float | .boolean | .string => true
  | .any | .ref _ => false

/-- Whether a slot of this type may hold a null. -/
def isNullable (ty : Ty) : Bool :=
  !ty.isValueType

/-- The type of the `null` literal. -/
def isNullLiteral : Ty → Bool
  | .ref .null => true
  | _ => false

/-- The number types. -/
def isNumeric : Ty → Bool
  | .int | .float => true
  | _ => false

end Ty

/-! ## Compatibility -/

/-- Nulls of these two reference types may be compared: the types are equal, or one of them is the
type of the bare `null`. -/
def RefTy.compatibleWith (r s : RefTy) : Bool :=
  r == s || r == .null || s == .null

namespace Ty

/-- Whether a value of type `found` may be stored in a slot of type `slot` without a cast. `any`
takes everything, a reference type takes the bare null, and an array of `any` takes every array. -/
def accepts (slot found : Ty) : Bool :=
  slot == found || slot == .any ||
    match slot, found with
    | .ref _, .ref .null => true
    | .ref (.array expected), .ref (.array actual) => expected == .any || expected == actual
    | _, _ => false

/-- Whether expressions of these types may be compared with `==` and `!=`. -/
def comparableWith : Ty → Ty → Bool
  | .any, _ => true
  | _, .any => true
  | .ref r, .ref s => r.compatibleWith s
  | s, t => (s.isNumeric && t.isNumeric) || s == t

end Ty

/-! ## Written form -/

mutual

/-- The written form of a type. -/
def Ty.text : Ty → String
  | .int => "int"
  | .float => "float"
  | .boolean => "boolean"
  | .string => "string"
  | .any => "any"
  | .ref r => r.text

/-- The written form of a reference type. -/
def RefTy.text : RefTy → String
  | .array elem => elem.text ++ "[]"
  | .map => "map"
  | .struct name => name
  | .connector name => "connector " ++ name
  | .message => "message"
  | .xml => "xml"
  | .json => "json"
  | .null => "null"

end

namespace Ty

/-- The types whose written form is a reserved word. -/
def ofKeyword? : String → Option Ty
  | "int" => some .int
  | "float" => some .float
  | "boolean" => some .boolean
  | "string" => some .string
  | "any" => some .any
  | "map" => some (.ref .map)
  | "json" => some (.ref .json)
  | "xml" => some (.ref .xml)
  | "message" => some (.ref .message)
  | "null" => some (.ref .null)
  | _ => none

/-- The text after `mark`, if `cs` starts with it. -/
def after? : List Char → List Char → Option (List Char)
  | [], cs => some cs
  | _ :: _, [] => none
  | m :: mark, c :: cs => if m == c then after? mark cs else none

/-- Reads a type that is no array from its text without white space around it. A name that is no
reserved word is the name of a struct. -/
def parseElement? (cs : List Char) : Option Ty :=
  match after? "connector ".toList cs with
  | some rest =>
    let name := Text.trim rest
    if Text.isIdentifier name then some (.ref (.connector (String.ofList name))) else none
  | none =>
    match ofKeyword? (String.ofList cs) with
    | some ty => some ty
    | none => if Text.isIdentifier cs then some (.ref (.struct (String.ofList cs))) else none

/-- Reads a type from its characters in reverse order: white space at the end is passed over, and
each `[]` wraps the type in front of it. -/
def parseReversed? : List Char → Option Ty
  | [] => none
  | c :: before =>
    if Text.isWhiteSpace c then parseReversed? before
    else match c, before with
      | ']', '[' :: element => (parseReversed? element).map arrayOf
      | _, _ => parseElement? (Text.trimStart (c :: before).reverse)

/-- Reads a type from its written form, with white space allowed around it and around the elements
of arrays. -/
def parse? (s : String) : Option Ty :=
  parseReversed? s.toList.reverse

end Ty

end FrameScript
