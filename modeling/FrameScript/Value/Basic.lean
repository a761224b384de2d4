import FrameScript.Fault
import FrameScript.Integer
import FrameScript.Json.Basic

set_option autoImplicit false

/-!
# Values

What slots hold. Numbers, truth values and texts are copied; arrays, maps, structs, connectors and
messages are objects with an identity, and a value refers to one. What never changes about an object
is part of the reference, so the type of a value is known without looking at the object.

## Main definitions

* `Value` — the values, and `Value.ty`, their runtime types; a null has the type it is tagged with.
* `Ty.default` — what a fresh slot holds.
* `Value.declaredAs`, `Value.bind` — a value on its way into a slot of a declared type: nulls take
  the tag of the slot, and no null enters a slot of a value type.
* `Value.cast` — explicit conversion.
* `Value.equals` — equality: numbers by value, objects by identity, documents by content, nulls by
  compatibility of their tags.
-/

namespace FrameScript

/-! ## Values and their types -/

/-- A runtime value. -/
inductive Value
  /-- An integer. -/
  | int (n : Int64)
  /-- A floating point number. -/
  | float (x : Float)
  /-- A truth value. -/
  | bool (b : Bool)
  /-- A text. -/
  | str (s : String)
  /-- The null of a reference type. -/
  | null (tag : RefTy)
  /-- An array with elements of the given type. -/
  | array (elem : Ty) (id : Nat)
  /-- A map. -/
  | map (id : Nat)
  /-- A struct of the named type. -/
  | struct (name : String) (id : Nat)
  /-- A connector of the named type. -/
  | connector (name : String) (id : Nat)
  /-- A message. -/
  | message (id : Nat)
  /-- A markup document. -/
  | xml (text : String)
  /-- A free-form document. -/
  | json (doc : Json)
  deriving BEq

instance : Inhabited Value := ⟨.null .null⟩

namespace Value

/-- The bare null. -/
abbrev bareNull : Value := .null .null

/-- Whether the value is a null of some type. -/
def isNull : Value → Bool
  | .null _ => true
  | _ => false

/-- The runtime type. -/
def ty : Value → Ty
  | .int _ => .int
  | .float _ => .float
  | .bool _ => .boolean
  | .str _ => .string
  | .null tag => .ref tag
  | .array elem _ => .ref (.array elem)
  | .map _ => .ref .map
  | .struct name _ => .ref (.struct name)
  | .connector name _ => .ref (.connector name)
  | .message _ => .ref .message
  | .xml _ => .ref .xml
  | .json _ => .ref .json

/-! ## Readings -/

/-- The integer, if the value is one. -/
def int? : Value → Option Int64
  | .int n => some n
  | _ => none

/-- The number as a double, if the value is a number. -/
def float? : Value → Option Float
  | .float x => some x
  | .int n => some (Integer.toFloat n)
  | _ => none

/-- The truth value, if the value is one. -/
def bool? : Value → Option Bool
  | .bool b => some b
  | _ => none

/-- The text, if the value is one. -/
def str? : Value → Option String
  | .str s => some s
  | _ => none

end Value

/-! ## Slots -/

/-- What a fresh slot of a type holds. -/
def Ty.default : Ty → Value
  | .int => .int 0
  | .float => .float 0.0
  | .boolean => .bool false
  | .string => .str ""
  | .any => .bareNull
  | .ref r => .null r

namespace Value

/-- A null takes the tag of the reference type it is stored as, unless that is the type of the bare
null; any other value stays as it is. -/
def declaredAs (slot : Ty) (v : Value) : Value :=
  match slot, v with
  | .ref .null, v => v
  | .ref r, .null _ => .null r
  | _, v => v

/-- The value as it is stored in a slot; a null does not enter a slot of a value type. -/
def bind (slot : Ty) (v : Value) : Except Fault Value :=
  if slot.isValueType && v.isNull then .error (.analyzerDefect (.nullStored slot))
  else .ok (v.declaredAs slot)

/-! ## Conversion -/

/-- Converts a value to a type. A null becomes the null of the type; integers and doubles convert
into each other; everything else has to be accepted as it is. -/
def cast (target : Ty) (v : Value) : Except Fault Value :=
  let invalid := .error (.invalidCast v.ty target)
  match v, target with
  | .null tag, .any => .ok (.null tag)
  | .null _, .ref r => .ok (.null r)
  | .null _, _ => invalid
  | .int n, .float => .ok (.float (Integer.toFloat n))
  | .float x, .int =>
    match Integer.ofFloat? x with
    | some n => .ok (.int n)
    | none => invalid
  | v, target => if target.accepts v.ty then .ok v else invalid

/-! ## Equality -/

/-- Equality of doubles by value, except that an undefined number equals every undefined number. -/
def floatEquals (x y : Float) : Bool :=
  x == y || (x.isNaN && y.isNaN)

/-- Equality of values. -/
def equals : Value → Value → Bool
  | .int m, .int n => m == n
  | .float x, .float y => floatEquals x y
  | .int n, .float x => Integer.toFloat n == x
  | .float x, .int n => Integer.toFloat n == x
  | .bool b, .bool c => b == c
  | .str s, .str t => s == t
  | .null r, .null s => r.compatibleWith s
  | .array elem id, .array elem' id' => elem == elem' && id == id'
  | .map id, .map id' => id == id'
  | .struct name id, .struct name' id' => name == name' && id == id'
  | .connector name id, .connector name' id' => name == name' && id == id'
  | .message id, .message id' => id == id'
  | .xml s, .xml t => s == t
  | .json j, .json k => j == k
  | _, _ => false

end Value

end FrameScript
