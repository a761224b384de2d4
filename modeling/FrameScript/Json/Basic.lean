import FrameScript.Dict

set_option autoImplicit false

/-!
# Free-form documents

JSON values as a program holds them: numbers are integers or finite doubles, and the members of an
object are in ascending order of their names, each name once.

## Main definitions

* `FiniteFloat` — a double that is neither infinite nor undefined.
* `Json` — a JSON value.
* `Json.equals` — equality, as `==`: by contents, an integer never equalling a double.
* `Json.member?`, `Json.item?` — a member of an object and an item of an array.
-/

namespace FrameScript

/-- A finite double. -/
structure FiniteFloat where
  /-- The number. -/
  val : Float
  /-- It is neither infinite nor undefined. -/
  finite : val.isFinite = true

namespace FiniteFloat

instance : BEq FiniteFloat := ⟨fun x y => x.val == y.val⟩

/-- The finite double with the given value, if it is one. -/
def ofFloat? (x : Float) : Option FiniteFloat :=
  if h : x.isFinite = true then some ⟨x, h⟩ else none

end FiniteFloat

/-- A JSON value. -/
inductive Json
  /-- The null document. -/
  | null
  /-- A truth value. -/
  | bool (b : Bool)
  /-- A number written as an integer. -/
  | int (n : Int)
  /-- Any other number. -/
  | float (x : FiniteFloat)
  /-- A text. -/
  | str (s : String)
  /-- An array. -/
  | arr (items : List Json)
  /-- An object, by its members in ascending order of their names. -/
  | obj (members : List (String × Json))

namespace Json

instance : Inhabited Json := ⟨.null⟩

/-! ## Equality -/

mutual

/-- Equality of documents. -/
def equals : Json → Json → Bool
  | .null, .null => true
  | .bool b, .bool c => b == c
  | .int m, .int n => m == n
  | .float x, .float y => x == y
  | .str s, .str t => s == t
  | .arr items, .arr items' => equalsItems items items'
  | .obj members, .obj members' => equalsMembers members members'
  | _, _ => false

/-- Equality of items one by one. -/
def equalsItems : List Json → List Json → Bool
  | [], [] => true
  | item :: items, item' :: items' => item.equals item' && equalsItems items items'
  | _, _ => false

/-- Equality of members one by one. -/
def equalsMembers : List (String × Json) → List (String × Json) → Bool
  | [], [] => true
  | (name, value) :: members, (name', value') :: members' =>
    name == name' && value.equals value' && equalsMembers members members'
  | _, _ => false

end

instance : BEq Json := ⟨equals⟩

/-! ## Building and reading -/

/-- A double as a document; what is not finite has no JSON form and becomes null. -/
def ofFloat (x : Float) : Json :=
  match FiniteFloat.ofFloat? x with
  | some x => .float x
  | none => .null

/-- The object with the given members; the last member of a name counts. -/
def ofMembers (members : List (String × Json)) : Json :=
  .obj (Dict.ofList members)

/-- The member of an object with the given name. -/
def member? (name : String) : Json → Option Json
  | .obj members => Dict.find? name members
  | _ => none

/-- The item of an array at the given place. -/
def item? (index : Nat) : Json → Option Json
  | .arr items => items[index]?
  | _ => none

end Json

end FrameScript
