import FrameScript.Dict
import FrameScript.Value.Basic

set_option autoImplicit false

/-!
# The heap

The objects that values refer to, by their identities. Objects of one kind are numbered in the order
they are made, and none is ever removed.

## Main definitions

* `Heap` — the objects.
* `Heap.array`, `Heap.map`, `Heap.struct`, `Heap.connector`, `Heap.message` — the content of an
  object.
* `Heap.newArray`, `Heap.newMap`, … — a new object, as the value that refers to it.
* `Heap.setArray`, `Heap.setMap`, `Heap.setStruct` — new content for an object.
-/

namespace FrameScript

/-- The objects of a run. -/
structure Heap where
  /-- The elements of the arrays. -/
  arrays : Array (Array Value) := #[]
  /-- The entries of the maps. -/
  maps : Array (Dict Value) := #[]
  /-- The fields of the structs, in the order they are declared. -/
  structs : Array (List (String × Value)) := #[]
  /-- The values connectors are built from. -/
  connectors : Array (List Value) := #[]
  /-- The payloads of the messages. -/
  messages : Array String := #[]
  deriving BEq

namespace Heap

instance : Inhabited Heap := ⟨{}⟩

/-! ## Reading -/

/-- The elements of an array. -/
def array (h : Heap) (id : Nat) : Array Value :=
  h.arrays[id]?.getD #[]

/-- The entries of a map. -/
def map (h : Heap) (id : Nat) : Dict Value :=
  h.maps[id]?.getD []

/-- The fields of a struct. -/
def struct (h : Heap) (id : Nat) : List (String × Value) :=
  h.structs[id]?.getD []

/-- The values a connector is built from. -/
def connector (h : Heap) (id : Nat) : List Value :=
  h.connectors[id]?.getD []

/-- The payload of a message. -/
def message (h : Heap) (id : Nat) : String :=
  h.messages[id]?.getD ""

/-! ## New objects -/

/-- A new array. -/
def newArray (elem : Ty) (items : Array Value) (h : Heap) : Value × Heap :=
  (.array elem h.arrays.size, { h with arrays := h.arrays.push items })

/-- A new map. -/
def newMap (entries : Dict Value) (h : Heap) : Value × Heap :=
  (.map h.maps.size, { h with maps := h.maps.push entries })

/-- A new struct. -/
def newStruct (name : String) (fields : List (String × Value)) (h : Heap) : Value × Heap :=
  (.struct name h.structs.size, { h with structs := h.structs.push fields })

/-- A new connector. -/
def newConnector (name : String) (args : List Value) (h : Heap) : Value × Heap :=
  (.connector name h.connectors.size, { h with connectors := h.connectors.push args })

/-- A new message. -/
def newMessage (payload : String) (h : Heap) : Value × Heap :=
  (.message h.messages.size, { h with messages := h.messages.push payload })

/-! ## Changed objects -/

/-- Changes the elements of an array. -/
def setArray (id : Nat) (change : Array Value → Array Value) (h : Heap) : Heap :=
  { h with arrays := h.arrays.modify id change }

/-- Changes the entries of a map. -/
def setMap (id : Nat) (change : Dict Value → Dict Value) (h : Heap) : Heap :=
  { h with maps := h.maps.modify id change }

/-- Changes the fields of a struct. -/
def setStruct (id : Nat) (change : List (String × Value) → List (String × Value)) (h : Heap) :
    Heap :=
  { h with structs := h.structs.modify id change }

end Heap

/-! ## Contents -/

/-- The element of an array at an index. -/
def Heap.element (items : Array Value) (index : Int64) : Except Fault Value :=
  match index.toInt with
  | .ofNat i =>
    match items[i]? with
    | some v => .ok v
    | none => .error (.indexOutOfRange index items.size)
  | .negSucc _ => .error (.indexOutOfRange index items.size)

/-- Stores an element; past the end the array grows with the default of its element type. -/
def Heap.withElement (elem : Ty) (index : Nat) (v : Value) (items : Array Value) : Array Value :=
  if index < items.size then items.setIfInBounds index v
  else (items ++ Array.replicate (index - items.size) elem.default).push v

/-- The first field of a name. -/
def Heap.field? (name : String) (fields : List (String × Value)) : Option Value :=
  (fields.find? (·.1 == name)).map (·.2)

/-- Stores a value in the first field of a name. -/
def Heap.withField (name : String) (v : Value) : List (String × Value) → List (String × Value)
  | [] => []
  | (n, old) :: rest => if n == name then (n, v) :: rest else (n, old) :: withField name v rest

end FrameScript
