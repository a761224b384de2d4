import FrameScript.Decimal.FloatText
import FrameScript.Heap
import FrameScript.Json.Printer

set_option autoImplicit false

/-!
# Rendering values

Values as documents and as texts.

## Main definitions

* `Value.toJsonWithin`, `Value.toJson` — the document of a value. Objects may contain each other in
  a circle, so a value inside too many others is cut off.
* `Value.text` — what a program prints: scalars plainly, everything else as the text of its
  document.
-/

namespace FrameScript

namespace Value

/-- How many containers a value may lie in before it is cut off. -/
def renderDepth : Nat := 64

/-- The document of a value that may contain others down to the given depth. -/
def toJsonWithin (h : Heap) : Nat → Value → Json
  | 0, _ => .str "..."
  | depth + 1, v =>
    match v with
    | .int n => .int n.toInt
    | .float x => Json.ofFloat x
    | .bool b => .bool b
    | .str s => .str s
    | .null _ => .null
    | .array _ id => .arr ((h.array id).toList.map (toJsonWithin h depth))
    | .map id => .obj ((h.map id).map fun (key, v) => (key, toJsonWithin h depth v))
    | .struct _ id =>
      Json.ofMembers ((h.struct id).map fun (name, v) => (name, toJsonWithin h depth v))
    | .connector name _ => .obj [("connector", .str name)]
    | .message id => .str (h.message id)
    | .xml text => .str text
    | .json doc => doc

/-- The document of a value. -/
def toJson (h : Heap) (v : Value) : Json :=
  v.toJsonWithin h renderDepth

/-- The text of a double; numbers that are not finite are spelled out. -/
def floatText (x : Float) : String :=
  if x.isNaN then "NaN"
  else if x.isFinite then String.ofList (FloatStyle.plain.write x)
  else if x > 0.0 then "Infinity"
  else "-Infinity"

/-- The text of an integer. -/
def intText (n : Int64) : String :=
  String.ofList (Json.intText n.toInt)

/-- The text of a value. -/
def text (h : Heap) : Value → String
  | .int n => intText n
  | .float x => floatText x
  | .bool b => if b then "true" else "false"
  | .str s => s
  | .null _ => "null"
  | .xml text => text
  | .message id => h.message id
  | v => (v.toJson h).text

end Value

end FrameScript
