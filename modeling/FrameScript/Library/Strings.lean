import FrameScript.Program.Registry
import FrameScript.Text.Casing
import FrameScript.Value.Render

set_option autoImplicit false

/-!
# The string package

Native units that make strings of other values and look into strings.

## Main definitions

* `Library.strings` — the package.
-/

namespace FrameScript

namespace Library

open Exec

/-- The name of the package. -/
def stringsName : String := "ballerina.lang.string"

/-- Whether `part` lies at the front of a text. -/
def startsWith : List Char → List Char → Bool
  | [], _ => true
  | _ :: _, [] => false
  | p :: part, c :: cs => p == c && startsWith part cs

/-- Whether `part` lies anywhere in a text. -/
def occursIn (part : List Char) : List Char → Bool
  | [] => part.isEmpty
  | c :: cs => startsWith part (c :: cs) || occursIn part cs

/-- The text of an integer. -/
def valueOf : Exec (List Value) := do
  let n ← intArgument 0
  return [.str (Value.intText n)]

/-- The text of a double. -/
def floatValueOf : Exec (List Value) := do
  let x ← floatArgument 0
  return [.str (Value.floatText x)]

/-- The text of a truth value. -/
def booleanValueOf : Exec (List Value) := do
  let b ← boolArgument 0
  return [.str (if b then "true" else "false")]

/-- The number of characters. -/
def stringLength : Exec (List Value) := do
  let s ← stringArgument 0
  return [.int (Int64.ofNat s.length)]

/-- The text in upper case. -/
def toUpperCase : Exec (List Value) := do
  let s ← stringArgument 0
  return [.str (Text.upper s)]

/-- The text in lower case. -/
def toLowerCase : Exec (List Value) := do
  let s ← stringArgument 0
  return [.str (Text.lower s)]

/-- Whether the second text lies in the first. -/
def stringContains : Exec (List Value) := do
  let s ← stringArgument 0
  let part ← stringArgument 1
  return [.bool (occursIn part.toList s.toList)]

/-- The string package. -/
def strings : NativePackage :=
  { name := stringsName
    units := [
      .function stringsName "valueOf" [⟨"i", .int⟩] [.string] valueOf,
      .function stringsName "floatValueOf" [⟨"f", .float⟩] [.string] floatValueOf,
      .function stringsName "booleanValueOf" [⟨"b", .boolean⟩] [.string] booleanValueOf,
      .function stringsName "length" [⟨"s", .string⟩] [.int] stringLength,
      .function stringsName "toUpperCase" [⟨"s", .string⟩] [.string] toUpperCase,
      .function stringsName "toLowerCase" [⟨"s", .string⟩] [.string] toLowerCase,
      .function stringsName "contains" [⟨"s", .string⟩, ⟨"sub", .string⟩] [.boolean]
        stringContains] }

end Library

end FrameScript
