import FrameScript.Program.Registry

set_option autoImplicit false

/-!
# The system package

Native units that print and that read the properties of the call from outside.

## Main definitions

* `Library.system` — the package.
-/

namespace FrameScript

namespace Library

open Exec

/-- The name of the package. -/
def systemName : String := "ballerina.lang.system"

/-- Prints a line. -/
def println : Exec (List Value) := do
  let s ← stringArgument 0
  print (s ++ "\n")
  return []

/-- Prints a text. -/
def printText : Exec (List Value) := do
  let s ← stringArgument 0
  print s
  return []

/-- A property of the call; the empty text if it is not set. -/
def getProperty : Exec (List Value) := do
  let key ← stringArgument 0
  let text? ← property? key
  return [.str (text?.getD "")]

/-- The system package. -/
def system : NativePackage :=
  { name := systemName
    units := [
      .function systemName "println" [⟨"s", .string⟩] [] println,
      .function systemName "print" [⟨"s", .string⟩] [] printText,
      .function systemName "getProperty" [⟨"key", .string⟩] [.string] getProperty] }

end Library

end FrameScript
