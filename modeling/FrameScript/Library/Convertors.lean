import FrameScript.Json.Reader
import FrameScript.Program.Registry
import FrameScript.Value.Render

set_option autoImplicit false

/-!
# The convertors package

Type mappers between strings and documents. Markup is not looked into.

## Main definitions

* `Library.convertors` — the package.
-/

namespace FrameScript

namespace Library

open Exec

/-- The name of the package. -/
def convertorsName : String := "ballerina.lang.convertors"

/-- The compact text of a document. -/
def jsonToString : Exec Value := do
  match ← argument 0 with
  | .json doc => return .str doc.text
  | other =>
    let found := other.ty.text
    hostError s!"jsonToString expects 'json', got '{found}'"

/-- The text of a markup document. -/
def xmlToString : Exec Value := do
  match ← argument 0 with
  | .xml text => return .str text
  | other =>
    let found := other.ty.text
    hostError s!"xmlToString expects 'xml', got '{found}'"

/-- The document of a text. -/
def stringToJson : Exec Value := do
  let s ← stringArgument 0
  match Json.parse? s with
  | some doc => return .json doc
  | none => hostError "stringToJson: invalid JSON"

/-- A markup document with the given text. -/
def stringToXml : Exec Value := do
  let s ← stringArgument 0
  return .xml s

/-- The convertors package. -/
def convertors : NativePackage :=
  { name := convertorsName
    units := [
      .typeMapper convertorsName "jsonToString" (.ref .json) .string jsonToString,
      .typeMapper convertorsName "xmlToString" (.ref .xml) .string xmlToString,
      .typeMapper convertorsName "stringToJson" .string (.ref .json) stringToJson,
      .typeMapper convertorsName "stringToXml" .string (.ref .xml) stringToXml] }

end Library

end FrameScript
