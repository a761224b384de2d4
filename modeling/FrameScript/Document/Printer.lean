import FrameScript.Document.Basic
import FrameScript.Json.Printer

set_option autoImplicit false

/-!
# Printing raw documents

The compact JSON text of a raw document, with keys in the order they stand in the tree.

## Main definitions

* `Document.write` — the text of a document in front of a given text.
* `Document.jsonText` — the text of a document.
-/

namespace FrameScript

namespace Document

mutual

/-- The JSON text of a document, in front of `rest`. What has no value, or is written elsewhere, is
written as null. -/
def write : Document → List Char → List Char
  | .leaf l, rest => (scalarToJson (l.value?.getD .null)).write rest
  | .list [], rest => '[' :: ']' :: rest
  | .list (item :: items), rest => '[' :: write item (writeItems items (']' :: rest))
  | .table [], rest => '{' :: '}' :: rest
  | .table ((key, value) :: entries), rest =>
    '{' :: Json.writeString (key.text?.getD "")
      (':' :: write value (writeEntries entries ('}' :: rest)))
  | .reference _, rest => Json.null.write rest

/-- The items of a list behind its first, each after a comma. -/
def writeItems : List Document → List Char → List Char
  | [], rest => rest
  | item :: items, rest => ',' :: write item (writeItems items rest)

/-- The entries of a table behind its first, each after a comma. -/
def writeEntries : List (Document × Document) → List Char → List Char
  | [], rest => rest
  | (key, value) :: entries, rest =>
    ',' :: Json.writeString (key.text?.getD "") (':' :: write value (writeEntries entries rest))

end

/-- The compact JSON text of a document. -/
def jsonText (d : Document) : String :=
  String.ofList (d.write [])

end Document

end FrameScript
