import FrameScript.Config.Basic
import FrameScript.Toml.Reader

set_option autoImplicit false

/-!
# Reading configurations

The settings of an engine are the entries of the table `runtime` of a TOML document. What is left
out is at its default, and entries that are no settings are passed over, as long as they can be
read.

## Main definitions

* `Config.ofToml?` — the configuration a document describes.
* `Config.parse?` — the configuration a text describes.
-/

namespace FrameScript

namespace Config

/-- A number of calls, which has to fit into 64 bits. -/
def size? : Toml → Option Nat
  | .int (.ofNat n) => if n < UInt64.size then some n else none
  | _ => none

/-- A truth value. -/
def switch? : Toml → Option Bool
  | .bool b => some b
  | _ => none

/-- A setting that may be left out. -/
def orDefault {α : Type} (default : α) (read : Toml → Option α) : Option Toml → Option α
  | none => some default
  | some t => read t

/-- The configuration with the given settings. -/
def ofSettings? (depth? check? trace? : Option Toml) : Option Config := do
  let maxCallDepth ← orDefault 256 size? depth?
  let checkSemantics ← orDefault true switch? check?
  let traceCalls ← orDefault false switch? trace?
  some { maxCallDepth, checkSemantics, traceCalls }

/-- Whether the entries of a table can be read, apart from those with the given keys. -/
def canPass (keys : List String) (entries : List (String × Toml)) : Bool :=
  Toml.entriesAreReadable (entries.filter fun (key, _) => !keys.contains key)

/-- The configuration that a value describes: a table, an array of the settings in order, or a date
or a time, which has no settings. -/
def ofSection? : Toml → Option Config
  | .table origin entries =>
    let t := Toml.table origin entries
    let keys := ["max_call_depth", "check_semantics", "trace_calls"]
    if canPass keys entries then
      ofSettings? (t.member? "max_call_depth") (t.member? "check_semantics")
        (t.member? "trace_calls")
    else none
  | .moment _ => some {}
  | t => t.items?.bind fun items => ofSettings? items[0]? items[1]? items[2]?

/-- The configuration a document describes. -/
def ofToml? : Toml → Option Config
  | .table origin entries =>
    if canPass ["runtime"] entries then
      orDefault {} ofSection? ((Toml.table origin entries).member? "runtime")
    else none
  | _ => none

/-- The configuration a text describes. -/
def parse? (s : String) : Option Config :=
  (Toml.parse? s).bind ofToml?

end Config

end FrameScript
