set_option autoImplicit false

/-!
# The log

What happens while a command runs is noted down in lines of several levels; a filter decides which
of them are shown.

## Main definitions

* `LogLevel`, `LogLine` — the lines.
* `LogFilter.ofText?`, `LogFilter.choose` — the filter that settings describe.
* `LogFilter.shows` — whether a filter shows a line.
-/

namespace FrameScript

/-- How much attention a line asks for. -/
inductive LogLevel
  /-- Something failed for good. -/
  | error
  /-- Something failed. -/
  | warn
  /-- A milestone. -/
  | info
  /-- A detail. -/
  | debug
  /-- A minor detail. -/
  | trace
  deriving DecidableEq, Repr

/-- A line of the log. -/
structure LogLine where
  /-- Its level. -/
  level : LogLevel
  /-- What happened. -/
  text : String
  deriving DecidableEq, Repr

/-- How detailed the lines of a level are. -/
def LogLevel.detail : LogLevel → Nat
  | .error => 1
  | .warn => 2
  | .info => 3
  | .debug => 4
  | .trace => 5

/-- The least detail that is shown. -/
structure LogFilter where
  /-- Lines up to this detail are shown. -/
  detail : Nat
  deriving DecidableEq, Repr

namespace LogFilter

/-- The filter where nothing is set. -/
def standard : LogFilter :=
  ⟨LogLevel.warn.detail⟩

/-- The filter that the name or the number of a level describes. -/
def ofLevel? (s : String) : Option LogFilter :=
  match String.ofList (s.toList.map Char.toLower) with
  | "off" | "0" => some ⟨0⟩
  | "error" | "1" => some ⟨1⟩
  | "warn" | "2" => some ⟨2⟩
  | "info" | "3" => some ⟨3⟩
  | "debug" | "4" => some ⟨4⟩
  | "trace" | "5" => some ⟨5⟩
  | _ => none

/-- The filter that a setting describes: a level, or a level for another part of the world, which
leaves nothing to show here. -/
def ofText? (s : String) : Option LogFilter :=
  if s.isEmpty then some ⟨LogLevel.error.detail⟩
  else
    match s.splitOn "=" with
    | [level] => some ((ofLevel? level).getD ⟨0⟩)
    | [_, level] => (ofLevel? level).map fun _ => ⟨0⟩
    | _ => none

/-- The filter of the first setting that is there; a setting that describes none counts as if
nothing was set. -/
def choose (settings : List (Option String)) : LogFilter :=
  ((settings.findSome? id).bind ofText?).getD standard

/-- Whether a line is shown. -/
def shows (f : LogFilter) (line : LogLine) : Bool :=
  line.level.detail ≤ f.detail

end LogFilter

end FrameScript
