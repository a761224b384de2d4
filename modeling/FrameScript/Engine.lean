import FrameScript.Check.Program
import FrameScript.Config.Basic
import FrameScript.Library.Standard
import FrameScript.Machine.Call
import FrameScript.Program.Load

set_option autoImplicit false

/-!
# Engines

A loaded program with its configuration, ready to be called from outside. Every call has a context
of its own, so calls know nothing of each other.

## Main definitions

* `Engine` — a program and its configuration, and `Engine.start`, which analyses the program first.
* `Engine.machine` — the state in front of a call.
* `Engine.invoke` — a call by name.
* `Program.paramType` — the type an argument from outside is read as.
* `Program.readArgs` — the values of such arguments.
-/

namespace FrameScript

/-- A program that is ready to be called. -/
structure Engine where
  /-- The program. -/
  program : Program
  /-- The settings. -/
  config : Config

namespace Engine

/-- The engine of a program, unless the configuration asks for the analysis and that finds
something. -/
def start (program : Program) (config : Config) : Except (List SemanticError) Engine :=
  if config.checkSemantics then
    match program.check with
    | [] => .ok ⟨program, config⟩
    | errors => .error errors
  else .ok ⟨program, config⟩

/-- The state in front of a call. -/
def machine (e : Engine) (heap : Heap) (properties : Dict String) : Machine :=
  { heap, context := { maxDepth := e.config.maxCallDepth, properties } }

/-- Calls a function or a native unit by name. -/
def invoke (e : Engine) (name : String) (args : List Value) (heap : Heap := {})
    (properties : Dict String := []) : Except Stop (List Value) × Machine :=
  (callByName e.program name args).run.run (e.machine heap properties)

end Engine

namespace Program

/-- The type that the argument at a place of a call from outside is read as: the declared one, and
`any` where nothing is declared. -/
def paramType (p : Program) (name : String) (index : Nat) : Ty :=
  match p.find? name with
  | some unit => unit.sig.paramTypes[index]?.getD .any
  | none => .any

/-- The values of the arguments of a call from outside, the first of which is at `index`. -/
def readArgs (p : Program) (name : String) (index : Nat) : List Json → Builder (List Value)
  | [] => pure []
  | doc :: docs => do
    let v ← p.valueOfJson doc (p.paramType name index)
    let vs ← readArgs p name (index + 1) docs
    pure (v :: vs)

end Program

end FrameScript
