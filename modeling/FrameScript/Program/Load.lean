import FrameScript.Layout.Resolve
import FrameScript.Program.Basic
import FrameScript.Value.FromJson

set_option autoImplicit false

/-!
# Loading programs

Lays out the functions of a source and links them with the native units of a registry.

## Main definitions

* `LoadError` — why a source does not load: parts that do not fit together, which end the loading at
  once, or names that mean nothing, which are collected from all functions.
* `FunctionDecl.build` — the function of a declaration.
* `ConnectorDecl.actionDecl` — an action as a function that takes its connector first.
* `Program.load` — the program of a source.
* `Program.valueOfJson` — the value of a type that a document describes in a program.
-/

namespace FrameScript

/-! ## Errors -/

/-- Why a source does not load. -/
inductive LoadError
  /-- Parts that do not fit together. -/
  | fault (f : Fault)
  /-- Names that mean nothing, in all functions. -/
  | semantic (errors : List SemanticError)
  deriving DecidableEq, Repr

/-- The text of the error. -/
def LoadError.message : LoadError → String
  | .fault f => f.message
  | .semantic errors => SemanticError.messages errors

/-! ## Functions -/

/-- Records a size its author counted, if there is one, and then the one the layout needs. -/
def recordSizes (record : Nat → FrameSize → Except Fault FrameSize) (declared? : Option Nat)
    (needed : Nat) : Except Fault FrameSize := do
  let size ← match declared? with
    | some declared => record declared none
    | none => pure none
  record needed size

namespace FunctionDecl

/-- The identity of the function a declaration makes in a package. -/
def signature (package : String) (decl : FunctionDecl) : Signature :=
  ⟨decl.name, package, decl.visibility, decl.params, decl.returns⟩

/-- The function of a declaration in a package, or what is wrong with its names. The sizes its
author counted have to be those the layout needs. -/
def build (package : String) (decl : FunctionDecl) : Except LoadError Function :=
  let sig := decl.signature package
  match layOut decl.params decl.body with
  | .error found => .error (.semantic (found.map (⟨decl.name, ·⟩)))
  | .ok (layout, body) =>
    let sizes : Except Fault Function := do
      let unit := sig.qualifiedName
      let stackSize ← recordSizes (FrameSize.setOnce unit) decl.stackSize? layout.slots.length
      let tempSize ← recordSizes (FrameSize.setTemp unit) decl.tempSize? layout.temps
      pure { sig, body, layout, stackSize, tempSize }
    match sizes with
    | .ok f => .ok f
    | .error f => .error (.fault f)

end FunctionDecl

/-- The name of the parameter in which an action finds its connector. -/
def connectorParam : String := "self"

/-- An action as a function: it is named inside its connector and takes the connector first. -/
def ConnectorDecl.actionDecl (conn : ConnectorDecl) (action : FunctionDecl) : FunctionDecl :=
  { action with
    name := conn.name ++ "." ++ action.name
    params := ⟨connectorParam, .ref (.connector conn.name)⟩ :: action.params }

/-! ## Programs -/

namespace Program

/-- Adds a callable, unless its qualified name is taken. -/
def insertUnit (unit : Callable) (p : Program) : Except LoadError Program :=
  let key := unit.sig.qualifiedName
  if Dict.contains key p.units then .error (.fault (.wiring (.duplicateCallable key)))
  else .ok { p with units := Dict.insert key unit p.units }

/-- Adds the native units of a registry. -/
def insertNatives (natives : Registry) (p : Program) : Except LoadError Program :=
  natives.units.foldlM (fun p (_, unit) => p.insertUnit (.native unit)) p

/-- Adds a struct type, unless its name is taken. -/
def insertStruct (p : Program) (decl : StructDecl) : Except LoadError Program :=
  if Dict.contains decl.name p.structs then
    .error (.fault (.wiring (.duplicateStruct decl.name)))
  else .ok { p with structs := Dict.insert decl.name decl p.structs }

/-- Adds a function. If names in it mean nothing the errors join those found before, and the
function is left out. -/
def insertFunction (state : Program × List SemanticError) (decl : FunctionDecl) :
    Except LoadError (Program × List SemanticError) :=
  let (p, errors) := state
  match decl.build p.package with
  | .ok f => (p.insertUnit (.function f)).map (·, errors)
  | .error (.semantic found) => .ok (p, errors ++ found)
  | .error e => .error e

/-- Adds a connector with its actions, unless its name is taken. -/
def insertConnector (state : Program × List SemanticError) (conn : ConnectorDecl) :
    Except LoadError (Program × List SemanticError) := do
  if Dict.contains conn.name state.1.connectors then
    throw (.fault (.wiring (.duplicateConnector conn.name)))
  let (p, errors) ← (conn.actions.map conn.actionDecl).foldlM insertFunction state
  pure ({ p with connectors := Dict.insert conn.name conn.params p.connectors }, errors)

/-- The program of a source with the native units of a registry. -/
def load (source : Source) (natives : Registry) : Except LoadError Program := do
  let p ← insertNatives natives { package := source.package }
  let p ← source.structs.foldlM insertStruct p
  let state ← source.connectors.foldlM insertConnector (p, [])
  let (p, errors) ← source.functions.foldlM insertFunction state
  if errors.isEmpty then pure p else throw (.semantic errors)

/-- The value of a type that a document describes, with structs shaped by the declarations of the
program. -/
def valueOfJson (p : Program) (doc : Json) (ty : Ty) : Builder Value :=
  Value.ofJson p.structFields? doc ty

end Program

end FrameScript
