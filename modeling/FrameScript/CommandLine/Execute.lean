import FrameScript.CommandLine.Log
import FrameScript.CommandLine.Request
import FrameScript.Config.Read
import FrameScript.Engine
import FrameScript.Value.Render
import FrameScript.Yaml.Reader

set_option autoImplicit false

/-!
# Executing commands

What a command prints, what it reports, and what it notes in the log.

## Main definitions

* `CommandError` — why a command fails.
* `Outcome` — what a command leaves behind.
* `Command.execute` — the outcome of a command, given a way to read files.
-/

namespace FrameScript

/-! ## Errors -/

/-- Why a command fails. -/
inductive CommandError
  /-- A file cannot be read. -/
  | unreadable (path : String) (error : FileError)
  /-- A text is no configuration. -/
  | config
  /-- A JSON text is no program source. -/
  | programJson
  /-- A YAML text is no program source. -/
  | programYaml
  /-- A program source does not load. -/
  | load (path : String) (error : LoadError)
  /-- An argument is no JSON text. -/
  | argument (index : Nat) (text : String)
  /-- An argument describes no value of the type that is asked for. -/
  | conversion (error : ConversionError)
  /-- The analysis found something. -/
  | semantic (errors : List SemanticError)
  /-- The call failed. -/
  | failure (f : Failure)
  /-- A loop of the program has no end. -/
  | endless

/-- The text of the error. -/
def CommandError.message : CommandError → String
  | .unreadable path error => s!"cannot read {path}: {error.message}"
  | .config => "invalid runtime config"
  | .programJson => "invalid program JSON"
  | .programYaml => "invalid program YAML"
  | .load path error => s!"failed to load {path}: {error.message}"
  | .argument index text => s!"argument {index} is not valid JSON: {text}"
  | .conversion error => error.message
  | .semantic errors => SemanticError.messages errors
  | .failure f => f.message
  | .endless => "loop without end"

/-! ## Outcomes -/

/-- What a command leaves behind. -/
structure Outcome where
  /-- What it prints. -/
  output : String := ""
  /-- What it reports as wrong. -/
  errors : List String := []
  /-- What it notes in the log. -/
  log : List LogLine := []
  deriving DecidableEq, Repr

namespace Outcome

/-- Whether the command has done what it was asked for, as a number for other programs. -/
def exitCode (o : Outcome) : Nat :=
  if o.errors.isEmpty then 0 else 1

/-- The reports, one a line. -/
def report (o : Outcome) : String :=
  String.join (o.errors.map fun e => s!"error: {e}\n")

end Outcome

/-! ## Steps -/

/-- A way to read files. -/
abbrev Files : Type := String → Except FileError String

namespace Files

/-- The text of a file. -/
def text (files : Files) (path : String) : Except CommandError String :=
  (files path).mapError (.unreadable path)

/-- The configuration in a file, or the one that holds without a file. -/
def config (files : Files) : Option String → Except CommandError Config
  | none => .ok {}
  | some path => do
    match Config.parse? (← files.text path) with
    | some config => .ok config
    | none => .error .config

/-- The program source in a file, whose extension tells the format. -/
def source (files : Files) (path : String) : Except CommandError Source := do
  let text ← files.text path
  let extension? := Path.extension? path
  if extension? == some "yaml" || extension? == some "yml" then
    match Source.ofYamlText? text with
    | some source => .ok source
    | none => .error .programYaml
  else
    match Source.ofJsonText? text with
    | some source => .ok source
    | none => .error .programJson

/-- The program in a file, with the standard library. -/
def program (files : Files) (path : String) : Except CommandError Program := do
  let source ← files.source path
  (Program.load source Library.standard).mapError (.load path)

end Files

/-- The values of arguments, each read and converted before the next one. -/
def readArguments (p : Program) (function : String) (index : Nat) :
    List String → Heap → Except CommandError (List Value × Heap)
  | [], h => .ok ([], h)
  | arg :: args, h => do
    let doc ← match Json.parse? arg with
      | some doc => .ok doc
      | none => .error (.argument index arg)
    let (v, h) ← (p.valueOfJson doc (p.paramType function index) h).mapError .conversion
    let (vs, h) ← readArguments p function (index + 1) args h
    .ok (v :: vs, h)

/-! ## Commands -/

/-- What every command that uses the standard library notes. -/
def libraryLines : List LogLine :=
  Library.packages.map fun p => ⟨.debug, s!"registered native package {p.name}"⟩

/-- The outcome of a command that fails before anything is called. -/
def Outcome.failed (log : List LogLine) (e : CommandError) : Outcome :=
  { errors := [e.message], log }

/-- What a call notes: that it was made, and how it failed. -/
def callLines (function : String) (m : Machine) : List LogLine :=
  let failure : List LogLine :=
    match m.context.failure? with
    | some record =>
      [⟨.warn, s!"invocation faulted: {record.message}"⟩,
        ⟨.warn, s!"invocation of {function} failed: {record.message}"⟩]
    | none => []
  ⟨.info, s!"invoke {function}"⟩ :: failure

/-- An engine and the arguments of a call. -/
def prepareRun (files : Files) (config : Config) (file function : String) (args : List String) :
    Except CommandError (Engine × List Value × Heap) := do
  let p ← files.program file
  let (args, h) ← readArguments p function 0 args {}
  let e ← (Engine.start p config).mapError .semantic
  .ok (e, args, h)

/-- Calls a function and prints its results. -/
def executeRun (files : Files) (file function : String) (args : List String)
    (config? : Option String) : Outcome :=
  match files.config config? with
  | .error e => .failed [] e
  | .ok config =>
    let log := ⟨.debug, "runtime config read"⟩ :: libraryLines
    match prepareRun files config file function args with
    | .error e => .failed log e
    | .ok (e, args, h) =>
      let (result, m) := e.invoke function args h
      let log := log ++ callLines function m
      match result with
      | .ok vs =>
        let results := Json.arr (vs.map (·.toJson m.heap))
        { output := m.output ++ results.text ++ "\n", log }
      | .error (.failed f) =>
        { output := m.output, errors := [(CommandError.failure f).message], log }
      | .error .exhausted =>
        { output := m.output, errors := [CommandError.endless.message], log }

/-- Analyses a program and reports what is found. -/
def executeCheck (files : Files) (file : String) : Outcome :=
  match files.program file with
  | .error (.load _ (.semantic errors)) =>
    { errors := errors.map SemanticError.message, log := libraryLines }
  | .error e => .failed libraryLines e
  | .ok p =>
    match p.check with
    | [] => { output := s!"{file}: ok\n", log := libraryLines }
    | errors => { errors := errors.map SemanticError.message, log := libraryLines }

/-- The line that lists a native unit. -/
def NativeUnit.listing (u : NativeUnit) : String :=
  if u.isTypeMapper then u.sig.text ++ " [type mapper]" else u.sig.text

/-- Lists the native units. -/
def executeNatives : Outcome :=
  { output := String.join (Library.standard.units.map fun (_, u) => u.listing ++ "\n")
    log := libraryLines }

/-- The outcome of a command. -/
def Command.execute (files : Files) : Command → Outcome
  | .run file function args config? => executeRun files file function args config?
  | .check file => executeCheck files file
  | .natives => executeNatives

end FrameScript
