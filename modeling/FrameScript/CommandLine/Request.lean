import FrameScript.CommandLine.Folder

set_option autoImplicit false

/-!
# Requests on the command line

What the arguments of the program ask for.

## Main definitions

* `Command` — what the program can do.
* `Request` — a command, a question about the program, or neither.
* `Request.ofArguments` — the request that a list of arguments makes.
* `helpText`, `versionText` — the answers to questions about the program.

## Design

Arguments are taken one after the other, and the first that does not fit decides. Options may stand
anywhere behind the command. Two hyphens end them; an argument in front of these that starts with a
hyphen is an option, unless it is just the hyphen.
-/

namespace FrameScript

/-- What the program can do. -/
inductive Command
  /-- Call a function of a program. -/
  | run (file function : String) (args : List String) (config? : Option String)
  /-- Analyse a program. -/
  | check (file : String)
  /-- List the native units. -/
  | natives
  deriving DecidableEq, Repr

/-- What the arguments of the program ask for. -/
inductive Request
  /-- A command. -/
  | command (c : Command)
  /-- How to use the program. -/
  | help
  /-- The version of the program. -/
  | version
  /-- Nothing the program knows. -/
  | invalid
  deriving DecidableEq, Repr

namespace Request

/-! ## Arguments of commands -/

/-- What is known of a command while its arguments are taken. -/
structure Draft where
  /-- The program file. -/
  file? : Option String := none
  /-- The function to call. -/
  function? : Option String := none
  /-- The arguments of the function. -/
  args : List String := []
  /-- The configuration file. -/
  config? : Option String := none

namespace Draft

/-- Names the program file, by a path that does not lead up. -/
def setFile? (d : Draft) (path : String) : Option Draft :=
  if Path.leadsUp path then none else some { d with file? := some path }

/-- Names the function, once. -/
def setFunction? (d : Draft) (name : String) : Option Draft :=
  if d.function?.isSome then none else some { d with function? := some name }

/-- Names the configuration file, once, by a path that does not lead up. -/
def setConfig? (d : Draft) (path : String) : Option Draft :=
  if d.config?.isSome || Path.leadsUp path then none else some { d with config? := some path }

end Draft

/-- The options of a command that take a value, by letter and by name, and what arguments without an
option do. -/
structure Form where
  /-- What the option of a letter does with its value. -/
  letter? : Char → Option (Draft → String → Option Draft)
  /-- What the option of a name does with its value. -/
  name? : String → Option (Draft → String → Option Draft)
  /-- What an argument without an option does. -/
  place? : Draft → String → Option Draft
  /-- The command, once all arguments are taken. -/
  finish? : Draft → Option Command

/-- Calling a function: the file first, then the arguments of the function. -/
def runForm : Form where
  letter? c := if c == 'f' then some Draft.setFunction? else none
  name? name :=
    if name == "function" then some Draft.setFunction?
    else if name == "config" then some Draft.setConfig?
    else none
  place? d arg :=
    if d.file?.isNone then d.setFile? arg else some { d with args := d.args ++ [arg] }
  finish? d := d.file?.map fun file => .run file (d.function?.getD "main") d.args d.config?

/-- Analysing a program: the file. -/
def checkForm : Form where
  letter? _ := none
  name? _ := none
  place? d arg := if d.file?.isNone then d.setFile? arg else none
  finish? d := d.file?.map .check

/-- Listing the native units: nothing. -/
def nativesForm : Form where
  letter? _ := none
  name? _ := none
  place? _ _ := none
  finish? _ := some .natives

/-! ## Taking arguments -/

/-- How an argument reads. -/
inductive Argument
  /-- The end of the options. -/
  | separator
  /-- An option by name, with the value written behind it. -/
  | long (name : String) (value? : Option String)
  /-- An option by letter, with what is written behind it. -/
  | short (letter : Char) (rest : List Char)
  /-- A value. -/
  | plain (value : String)

/-- How an argument in front of the end of the options reads. -/
def Argument.ofText (s : String) : Argument :=
  match s.toList with
  | ['-', '-'] => .separator
  | '-' :: '-' :: cs =>
    match cs.span (· != '=') with
    | (name, '=' :: value) => .long (String.ofList name) (some (String.ofList value))
    | (name, _) => .long (String.ofList name) none
  | '-' :: c :: cs => .short c cs
  | _ => .plain s

/-- The value written behind the letter of an option, if there is one. -/
def attached? : List Char → Option String
  | [] => none
  | '=' :: cs => some (String.ofList cs)
  | cs => some (String.ofList cs)

/-- The value of an option in the next argument, which must not be an option itself. -/
def nextValue? : List String → Option (String × List String)
  | [] => none
  | arg :: rest =>
    match Argument.ofText arg with
    | .plain value => some (value, rest)
    | _ => none

/-- What an option does with its value: the draft so far and the arguments that are left. -/
def useOption (set : Draft → String → Option Draft) (d : Draft) (value? : Option String)
    (rest : List String) : Option (Draft × List String) :=
  match value? with
  | some value => (set d value).map (·, rest)
  | none => (nextValue? rest).bind fun (value, rest) => (set d value).map (·, rest)

/-- Takes the arguments of a command; `isOpen` tells whether options may still come. There are at
most as many steps as arguments. -/
def take (form : Form) (isOpen : Bool) : Nat → Draft → List String → Request
  | _, d, [] => ((form.finish? d).map Request.command).getD .invalid
  | 0, _, _ => .invalid
  | steps + 1, d, arg :: rest =>
    let place : Request :=
      match form.place? d arg with
      | some d => take form isOpen steps d rest
      | none => .invalid
    let option (set? : Option (Draft → String → Option Draft)) (value? : Option String) : Request :=
      match set?.bind fun set => useOption set d value? rest with
      | some (d, rest) => take form isOpen steps d rest
      | none => .invalid
    if !isOpen then place
    else
      match Argument.ofText arg with
      | .separator => take form false steps d rest
      | .plain _ => place
      | .long name value? =>
        if name == "help" then if value?.isNone then .help else .invalid
        else option (form.name? name) value?
      | .short letter cs =>
        if letter == 'h' then .help else option (form.letter? letter) (attached? cs)

/-- The form of a command. -/
def form? (name : String) : Option Form :=
  match name with
  | "run" => some runForm
  | "check" => some checkForm
  | "natives" => some nativesForm
  | _ => none

/-- Whether help on these can be asked for: nothing, or one command. -/
def isTopic : List String → Bool
  | [] => true
  | [name] => name == "help" || (form? name).isSome
  | _ => false

/-- The request that a list of arguments makes. -/
def ofArguments : List String → Request
  | [] => .invalid
  | arg :: rest =>
    match Argument.ofText arg with
    | .separator => .invalid
    | .long name none =>
      if name == "help" then .help
      else if name == "version" then .version
      else .invalid
    | .long _ (some _) => .invalid
    | .short letter _ =>
      if letter == 'h' then .help
      else if letter == 'V' then .version
      else .invalid
    | .plain name =>
      if name == "help" then if isTopic rest then .help else .invalid
      else
        match form? name with
        | some form => take form true rest.length {} rest
        | none => .invalid

end Request

/-! ## Answers -/

/-- The version of the program. -/
def versionText : String :=
  "bre 0.1.0\n"

/-- How to use the program. -/
def helpText : String :=
  String.join [
    "CLI for BRE\n",
    "\n",
    "Usage: bre <COMMAND>\n",
    "\n",
    "Commands:\n",
    "  run      Load, check and invoke a function; results are printed as a JSON array\n",
    "  check    Load a program and run the null-safety checker without executing it\n",
    "  natives  List registered native units with their signatures\n",
    "  help     Print this message or the help of the given subcommand(s)\n",
    "\n",
    "Options:\n",
    "  -h, --help     Print help\n",
    "  -V, --version  Print version\n"]

end FrameScript
