import FrameScript.Dict

set_option autoImplicit false

/-!
# Files by path

Paths as they are written on a command line, and a folder of files held in memory.

## Main definitions

* `Path.parts`, `Path.leadsUp`, `Path.extension?` — what a path is made of.
* `FileError` — why a file cannot be read.
* `Folder`, `Folder.read` — files by name, and the file a path leads to.
-/

namespace FrameScript

/-! ## Paths -/

namespace Path

/-- The parts of a path between its slashes. -/
def parts (path : String) : List String :=
  path.splitOn "/"

/-- Whether a path has a step to the folder above. -/
def leadsUp (path : String) : Bool :=
  (parts path).contains ".."

/-- Whether a part of a path leads somewhere else. -/
def isStep (part : String) : Bool :=
  !part.isEmpty && part != "."

/-- The parts of a path that lead somewhere else. -/
def steps (path : String) : List String :=
  (parts path).filter isStep

/-- The extension of the file a path leads to: what follows the last dot of its name, unless the
name starts with that dot. -/
def extension? (path : String) : Option String := do
  let name ← (steps path).getLast?
  match (name.splitOn ".").reverse with
  | ext :: name :: more => if name.isEmpty && more.isEmpty then none else some ext
  | _ => none

end Path

/-! ## Files -/

/-- Why a file cannot be read. -/
inductive FileError
  /-- There is none. -/
  | missing
  /-- It is a folder. -/
  | folder
  /-- The path goes through a file as if that were a folder. -/
  | throughFile
  /-- Any other reason. -/
  | other (text : String)
  deriving DecidableEq, Repr

/-- The text of the error. -/
def FileError.message : FileError → String
  | .missing => "No such file or directory (os error 2)"
  | .folder => "Is a directory (os error 21)"
  | .throughFile => "Not a directory (os error 20)"
  | .other text => text

/-- Files by name. -/
abbrev Folder : Type := Dict String

/-- The text of the file that a path leads to. -/
def Folder.read (folder : Folder) (path : String) : Except FileError String :=
  if path.startsWith "/" then
    if (Path.steps path).isEmpty then .error .folder else .error .missing
  else
    match Path.steps path with
    | [] => if path.isEmpty then .error .missing else .error .folder
    | name :: more =>
      match Dict.find? name folder with
      | none => .error .missing
      | some text =>
        if more.isEmpty && (Path.parts path).getLast? == some name then .ok text
        else .error .throughFile

end FrameScript
