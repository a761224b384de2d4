import FrameScript.CommandLine.Execute

set_option autoImplicit false

/-!
# The program

The command line: reads the files that a command names, executes it, and writes what it leaves
behind.

## Main definitions

* `Command.readFiles` — the files that a command names.
* `Outcome.write` — writes the outcome of a command to the streams of the process.
* `main` — does what the arguments ask for.
-/

namespace FrameScript

/-! ## Files -/

/-- The reason why a file cannot be read. -/
def FileError.ofError : IO.Error → FileError
  | .noFileOrDirectory _ _ _ => .missing
  | .inappropriateType _ 21 _ => .folder
  | .inappropriateType _ _ _ => .throughFile
  | error => .other (toString error)

/-- The text of the file that a path leads to. -/
def readText (path : String) : IO (Except FileError String) := do
  try return .ok (← IO.FS.readFile path)
  catch error => return .error (.ofError error)

namespace Command

/-- The paths of the files that a command names. -/
def paths : Command → List String
  | .run file _ _ config? => file :: config?.toList
  | .check file => [file]
  | .natives => []

/-- Reads the files that a command names. -/
def readFiles (c : Command) : IO Files := do
  let texts ← c.paths.mapM fun path => return (path, ← readText path)
  return fun path => (texts.lookup path).getD (.error .missing)

end Command

/-! ## Outcomes -/

/-- Writes what a command leaves behind, its log as far as the filter shows it, and returns the exit
code. -/
def Outcome.write (filter : LogFilter) (o : Outcome) : IO UInt32 := do
  let stdout ← IO.getStdout
  let stderr ← IO.getStderr
  for line in o.log.filter filter.shows do
    stderr.putStrLn line.text
  stdout.putStr o.output
  stdout.flush
  stderr.putStr o.report
  return o.exitCode.toUInt32

end FrameScript

open FrameScript in
/-- Does what the arguments ask for. -/
def main (args : List String) : IO UInt32 := do
  let filter := LogFilter.choose [← IO.getEnv "BRE_LOG", ← IO.getEnv "RUST_LOG"]
  match Request.ofArguments args with
  | .command c => (c.execute (← c.readFiles)).write filter
  | .help => Outcome.write filter { output := helpText }
  | .version => Outcome.write filter { output := versionText }
  | .invalid => do
    (← IO.getStderr).putStr helpText
    return 2
