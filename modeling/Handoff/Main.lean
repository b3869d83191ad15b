import Handoff.CommandLine.Run

/-!
# The program

Reads the files that the command line names, prints what `CommandLine.run` says and ends
with its code.
-/

namespace Handoff

/-- The text of a file, if it can be read. -/
def fileText (path : String) : IO (Option String) := do
  try return some (← IO.FS.readFile path) catch _ => return none

/-- The files that a command may read. -/
def pathsOf : CommandLine.Command → List String
  | .convert scene request => scene :: request.settings.toList
  | .palette _ | .version => []

/-- Every file that a command line names, with its text. -/
def namedFiles (args : List String) : IO (List (String × Option String)) :=
  match CommandLine.Command.ofArgs? args with
  | some command => (pathsOf command).mapM fun path => return (path, ← fileText path)
  | none => return []

end Handoff

/-- Runs the command line of the program. -/
def main (args : List String) : IO UInt32 := do
  let files ← Handoff.namedFiles args
  let outcome := Handoff.CommandLine.run (fun path => (files.lookup path).join) args
  IO.print outcome.stdout
  IO.eprint outcome.stderr
  if outcome.code == 1 then IO.eprintln ""
  return outcome.code.toUInt32
