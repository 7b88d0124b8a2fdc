import PortableTypes.CommandLine.Run

/-!
# The program

Reads the words of the command line, runs the command and prints its output.
-/
namespace PortableTypes

/-- What is printed when the words are not a command. -/
def usage : String :=
  "Project TypeScript checker types into portable type objects\n\n" ++
    "Usage: extract [OPTIONS] <SNAPSHOT> <FILE>\n" ++
    "       at [OPTIONS] <SNAPSHOT> <FILE> <LINE> <CHARACTER>"

/-- The text of a file, if there is one. -/
def readText? (path : String) : IO (Option String) := do
  try
    return some (← IO.FS.readFile path)
  catch _ =>
    return none

end PortableTypes

open PortableTypes in
def main (args : List String) : IO UInt32 := do
  match CommandLine.parse args with
  | .error .help =>
    IO.println usage
    return 0
  | .error .version =>
    IO.println "0.1.0"
    return 0
  | .error _ =>
    IO.eprintln usage
    return 2
  | .ok command =>
    match (command.run (← readText? command.snapshot)).result with
    | .ok output =>
      IO.println output
      return 0
    | .error failure =>
      IO.eprintln ("Error: " ++ failure.message)
      return 1
