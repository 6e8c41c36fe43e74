import GuestXml.Command.Program

/-!
# The command line

Runs the program on the files of the machine. Results go to standard output, and failures
to standard error.
-/

namespace GuestXml.Command

/-- Reads a file of the machine. -/
def readFile (path : String) : IO FileContent := do
  try
    return .text (← IO.FS.readFile path)
  catch
    | .noFileOrDirectory .. => return .absent
    | _ => return .unreadable

/-- Writes a file of the machine. -/
def writeFile (path text : String) : IO Bool := do
  try
    IO.FS.writeFile path text
    return true
  catch _ =>
    return false

/-- The machine the program runs on. -/
def machine : Host IO where
  read := readFile
  write := writeFile

/-- How the program is used. -/
def usage : String :=
  "Usage: virtxml [OPTIONS] <check|format|show|schema> [ARGUMENTS]\n"

/-- The messages of a failure on lines of their own. -/
def report : List String → String
  | [] => "Error\n"
  | message :: causes =>
    let lines := causes.map fun cause => "    " ++ cause ++ "\n"
    "Error: " ++ message ++ "\n" ++
      (if lines.isEmpty then "" else "\nCaused by:\n" ++ String.join lines)

/-- Prints how the program ended. -/
def Outcome.print : Outcome → IO Unit
  | .done output => IO.print output
  | .help => IO.print usage
  | .misused e => IO.eprint ("error: " ++ e.message ++ "\n\n" ++ usage)
  | .failed f => IO.eprint (report f.messages)
  | .aborted => IO.eprint "The program broke off.\n"

end GuestXml.Command

open GuestXml.Command

/-- Runs the program on the words of the command line. -/
def main (words : List String) : IO UInt32 := do
  let outcome ← run machine (← IO.getEnv "VIRTXML_CONFIG") words
  outcome.print
  return outcome.exitCode.toUInt32
