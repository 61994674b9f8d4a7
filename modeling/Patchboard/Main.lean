import Patchboard.CommandLine.Report

/-!
# The program

Reads the words of the command line and the file that they name, and prints the answer.
-/

namespace Patchboard.CommandLine

/-- What is printed when help is asked for. -/
def helpText : String :=
  line "Node board compiler and tools"
    ++ line ""
    ++ line "Usage: patchboard [-v] compile BOARD [-f NAME] [--format ts|ast|json] [--indent WIDTH]"
    ++ line "                               [--no-return-types]"
    ++ line "       patchboard [-v] check BOARD"
    ++ line "       patchboard [-v] functions BOARD"

/-- The fault behind a number of the system, which may come with its sign changed. -/
def faultOfCode (words : String) (code : UInt32) : FileFault :=
  .ofCode words (min code.toNat (0 - code).toNat)

/-- The fault behind an error. -/
def faultOfError : IO.Error → FileFault
  | .noFileOrDirectory _ code words => faultOfCode words code
  | .inappropriateType _ code words => faultOfCode words code
  | .permissionDenied _ code words => faultOfCode words code
  | .invalidArgument _ code words => faultOfCode words code
  | .resourceExhausted _ code words => faultOfCode words code
  | .otherError code words => faultOfCode words code
  | e => .other (toString e) 0

/-- The text of a file. -/
def readText (path : String) : IO (Except FileFault String) := do
  try
    match String.fromUTF8? (← IO.FS.readBinFile path) with
    | some text => return .ok text
    | none => return .error .notText
  catch e =>
    return .error (faultOfError e)

end Patchboard.CommandLine

open Patchboard in
/-- Answers one command line. -/
def main (args : List String) : IO UInt32 := do
  match CommandLine.parse args with
  | .error .help =>
    IO.print CommandLine.helpText
    return 0
  | .error .misuse =>
    IO.eprint CommandLine.helpText
    return 2
  | .ok command =>
    let report := CommandLine.run command (← CommandLine.readText command.board)
    IO.print report.out
    IO.eprint report.err
    return report.exit
