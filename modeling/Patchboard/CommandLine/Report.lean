import Patchboard.Board.Codec
import Patchboard.Board.Signature
import Patchboard.CommandLine.Arguments
import Patchboard.Compile.Function
import Patchboard.Program.Codec
import Patchboard.Program.Outline

/-!
# What a command answers

A command needs the text of its board and answers with an exit code and two texts: 0 and its output,
1 when functions do not compile, 2 when a format, a function or the board is wrong, and 3 when the
board cannot be read. The format is looked at before the board, and the board before the name of a
function.
-/

namespace Patchboard.CommandLine

/-- The answer to a command. -/
structure Report where
  exit : UInt32
  out : String
  err : String
deriving DecidableEq

/-- A reason why a file has no text. -/
inductive FileFault where
  | missing
  | denied
  /-- A part of the path that should lead on is no directory. -/
  | notDirectory
  | isDirectory
  | nameTooLong
  /-- The file is there, but not text. -/
  | notText
  /-- The system refuses for another reason, in these words and with this number. -/
  | other (words : String) (code : Nat)
deriving DecidableEq

/-- What the system says when it refuses, with the number of the refusal. -/
def systemText (words : String) (code : Nat) : String :=
  words ++ " (os error " ++ toString code ++ ")"

/-- The wording of a file without text. -/
def FileFault.message : FileFault → String
  | missing => systemText "No such file or directory" 2
  | denied => systemText "Permission denied" 13
  | notDirectory => systemText "Not a directory" 20
  | isDirectory => systemText "Is a directory" 21
  | nameTooLong => systemText "File name too long" 36
  | notText => "stream did not contain valid UTF-8"
  | other words code => systemText words code

/-- The fault of a number, which the system words in this way. -/
def FileFault.ofCode (words : String) : (code : Nat) → FileFault
  | 2 => missing
  | 13 => denied
  | 20 => notDirectory
  | 21 => isDirectory
  | 36 => nameTooLong
  | code => other words code

/-- A form in which a program is written. -/
inductive Format where
  | source
  | outline
  | json
deriving DecidableEq

/-- The form of a name. -/
def Format.ofName? : String → Option Format
  | "ts" => some source
  | "typescript" => some source
  | "ast" => some outline
  | "json" => some json
  | _ => none

/-- A program in a form. -/
def Format.render (options : SourceOptions) (p : Program) : Format → String
  | source => p.source options
  | outline => (Outline.ofProgram p).indented ++ "\n"
  | json => p.toJson.indented ++ "\n"

/-- A reason why a command has no output. -/
inductive Failure where
  | file (fault : FileFault)
  | format (name : String)
  | unreadable (error : ReadError)
  | board (error : BoardError)
  | noFunction (name : String)
  | diagnostics (diagnostics : List Diagnostic)
deriving DecidableEq

/-- A line of text. -/
def line (s : String) : String :=
  s ++ "\n"

/-- The answer of a command that has no output. -/
def Failure.report (path : String) : Failure → Report
  | file fault => ⟨3, "", line ("I/O error: failed to read '" ++ path ++ "': " ++ fault.message)⟩
  | format name =>
    ⟨2, "", line ("Error: invalid format '" ++ name ++ "', expected ts/ast/json")⟩
  | unreadable error => ⟨2, "", line ("Error: JSON error: " ++ error.message)⟩
  | board error => ⟨2, "", line ("Error: " ++ error.message)⟩
  | noFunction name => ⟨2, "", line ("Error: no function named " ++ Text.quoted name)⟩
  | diagnostics ds =>
    ⟨1, "",
      line (path ++ ": " ++ Diagnostic.summary ds ++ ":")
        ++ String.join (ds.map fun d => line ("  - " ++ d.message))⟩

/-- The board in a file. -/
def load (content : Except FileFault String) : Except Failure Board :=
  match content with
  | .error fault => .error (.file fault)
  | .ok text => (Board.ofText text).mapError .unreadable

/-- The program of a board, or of the first function of a name alone. -/
def programOf (b : Board) : (function : Option String) → Except Failure Program
  | none => b.compile.mapError .diagnostics
  | some name =>
    match b.functionNamed? name with
    | none => .error (.noFunction name)
    | some f =>
      match b.compileFunction f with
      | .error d => .error (.diagnostics [d])
      | .ok compiled => .ok ⟨[compiled]⟩

/-- The output of a command, given what its file holds. -/
def output (command : Command) (content : Except FileFault String) : Except Failure String :=
  match command with
  | .compile _ function format options => do
    let some form := Format.ofName? format | throw (.format format)
    let b ← load content
    let p ← programOf b function
    return form.render options p
  | .check path => do
    let b ← load content
    b.validate.mapError Failure.board
    let _ ← b.compile.mapError Failure.diagnostics
    return line (path ++ ": ok (" ++ toString b.nodes.length ++ " nodes)")
  | .functions _ => do
    let b ← load content
    return String.join (b.signatures.map line)

/-- The answer to a command, given what its file holds. -/
def run (command : Command) (content : Except FileFault String) : Report :=
  match output command content with
  | .ok out => ⟨0, out, ""⟩
  | .error failure => failure.report command.board

end Patchboard.CommandLine
