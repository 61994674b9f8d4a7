import Patchboard.Source.Options

/-!
# Arguments

The words of a command line become a command, or they are misused. An option may stand before or
behind the path of the board, and its value may be the next word or be attached to the option. Two
dashes alone end the options. Only the verbose option, which changes no answer, may be repeated.
-/

namespace Patchboard.CommandLine

/-- What is to be done. -/
inductive Command where
  /-- Writes the program of a board, or one function of it, in a format. -/
  | compile (board : String) (function : Option String) (format : String) (options : SourceOptions)
  /-- Says whether a board holds together and compiles. -/
  | check (board : String)
  /-- Lists the functions of a board. -/
  | functions (board : String)
deriving DecidableEq

/-- The path of the board of a command. -/
def Command.board : Command → String
  | compile board _ _ _ => board
  | check board => board
  | functions board => board

/-- Why there is no command. -/
inductive Refusal where
  /-- Help was asked for. -/
  | help
  /-- The words are no command. -/
  | misuse
deriving DecidableEq

/-! ## Options -/

/-- An option. -/
inductive Opt where
  | verbose
  | help
  | function
  | format
  | indent
  | noReturnTypes
deriving DecidableEq

namespace Opt

/-- The name of an option, which stands behind two dashes. -/
def name : Opt → String
  | verbose => "verbose"
  | help => "help"
  | function => "function"
  | format => "format"
  | indent => "indent"
  | noReturnTypes => "no-return-types"

/-- The letter of an option, which stands behind one dash. -/
def letter? : Opt → Option Char
  | verbose => some 'v'
  | help => some 'h'
  | function => some 'f'
  | _ => none

/-- The option needs a value. -/
def takesValue : Opt → Bool
  | function | format | indent => true
  | _ => false

/-- The options of every command. -/
def common : List Opt :=
  [verbose, help]

/-- The options of the command that compiles. -/
def ofCompile : List Opt :=
  [function, format, indent, noReturnTypes] ++ common

end Opt

/-- A part of a word of options. -/
inductive Piece where
  /-- An option without a value. -/
  | switch (o : Opt)
  /-- An option that takes a value, with what is attached to it. -/
  | valued (o : Opt) (value : Option String)
deriving DecidableEq

/-- The option of a word behind its two dashes. A value is attached by an equals sign. -/
def longPiece? (known : List Opt) (word : List Char) : Option Piece := do
  let name := word.takeWhile (· ≠ '=')
  let o ← known.find? fun o => o.name.toList == name
  match word.dropWhile (· ≠ '=') with
  | [] => return if o.takesValue then .valued o none else .switch o
  | _ :: value => if o.takesValue then return .valued o (String.ofList value) else none

/-- What is attached to a letter that takes a value: the rest of its word, with or without an equals
sign before it. -/
def attached : List Char → Option String
  | [] => none
  | '=' :: value => some (String.ofList value)
  | value => some (String.ofList value)

/-- The options of a word behind its one dash. Letters without values may stand together. Nothing
is looked at behind the letter that asks for help. -/
def shortPieces? (known : List Opt) : List Char → Option (List Piece)
  | [] => some []
  | c :: rest => do
    let o ← known.find? fun o => o.letter? == some c
    if o.takesValue then return [.valued o (attached rest)]
    else if o = .help then return [.switch o]
    else return .switch o :: (← shortPieces? known rest)

/-- The word names no options. A dash alone names none. -/
def isOperand (word : String) : Bool :=
  match word.toList with
  | '-' :: _ :: _ => false
  | _ => true

/-- The options of a word. -/
def pieces? (known : List Opt) (word : String) : Option (List Piece) :=
  match word.toList with
  | '-' :: '-' :: rest => (longPiece? known rest).map ([·])
  | '-' :: rest => shortPieces? known rest
  | _ => none

/-! ## Settings -/

/-- What the words behind the name of a command have set so far. -/
structure Settings where
  board : Option String
  function : Option String
  format : Option String
  indent : Option Nat
  noReturnTypes : Bool
deriving DecidableEq

namespace Settings

/-- Nothing has been set. -/
def start : Settings :=
  ⟨none, none, none, none, false⟩

/-- The number that a word spells: digits, which may follow a plus sign, for less than `2 ^ 64`. -/
def number? (word : String) : Option Nat :=
  let digits := match word.toList with
    | '+' :: rest => rest
    | cs => cs
  if digits.isEmpty || !digits.all Char.isDigit then none
  else
    let n := digits.foldl (fun n d => 10 * n + (d.toNat - '0'.toNat)) 0
    if n < UInt64.size then some n else none

/-- The path of the board is set. It may not be empty. -/
def setBoard (s : Settings) (path : String) : Except Refusal Settings :=
  if s.board.isSome || path.isEmpty then .error .misuse else .ok { s with board := path }

/-- An option is set to a value. -/
def setValue (s : Settings) (o : Opt) (value : String) : Except Refusal Settings :=
  match o with
  | .function => if s.function.isSome then .error .misuse else .ok { s with function := value }
  | .format => if s.format.isSome then .error .misuse else .ok { s with format := value }
  | .indent =>
    match s.indent, number? value with
    | none, some n => .ok { s with indent := n }
    | _, _ => .error .misuse
  | _ => .error .misuse

/-- An option without a value is set. -/
def setSwitch (s : Settings) (o : Opt) : Except Refusal Settings :=
  match o with
  | .verbose => .ok s
  | .help => .error .help
  | .noReturnTypes =>
    if s.noReturnTypes then .error .misuse else .ok { s with noReturnTypes := true }
  | _ => .error .misuse

/-- The options of a word are set. Gives the option whose value is the next word, if there is
one. -/
def setPieces (s : Settings) : List Piece → Except Refusal (Settings × Option Opt)
  | [] => .ok (s, none)
  | .switch o :: rest => do (← s.setSwitch o).setPieces rest
  | .valued o (some value) :: rest => do (← s.setValue o value).setPieces rest
  | .valued o none :: _ => .ok (s, some o)

/-- The words behind the name of a command are taken one after the other. -/
def setWords (known : List Opt) (s : Settings) : List String → Except Refusal Settings
  | [] => .ok s
  | word :: rest => do
    if word = "--" then rest.foldlM setBoard s
    else if isOperand word then setWords known (← s.setBoard word) rest
    else
      let some pieces := pieces? known word | .error .misuse
      let (s, awaited) ← s.setPieces pieces
      match awaited, rest with
      | none, rest => setWords known s rest
      | some o, value :: rest =>
        if isOperand value then setWords known (← s.setValue o value) rest else .error .misuse
      | some _, [] => .error .misuse

end Settings

/-! ## Commands -/

/-- The words behind the name of a command, which must set the path of the board. -/
def withBoard (known : List Opt) (words : List String)
    (command : Settings → String → Command) : Except Refusal Command := do
  let s ← Settings.start.setWords known words
  match s.board with
  | none => .error .misuse
  | some board => return command s board

/-- The names that stand for a command, or for help. -/
def commandNames : List String :=
  ["compile", "check", "functions", "help"]

/-- What the words behind the name of help ask for: help with everything, or with one command. -/
def helpWith : List String → Refusal
  | [] => .help
  | [name] => if name ∈ commandNames then .help else .misuse
  | _ => .misuse

/-- The command of its name and the words behind. -/
def commandNamed (name : String) (words : List String) : Except Refusal Command :=
  match name with
  | "compile" =>
    withBoard Opt.ofCompile words fun s board =>
      .compile board s.function (s.format.getD "ts")
        ⟨s.indent.getD SourceOptions.standard.indentWidth, !s.noReturnTypes⟩
  | "check" => withBoard Opt.common words fun _ board => .check board
  | "functions" => withBoard Opt.common words fun _ board => .functions board
  | "help" => .error (helpWith words)
  | _ => .error .misuse

/-- The command that some words spell. Before the name of the command only the options of every
command may stand. -/
def parse : List String → Except Refusal Command
  | [] => .error .misuse
  | word :: rest => do
    if isOperand word then commandNamed word rest
    else
      let some pieces := pieces? Opt.common word | .error .misuse
      let _ ← Settings.start.setPieces pieces
      parse rest

end Patchboard.CommandLine
