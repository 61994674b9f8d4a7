import Patchboard.Source.Writer

/-!
# Writing piece by piece

Source text as it is written, piece by piece, by a scribe who knows what has been written so far and by how
many levels a line is indented. One scribe writes all functions of a program.
-/

namespace Patchboard

/-- What a scribe knows. -/
structure Scribe where
  /-- What has been written. -/
  output : String
  /-- How many levels a line is indented. -/
  level : Nat

/-- Nothing has been written, and lines are not indented. -/
def Scribe.start : Scribe :=
  ⟨"", 0⟩

/-- Steps of a scribe. -/
abbrev Scribing :=
  StateM Scribe

namespace Scribing

/-- What the scribe knows after some steps. -/
def runFrom (steps : Scribing Unit) (s : Scribe) : Scribe :=
  (steps.run s).run.2

/-- Writes a piece of text behind what is there. -/
def put (text : String) : Scribing Unit :=
  modify fun s => { s with output := s.output ++ text }

/-- Writes the blanks before a line. -/
def indent (options : SourceOptions) : Scribing Unit := do
  let level := (← get).level
  put (String.ofList (List.replicate (level * options.indentWidth) ' '))

/-- Writes a constant. -/
def literal : Literal → Scribing Unit
  | .number b => put (Layout.plain.write b)
  | .string s => do
    put "\""
    put (String.ofList (Lexeme.escape s.toList))
    put "\""

/-- Writes something between parentheses, if there is need. -/
def wrapped (need : Bool) (steps : Scribing Unit) : Scribing Unit := do
  if need then put "("
  steps
  if need then put ")"

/-- Writes something one level further in. -/
def indented (steps : Scribing Unit) : Scribing Unit := do
  modify fun s => { s with level := s.level + 1 }
  steps
  modify fun s => { s with level := s.level - 1 }

/-- Writes things one after the other, with a text between each two of them. -/
def separated {α : Type} (text : String) (step : α → Scribing Unit) (xs : List α) : Scribing Unit :=
  xs.zipIdx.forM fun (x, index) => do
    if index > 0 then put text
    step x

mutual

/-- Writes an expression. -/
def expression : Expr → Scribing Unit
  | .literal l => literal l
  | .ident name => put name
  | .binary left op right => do
    wrapped (left.needsParensIn op .left) (expression left)
    put " "
    put op.token
    put " "
    wrapped (right.needsParensIn op .right) (expression right)
  | .conditional test consequent alternate => do
    wrapped test.isConditional (expression test)
    put " ? "
    expression consequent
    put " : "
    expression alternate
  | .call callee args => do
    wrapped callee.needsParensAsObject (expression callee)
    put "("
    arguments 0 args
    put ")"
  | .member object property => do
    wrapped object.needsParensAsObject (expression object)
    put "."
    put property
  | .index object key => do
    wrapped object.needsParensAsObject (expression object)
    put "["
    expression key
    put "]"

/-- Writes the arguments of a call from one on, with commas between them. -/
def arguments : (index : Nat) → List Expr → Scribing Unit
  | _, [] => return ()
  | index, e :: rest => do
    if index > 0 then put ", "
    expression e
    arguments (index + 1) rest

end

/-- Writes a type. -/
def type (a : ValueType) : Scribing Unit := do
  put a.keyword.word
  if a.array then put "[]"

/-- Writes a type behind a colon, if there is one. -/
def typeBehindColon : Option ValueType → Scribing Unit
  | none => return ()
  | some a => do
    put ": "
    type a

/-- Writes a statement. -/
def statement (options : SourceOptions) (s : Stmt) : Scribing Unit := do
  indent options
  match s with
  | .const name annotation init =>
    put "const "
    put name
    typeBehindColon annotation
    put " = "
    expression init
  | .ret value =>
    put "return "
    expression value
  put ";\n"

/-- Writes a parameter. -/
def parameter (p : Param) : Scribing Unit := do
  put p.name
  put ": "
  type p.type

/-- Writes a function. -/
def function (options : SourceOptions) (f : Function) : Scribing Unit := do
  indent options
  put "function "
  put f.name
  put "("
  separated ", " parameter f.params
  put ")"
  typeBehindColon (f.returnType.filter fun _ => options.returnTypes)
  put " \x7b\n"
  indented (f.body.forM (statement options))
  indent options
  put "\x7d\n"

/-- Writes all functions of a program, with an empty line between them. -/
def program (options : SourceOptions) (p : Program) : Scribing Unit :=
  separated "\n" (function options) p.functions

end Scribing

/-- The text of a function that a scribe writes alone. -/
def Function.emit (options : SourceOptions) (f : Function) : String :=
  ((Scribing.function options f).runFrom .start).output

/-- The text of a program that a scribe writes. -/
def Program.emit (options : SourceOptions) (p : Program) : String :=
  ((Scribing.program options p).runFrom .start).output

end Patchboard
