import Patchboard.Program.Basic
import Patchboard.Source.Lexeme
import Patchboard.Source.Options

/-!
# Programs as source text

A program is written as lexemes. An operand stands between parentheses only where the strength of
the operators or the side on which they group would read it otherwise, where it is a conditional,
or where it is a negative number to be raised to a power. An object whose part is taken, or that is
called, stands between parentheses unless it ends where it seems to end.
-/

namespace Patchboard

/-- The side of an operator on which an operand stands. -/
inductive Side where
  | left
  | right
deriving DecidableEq

namespace Lexeme

/-- Lexemes between parentheses, if there is need. -/
def wrapped (need : Bool) (ls : List Lexeme) : List Lexeme :=
  if need then sign "(" :: ls ++ [sign ")"] else ls

/-- Lists of lexemes with commas between them. -/
def commaSeparated (lists : List (List Lexeme)) : List Lexeme :=
  List.intercalate [sign ",", blank] lists

end Lexeme

open Lexeme (word sign blank blanks newline wrapped commaSeparated)

/-! ## Expressions -/

/-- The lexeme of a constant. -/
def Literal.lexeme : Literal → Lexeme
  | number b => .number b
  | string s => .text s

namespace Expr

/-- An operand of `op` needs parentheses: an operation of less strength, or one of equal strength on
the side where `op` does not group; any conditional; and a negative number to be raised to a
power. -/
def needsParensIn (e : Expr) (op : Operator) (side : Side) : Bool :=
  match e with
  | binary _ inner _ =>
    inner.precedence < op.precedence
      || (inner.precedence == op.precedence && (side == .right) != op.isRightAssociative)
  | conditional .. => true
  | literal (.number b) => op == .exp && side == .left && b.isNegative
  | _ => false

/-- An object that is called, or whose part is taken, needs parentheses: an operation, a conditional
and a number. -/
def needsParensAsObject : Expr → Bool
  | binary .. | conditional .. | literal (.number _) => true
  | _ => false

/-- The test of a conditional needs parentheses when it is a conditional itself. -/
def isConditional : Expr → Bool
  | conditional .. => true
  | _ => false

mutual

/-- The lexemes of an expression. -/
def lexemes : Expr → List Lexeme
  | literal l => [l.lexeme]
  | ident name => [word name]
  | binary left op right =>
    wrapped (left.needsParensIn op .left) left.lexemes
      ++ [blank, sign op.token, blank]
      ++ wrapped (right.needsParensIn op .right) right.lexemes
  | conditional test consequent alternate =>
    wrapped test.isConditional test.lexemes
      ++ [blank, sign "?", blank] ++ consequent.lexemes
      ++ [blank, sign ":", blank] ++ alternate.lexemes
  | call callee args =>
    wrapped callee.needsParensAsObject callee.lexemes
      ++ sign "(" :: commaSeparated (listLexemes args) ++ [sign ")"]
  | member object property =>
    wrapped object.needsParensAsObject object.lexemes ++ [sign ".", word property]
  | index object key =>
    wrapped object.needsParensAsObject object.lexemes ++ sign "[" :: key.lexemes ++ [sign "]"]

/-- The lexemes of every expression of a list. -/
def listLexemes : List Expr → List (List Lexeme)
  | [] => []
  | e :: rest => e.lexemes :: listLexemes rest

end

end Expr

/-! ## Statements and functions -/

/-- The lexemes of a type. -/
def ValueType.lexemes (a : ValueType) : List Lexeme :=
  word a.keyword.word :: if a.array then [sign "[", sign "]"] else []

/-- A type behind a colon, if there is one. -/
def ValueType.behindColon : Option ValueType → List Lexeme
  | none => []
  | some a => sign ":" :: blank :: a.lexemes

/-- The lexemes of a statement, which takes a line of one level. -/
def Stmt.lexemes (options : SourceOptions) (s : Stmt) : List Lexeme :=
  blanks options.indentWidth ::
    (match s with
      | const name type init =>
        [word "const", blank, word name] ++ ValueType.behindColon type
          ++ [blank, sign "=", blank] ++ init.lexemes
      | ret value => [word "return", blank] ++ value.lexemes)
    ++ [sign ";", newline]

/-- The lexemes of a parameter. -/
def Param.lexemes (p : Param) : List Lexeme :=
  word p.name :: ValueType.behindColon (some p.type)

/-- The lexemes of a function's name and parameters. -/
def Function.signatureLexemes (f : Function) : List Lexeme :=
  word f.name :: sign "(" :: commaSeparated (f.params.map Param.lexemes) ++ [sign ")"]

/-- The lexemes of a function. -/
def Function.lexemes (options : SourceOptions) (f : Function) : List Lexeme :=
  [word "function", blank] ++ f.signatureLexemes
    ++ (if options.returnTypes then ValueType.behindColon f.returnType else [])
    ++ [blank, sign "\x7b", newline]
    ++ f.body.flatMap (Stmt.lexemes options)
    ++ [sign "\x7d", newline]

/-- The source text of a function. -/
def Function.source (options : SourceOptions) (f : Function) : String :=
  Lexeme.source (f.lexemes options)

/-- The lexemes of a program. Functions are separated by an empty line. -/
def Program.lexemes (options : SourceOptions) (p : Program) : List Lexeme :=
  List.intercalate [newline] (p.functions.map (Function.lexemes options))

/-- The source text of a program. -/
def Program.source (options : SourceOptions) (p : Program) : String :=
  Lexeme.source (p.lexemes options)

end Patchboard
