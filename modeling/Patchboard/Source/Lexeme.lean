import Patchboard.Decimal.Layout

/-!
# Lexemes

Source text is a sequence of lexemes: words, numbers, texts and signs, with blanks and line ends
between them.
-/

namespace Patchboard

/-- A piece of source text. -/
inductive Lexeme where
  /-- A keyword or a name. -/
  | word (text : String)
  | number (value : Binary64)
  /-- A text, which is written between quotes. -/
  | text (value : String)
  /-- An operator or a sign of punctuation. -/
  | sign (text : String)
  | blanks (count : Nat)
  | newline
deriving DecidableEq

namespace Lexeme

/-- One blank. -/
def blank : Lexeme :=
  blanks 1

/-! ## Texts -/

/-- The characters that are escaped in a text, each with its escape. The backslash comes first, so
that the backslashes of the other escapes stay as they are. -/
def escapes : List (Char × List Char) :=
  [('\\', ['\\', '\\']), ('"', ['\\', '"']), ('\n', ['\\', 'n']), ('\r', ['\\', 'r']),
    ('\t', ['\\', 't'])]

/-- Puts other characters in the place of one, wherever it stands. -/
def replaceChar (c : Char) (by' : List Char) (cs : List Char) : List Char :=
  cs.flatMap fun d => if d = c then by' else [d]

/-- Replaces one character after the other by its escape. -/
def escape (cs : List Char) : List Char :=
  escapes.foldl (fun cs (c, e) => replaceChar c e cs) cs

/-! ## Spelling -/

/-- The characters of a lexeme. -/
def chars : Lexeme → List Char
  | word s => s.toList
  | number b => (Layout.plain.write b).toList
  | text s => '"' :: escape s.toList ++ ['"']
  | sign s => s.toList
  | blanks n => List.replicate n ' '
  | newline => ['\n']

/-- The source text of some lexemes. -/
def source (ls : List Lexeme) : String :=
  String.ofList (ls.flatMap chars)

/-- The source text of lexemes in a row is their source text in a row. -/
theorem source_append (as bs : List Lexeme) :
  source (as ++ bs) = source as ++ source bs
  := by
  simp [source, String.ofList_append]

end Lexeme

end Patchboard
