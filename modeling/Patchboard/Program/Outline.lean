import Patchboard.Decimal.Layout
import Patchboard.Program.Basic
import Patchboard.Text.Quoted

/-!
# Outlines of programs

An outline shows the parts of a program by name. It is a tree of records, of named lists without
field names, and of plain lists, and is written on one line or with one part a line.
-/

namespace Patchboard

/-- A part of an outline. -/
inductive Outline where
  /-- A part without parts. -/
  | leaf (text : String)
  /-- A name with parts. -/
  | tuple (name : String) (parts : List Outline)
  /-- A name with named parts. -/
  | record (name : String) (parts : List (String × Outline))
  | list (parts : List Outline)

namespace Outline

/-- How outlines write numbers: in full from `0.0001` up to sixteen digits, always with a fraction,
and otherwise with an exponent. -/
def numberLayout : Layout where
  positional := fun k => -4 ≤ k && k < 16
  unitFraction := true
  exponentPlus := false
  tie := .upward
  infinity := "inf"

/-! ## Writing -/

mutual

/-- An outline on one line. -/
def oneLine : Outline → String
  | leaf text => text
  | tuple name parts => name ++ "(" ++ String.intercalate ", " (oneLineParts parts) ++ ")"
  | record name parts =>
    name ++ " \x7b " ++ String.intercalate ", " (oneLineNamed parts) ++ " \x7d"
  | list parts => "[" ++ String.intercalate ", " (oneLineParts parts) ++ "]"

/-- Every part on one line. -/
def oneLineParts : List Outline → List String
  | [] => []
  | part :: rest => part.oneLine :: oneLineParts rest

/-- Every named part on one line. -/
def oneLineNamed : List (String × Outline) → List String
  | [] => []
  | (name, part) :: rest => (name ++ ": " ++ part.oneLine) :: oneLineNamed rest

end

/-- Lines between two brackets, each one level deeper than `margin` and with a comma behind; the
brackets alone if there are no lines. -/
def block (opening closing margin : String) (lines : List String) : String :=
  if lines.isEmpty then opening ++ closing
  else
    opening ++ "\n" ++ String.join (lines.map fun line => margin ++ "    " ++ line ++ ",\n")
      ++ margin ++ closing

mutual

/-- An outline with one part a line, behind the given margin. -/
def indentedAt (margin : String) : Outline → String
  | leaf text => text
  | tuple name parts => block (name ++ "(") ")" margin (indentedParts (margin ++ "    ") parts)
  | record name parts =>
    block (name ++ " \x7b") "\x7d" margin (indentedNamed (margin ++ "    ") parts)
  | list parts => block "[" "]" margin (indentedParts (margin ++ "    ") parts)

/-- Every part, behind the given margin. -/
def indentedParts (margin : String) : List Outline → List String
  | [] => []
  | part :: rest => part.indentedAt margin :: indentedParts margin rest

/-- Every named part, behind the given margin. -/
def indentedNamed (margin : String) : List (String × Outline) → List String
  | [] => []
  | (name, part) :: rest => (name ++ ": " ++ part.indentedAt margin) :: indentedNamed margin rest

end

/-- An outline with one part a line. -/
def indented (o : Outline) : String :=
  o.indentedAt ""

/-! ## The outline of a program -/

/-- A text, between quotes. -/
def ofString (s : String) : Outline :=
  leaf (Text.quoted s)

/-- An optional part. -/
def ofOption (outline : α → Outline) : Option α → Outline
  | none => leaf "None"
  | some a => tuple "Some" [outline a]

/-- The outline of a type. -/
def ofValueType (a : ValueType) : Outline :=
  record "TypeAnnotation"
    [("keyword", leaf a.keyword.name), ("array", leaf (if a.array then "true" else "false"))]

/-- The outline of a constant. -/
def ofLiteral : Literal → Outline
  | .number b => tuple "Number" [leaf (numberLayout.write b)]
  | .string s => tuple "String" [ofString s]

mutual

/-- The outline of an expression. -/
def ofExpr : Expr → Outline
  | .literal l => tuple "Literal" [ofLiteral l]
  | .ident name => tuple "Ident" [ofString name]
  | .binary left op right =>
    record "Binary" [("left", ofExpr left), ("op", leaf op.name), ("right", ofExpr right)]
  | .conditional test consequent alternate =>
    record "Conditional"
      [("test", ofExpr test), ("consequent", ofExpr consequent), ("alternate", ofExpr alternate)]
  | .call callee args =>
    record "Call" [("callee", ofExpr callee), ("args", list (ofExprs args))]
  | .member object property =>
    record "Member" [("object", ofExpr object), ("property", ofString property)]
  | .index object key => record "Index" [("object", ofExpr object), ("index", ofExpr key)]

/-- The outlines of a list of expressions. -/
def ofExprs : List Expr → List Outline
  | [] => []
  | e :: rest => ofExpr e :: ofExprs rest

end

/-- The outline of a statement. -/
def ofStmt : Stmt → Outline
  | .const name type init =>
    record "Const"
      [("name", ofString name), ("ty", ofOption ofValueType type), ("init", ofExpr init)]
  | .ret value => tuple "Return" [ofExpr value]

/-- The outline of a parameter. -/
def ofParam (p : Param) : Outline :=
  record "Param" [("name", ofString p.name), ("ty", ofValueType p.type)]

/-- The outline of a function. -/
def ofFunction (f : Function) : Outline :=
  record "FunctionDecl"
    [("name", ofString f.name), ("params", list (f.params.map ofParam)),
      ("return_type", ofOption ofValueType f.returnType), ("body", list (f.body.map ofStmt))]

/-- The outline of a program. -/
def ofProgram (p : Program) : Outline :=
  record "Program" [("functions", list (p.functions.map ofFunction))]

end Outline

end Patchboard
