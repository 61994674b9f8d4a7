import Patchboard.Binary64
import Patchboard.Program.Operator

/-!
# Programs

What a board compiles to: functions with typed parameters, each a list of declarations that ends in
a return, over expressions without side effects. A program knows nothing of nodes or positions.
-/

namespace Patchboard

/-- A type that a node may declare. -/
inductive Keyword where
  | number
  | string
  | boolean
deriving DecidableEq

namespace Keyword

/-- The word of a type in source text. -/
def word : Keyword → String
  | number => "number"
  | string => "string"
  | boolean => "boolean"

/-- The name of a type in outlines and JSON. -/
def name : Keyword → String
  | number => "Number"
  | string => "String"
  | boolean => "Boolean"

/-- Every type with its name. -/
def named : List (String × Keyword) :=
  [number, string, boolean].map fun k => (k.name, k)

end Keyword

/-- A type, or the lists of that type. -/
structure ValueType where
  keyword : Keyword
  array : Bool
deriving DecidableEq

/-- A constant. -/
inductive Literal where
  | number (value : Binary64)
  | string (value : String)
deriving DecidableEq

/-- An expression. -/
inductive Expr where
  | literal (literal : Literal)
  /-- The name of a parameter, a local or a function. -/
  | ident (name : String)
  | binary (left : Expr) (op : Operator) (right : Expr)
  | conditional (test consequent alternate : Expr)
  | call (callee : Expr) (args : List Expr)
  /-- The property of an object, by a name. -/
  | member (object : Expr) (property : String)
  /-- The item of an object, by a value. -/
  | index (object key : Expr)
deriving Inhabited

/-- A statement. -/
inductive Stmt where
  /-- Declares a local. -/
  | const (name : String) (type : Option ValueType) (init : Expr)
  /-- Ends the function with a value. -/
  | ret (value : Expr)

/-- A parameter of a function. -/
structure Param where
  name : String
  type : ValueType
deriving DecidableEq

/-- A function. -/
structure Function where
  name : String
  params : List Param
  returnType : Option ValueType
  /-- The declarations, each before its uses, and then the return. -/
  body : List Stmt

/-- A program. -/
structure Program where
  functions : List Function

end Patchboard
