/-!
# The kinds of nodes by name

The thirteen kinds of nodes of the palette, with their names and the names of their input slots.
-/

namespace Patchboard

/-- A kind of node, without any payload. -/
inductive Tag where
  | functionDeclaration
  | parameter
  | identifier
  | variableStatement
  | functionReference
  | numericLiteral
  | stringLiteral
  | binaryExpression
  | conditionalExpression
  | callExpression
  | elementAccess
  | propertyAccess
  | returnStatement
deriving DecidableEq, Inhabited

namespace Tag

/-- Every kind, in palette order. -/
def all : List Tag :=
  [functionDeclaration, parameter, identifier, variableStatement, functionReference,
    numericLiteral, stringLiteral, binaryExpression, conditionalExpression, callExpression,
    elementAccess, propertyAccess, returnStatement]

/-- Every kind is in the palette. -/
theorem mem_all (tag : Tag) : tag ∈ all := by
  cases tag <;> decide

/-- The name of a kind. -/
def name : Tag → String
  | functionDeclaration => "FunctionDeclaration"
  | parameter => "Parameter"
  | identifier => "Identifier"
  | variableStatement => "VariableStatement"
  | functionReference => "FunctionReference"
  | numericLiteral => "NumericLiteral"
  | stringLiteral => "StringLiteral"
  | binaryExpression => "BinaryExpression"
  | conditionalExpression => "ConditionalExpression"
  | callExpression => "CallExpression"
  | elementAccess => "ElementAccessExpression"
  | propertyAccess => "PropertyAccessExpression"
  | returnStatement => "ReturnStatement"

/-- Every kind with its name, in palette order. -/
def named : List (String × Tag) :=
  all.map fun tag => (tag.name, tag)

/-- The kind of a name. -/
def ofName? (name : String) : Option Tag :=
  named.lookup name

/-- A name leads back to its kind. -/
theorem ofName?_name (tag : Tag) : ofName? tag.name = some tag := by
  cases tag <;> decide

/-- The name of an input slot in messages. A slot that the kind does not have is just an input. -/
def slotName : Tag → Nat → String
  | binaryExpression, 0 => "left"
  | binaryExpression, 1 => "right"
  | conditionalExpression, 0 => "condition"
  | conditionalExpression, 1 => "whenTrue"
  | conditionalExpression, 2 => "whenFalse"
  | callExpression, 0 => "callee"
  | callExpression, _ => "argument"
  | elementAccess, 0 => "object"
  | propertyAccess, 0 => "object"
  | elementAccess, 1 => "key"
  | propertyAccess, 1 => "key"
  | functionReference, 0 => "function"
  | identifier, 0 => "value"
  | variableStatement, 0 => "value"
  | returnStatement, 0 => "value"
  | _, _ => "input"

end Tag

end Patchboard
