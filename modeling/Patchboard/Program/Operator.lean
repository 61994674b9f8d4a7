/-!
# Binary operators

The fourteen binary operators with their tokens, their binding strength and the side on which they
group.
-/

namespace Patchboard

/-- A binary operator. -/
inductive Operator where
  | add
  | sub
  | mul
  | div
  | rem
  | exp
  | gt
  | ge
  | lt
  | le
  | strictEq
  | strictNe
  | and
  | or
deriving DecidableEq

namespace Operator

/-- Every operator. -/
def all : List Operator :=
  [add, sub, mul, div, rem, exp, gt, ge, lt, le, strictEq, strictNe, and, or]

/-- Every operator is listed. -/
theorem mem_all (op : Operator) : op ∈ all := by
  cases op <;> decide

/-- The token of an operator, as nodes and source text spell it. -/
def token : Operator → String
  | add => "+"
  | sub => "-"
  | mul => "*"
  | div => "/"
  | rem => "%"
  | exp => "**"
  | gt => ">"
  | ge => ">="
  | lt => "<"
  | le => "<="
  | strictEq => "==="
  | strictNe => "!=="
  | and => "&&"
  | or => "||"

/-- The name of an operator in outlines and JSON. -/
def name : Operator → String
  | add => "Add"
  | sub => "Sub"
  | mul => "Mul"
  | div => "Div"
  | rem => "Rem"
  | exp => "Exp"
  | gt => "Gt"
  | ge => "Ge"
  | lt => "Lt"
  | le => "Le"
  | strictEq => "StrictEq"
  | strictNe => "StrictNe"
  | and => "And"
  | or => "Or"

/-- The operator of a token. -/
def ofToken? (token : String) : Option Operator :=
  (all.map fun op => (op.token, op)).lookup token

/-- A token leads back to its operator. -/
theorem ofToken?_token (op : Operator) : ofToken? op.token = some op := by
  cases op <;> decide

/-- The binding strength of an operator. A stronger one takes its operands first. -/
def precedence : Operator → Nat
  | or => 1
  | and => 2
  | strictEq | strictNe => 3
  | gt | ge | lt | le => 4
  | add | sub => 5
  | mul | div | rem => 6
  | exp => 7

/-- Only the power groups to the right. -/
def isRightAssociative : Operator → Bool
  | exp => true
  | _ => false

/-- Operators of one strength group to one side. -/
theorem isRightAssociative_of_precedence_eq {a b : Operator} (h : a.precedence = b.precedence) :
  a.isRightAssociative = b.isRightAssociative
  := by
  cases a <;> cases b <;> simp_all [precedence, isRightAssociative]

end Operator

end Patchboard
