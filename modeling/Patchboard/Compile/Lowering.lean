import Patchboard.Compile.Liveness
import Patchboard.Compile.Typing
import Patchboard.Text.Name

/-!
# From nodes to expressions

The value of a node is written as an expression in place, unless the node is a binding. A binding is
named where it is used, and is declared once all of its uses have been written. Declarations are
found in this way from the last to the first, so that each one stands before its uses.

How a function is written does not depend on the kind of the steps, as long as they keep account of the
bindings.
-/

namespace Patchboard

/-- What is known of the bindings while a function is written. -/
structure Uses where
  /-- The bindings still to be declared, each with the number of its uses still to be written, in
  the order in which they were found. -/
  outstanding : List (NodeId × Nat)
  /-- The slots fed by bindings that have been written, by node and slot. A slot may be written
  again, but counts once. -/
  consumed : List (NodeId × Nat)

namespace Uses

/-- One use of a binding has been written, at the slot of a node. -/
def consume (u : Uses) (consumer : NodeId) (slot : Nat) (binding : NodeId) : Uses :=
  if (consumer, slot) ∈ u.consumed then u
  else
    { outstanding := u.outstanding.map fun (id, n) => (id, if id = binding then n - 1 else n)
      consumed := (consumer, slot) :: u.consumed }

/-- The first binding that has no use left to be written. -/
def ready? (u : Uses) : Option NodeId :=
  (u.outstanding.find? fun (_, n) => n == 0).map (·.1)

/-- The bindings still to be declared. -/
def undeclared (u : Uses) : List NodeId :=
  u.outstanding.map (·.1)

/-- A binding has been declared. -/
def declare (u : Uses) (binding : NodeId) : Uses :=
  { u with outstanding := u.outstanding.filter fun (id, _) => id ≠ binding }

end Uses

/-- Steps that write a part of a function and keep account of its bindings. -/
class MonadUses (m : Type → Type) where
  /-- What is known of the bindings. -/
  uses : m Uses
  /-- A slot has been written that is fed by a binding. -/
  use : Wire → m Unit
  /-- A binding has been declared. -/
  declare : NodeId → m Unit

/-- Writing a part of a function: it counts uses, and stops at the first fault. -/
abbrev Lowering := StateT Uses (Except Diagnostic)

instance : MonadUses Lowering where
  uses := get
  use w := modify fun u => u.consume w.consumer w.slot w.producer
  declare id := modify fun u => u.declare id

@[simp]
theorem Lowering.run_uses (u : Uses) :
  (MonadUses.uses : Lowering Uses).run u = pure (u, u)
  := rfl

@[simp]
theorem Lowering.run_use (w : Wire) (u : Uses) :
  (MonadUses.use w : Lowering Unit).run u = pure ((), u.consume w.consumer w.slot w.producer)
  := rfl

/-- The number of expressions that may be written within each other. -/
def maxNesting : Nat :=
  256

namespace Board

/-! ## Wires -/

/-- The node that feeds a slot. -/
def producer (b : Board) (n : Node) (slot : Nat) : Except Diagnostic Node :=
  match n.kind.input slot with
  | none => .error (.incomplete n.id n.kind.tag slot)
  | some target =>
    match b.get? target with
    | none => .error (.dangling n.id slot target)
    | some p =>
      if p.kind.producesValue || p.kind.isFunction then .ok p
      else .error (.invalidConnection n.id slot target)

/-- The name of the function that a reference is wired to. -/
def referencedFunction (b : Board) (reference : Node) : Except Diagnostic String := do
  let target ← b.producer reference 0
  match target.kind with
  | .functionDeclaration name _ _ => return name
  | _ => throw (.unresolvedCallee reference.id target.id)

/-- The name of the function that a call is wired to, directly or through one reference. -/
def callee (b : Board) (call : Node) : Except Diagnostic String := do
  let target ← b.producer call 0
  match target.kind with
  | .functionDeclaration name _ _ => return name
  | .functionReference .. => b.referencedFunction target
  | _ => throw (.unresolvedCallee call.id target.id)

/-- The property that an access takes by name: its key is a text, and a name. -/
def propertyName? (key : Node) : Option String :=
  match key.kind with
  | .stringLiteral value _ => if Text.isName value then some value else none
  | _ => none

section

variable {m : Type → Type} [Monad m] [MonadExceptOf Diagnostic m] [MonadLiftT (Except Diagnostic) m]

/-! ## Expressions -/

/-- The expression of a node, given how the slots of the node are written. -/
def exprWith (b : Board) (input : (slot : Nat) → m Expr) (n : Node) : m Expr :=
  match n.kind with
  | .functionDeclaration name _ _ => return .ident name
  | .parameter name _ _ _ => return .ident name
  | .identifier binding => return .ident binding.name
  | .variableStatement binding => return .ident binding.name
  | .functionReference _ _ => return .ident (← b.referencedFunction n)
  | .numericLiteral value _ => return .literal (.number value)
  | .stringLiteral value _ => return .literal (.string value)
  | .binaryExpression operator _ _ _ =>
    match Operator.ofToken? operator with
    | none => throw (.unknownOperator n.id operator)
    | some op => return .binary (← input 0) op (← input 1)
  | .conditionalExpression _ _ _ _ =>
    return .conditional (← input 0) (← input 1) (← input 2)
  | .callExpression inputs _ => do
    let name ← b.callee n
    return .call (.ident name) (← (List.range' 1 (inputs.length - 1)).mapM input)
  | .elementAccess _ | .propertyAccess _ => do
    let object ← input 0
    match propertyName? (← b.producer n 1) with
    | some name => return .member object name
    | none => return .index object (← input 1)
  | .returnStatement _ _ _ => input 0

variable [MonadUses m]

/-- The expression in a slot, given how the node that feeds it is written. A binding there has one
use less to be written. -/
def inputWith (b : Board) (expr : Node → m Expr) (n : Node) (slot : Nat) : m Expr := do
  let p ← b.producer n slot
  if p.kind.isBinding then MonadUses.use ⟨n.id, slot, p.id⟩
  expr p

/-- The expression of a node, with at most `levels` expressions within each other. -/
def expr (b : Board) (function : NodeId) : (levels : Nat) → Node → m Expr
  | 0, n => throw (.nestingTooDeep function n.id maxNesting)
  | levels + 1, n => b.exprWith (b.inputWith (b.expr function levels) n) n

/-- The expression in a slot. -/
def input (b : Board) (function : NodeId) (n : Node) (slot : Nat) : m Expr :=
  b.inputWith (b.expr function maxNesting) n slot

/-! ## Statements -/

/-- The declaration of a binding, given how the node that feeds it is written. -/
def declarationWith (b : Board) (function : NodeId) (expr : Node → m Expr) (id : NodeId) : m Stmt :=
  match b.get? id with
  | none => throw (.dangling function 0 id)
  | some n =>
    match n.kind with
    | .identifier binding | .variableStatement binding => do
      let type ← ValueType.declared id binding.type binding.array
      return .const binding.name type (← b.inputWith expr n 0)
    | _ => throw (.invalidConnection id 0 id)

/-- The declaration of a binding. -/
def declaration (b : Board) (function id : NodeId) : m Stmt :=
  b.declarationWith function (b.expr function maxNesting) id

/-- The next declaration, given how bindings are declared: that of the first binding that has no use left to
be written. When all that are left have one, they run in a circle. -/
def nextWith (function : NodeId) (declaration : NodeId → m Stmt) : m Stmt := do
  let uses ← MonadUses.uses
  match uses.ready? with
  | none => throw (.cycle function uses.undeclared)
  | some id =>
    MonadUses.declare id
    declaration id

/-- The declarations of `count` bindings, those that are found last in front. -/
def declarations (b : Board) (function : NodeId) : (count : Nat) → m (List Stmt)
  | 0 => return []
  | count + 1 => do
    let last ← nextWith function (b.declaration function)
    return (← b.declarations function count) ++ [last]

/-- The statements of a function that ends in a return, given how expressions and the declarations are
written, when the uses have been counted: the declarations that it needs, and then the return. -/
def statementsWith (b : Board) (function : NodeId) (expr : Node → m Expr) (declarations : m (List Stmt))
    (ret : Node) : m (List Stmt) := do
  if let some nodes := (b.dependencies ret.id).firstCycle? then throw (.cycle function nodes)
  let value ← b.inputWith expr ret 0
  return (← declarations) ++ [.ret value]

/-- The statements of a function that ends in a return, when the uses have been counted. -/
def statements (b : Board) (function : NodeId) (ret : Node) : m (List Stmt) := do
  let uses ← MonadUses.uses
  b.statementsWith function (b.expr function maxNesting) (b.declarations function uses.outstanding.length) ret

end

/-- The statements of a function that ends in a return. -/
def body (b : Board) (function : NodeId) (ret : Node) : Except Diagnostic (List Stmt) := do
  if let some w := b.danglingWire? ret.id then throw (.dangling w.consumer w.slot w.producer)
  (b.statements function ret : Lowering (List Stmt)).run' ⟨b.uses ret.id, []⟩

end Board

end Patchboard
