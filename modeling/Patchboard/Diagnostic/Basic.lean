import Patchboard.Node.Id
import Patchboard.Node.Tag
import Patchboard.Text.Quoted

/-!
# Diagnostics

The reasons why a function does not compile. Each names the nodes, and where there is one the slot,
that an editor would point at.
-/

namespace Patchboard

/-- A reason why a function does not compile. -/
inductive Diagnostic where
  /-- A slot is empty. -/
  | incomplete (node : NodeId) (kind : Tag) (slot : Nat)
  /-- A slot names a node that is not on the board. -/
  | dangling (node : NodeId) (slot : Nat) (target : NodeId)
  /-- What is called, or referred to, is no function. -/
  | unresolvedCallee (node target : NodeId)
  | missingReturn (function : NodeId)
  | multipleReturns (function : NodeId) (returns : List NodeId)
  /-- Values that depend on each other. -/
  | cycle (function : NodeId) (nodes : List NodeId)
  | unknownOperator (node : NodeId) (operator : String)
  | unknownType (node : NodeId) (type : String)
  /-- A slot is fed by a node that gives no value. -/
  | invalidConnection (node : NodeId) (slot : Nat) (target : NodeId)
  /-- Expressions within expressions go deeper than the limit. -/
  | nestingTooDeep (function node : NodeId) (limit : Nat)
  | notAFunction (node : NodeId)
deriving DecidableEq

namespace Diagnostic

/-- The nodes that a diagnostic is about, the one to point at first. -/
def nodeIds : Diagnostic → List NodeId
  | incomplete node _ _ => [node]
  | dangling node _ target => [node, target]
  | unresolvedCallee node target => [node, target]
  | missingReturn function => [function]
  | multipleReturns function returns => function :: returns
  | cycle function nodes => function :: nodes
  | unknownOperator node _ => [node]
  | unknownType node _ => [node]
  | invalidConnection node _ target => [node, target]
  | nestingTooDeep function node _ => [node, function]
  | notAFunction node => [node]

/-- The wording of a diagnostic. -/
def message : Diagnostic → String
  | incomplete node kind slot =>
    "incomplete node: " ++ kind.name ++ " node " ++ node.text ++ " has no " ++ kind.slotName slot
      ++ " input (slot " ++ toString slot ++ ")"
  | dangling node slot target =>
    "dangling reference: node " ++ node.text ++ " slot " ++ toString slot
      ++ " points at missing node " ++ target.text
  | unresolvedCallee node target =>
    "unresolved callee: call " ++ node.text ++ " cannot call node " ++ target.text
  | missingReturn function =>
    "missing return: function " ++ function.text ++ " has no return statement"
  | multipleReturns function returns =>
    "multiple returns: function " ++ function.text ++ " has " ++ toString returns.length
      ++ " return statements"
  | cycle function nodes =>
    "unresolvable reference cycle in function " ++ function.text ++ " through nodes "
      ++ String.intercalate ", " (nodes.map NodeId.text)
  | unknownOperator node operator =>
    "unknown operator " ++ Text.quoted operator ++ " on node " ++ node.text
  | unknownType node type => "unknown type " ++ Text.quoted type ++ " on node " ++ node.text
  | invalidConnection node slot target =>
    "invalid connection: node " ++ node.text ++ " slot " ++ toString slot ++ " reads from node "
      ++ target.text ++ ", which produces no value"
  | nestingTooDeep function node limit =>
    "expression at node " ++ node.text ++ " in function " ++ function.text
      ++ " nests deeper than " ++ toString limit ++ " levels"
  | notAFunction node => "node " ++ node.text ++ " is not a function declaration"

/-- The wording of the fact that there are diagnostics. -/
def summary (ds : List Diagnostic) : String :=
  "compile failed with " ++ toString ds.length ++ " diagnostic(s)"

/-- Every diagnostic points at some node. -/
theorem nodeIds_ne_nil (d : Diagnostic) : d.nodeIds ≠ [] := by
  cases d <;> simp [nodeIds]

end Diagnostic

end Patchboard
