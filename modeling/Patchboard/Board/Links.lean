import Patchboard.Board.Basic

/-!
# Agreement of the two ends of the wires

A wire is noted twice: in the input slot it leads to and among the consumers of the node it comes
from. `linkFaults` lists every place where the two ends disagree, in the order of the board. A slot
that names no node of the board is no such fault.
-/

namespace Patchboard

/-- A place where the ends of a wire disagree. -/
inductive LinkFault where
  /-- The slot of a node names a producer that does not record the wire. -/
  | unrecorded (slot : Nat) (node producer : NodeId)
  /-- A node records a consumer that has no slot for it. -/
  | unfed (node consumer : NodeId)
deriving DecidableEq

/-- The wording of a disagreement. -/
def LinkFault.message : LinkFault → String
  | .unrecorded slot node producer =>
    "slot " ++ toString slot ++ " of node " ++ node.text ++ " holds " ++ producer.text
      ++ " without a matching back-reference"
  | .unfed node consumer =>
    "node " ++ node.text ++ " records consumer " ++ consumer.text
      ++ " which has no slot pointing back"

/-- The producer records its wires to a node with these input slots: a producer that fans out has an
entry for each slot it feeds, one with a single consumer names the node, and a function records
nothing. -/
def Node.recordsWiresTo (producer node : Node) : Bool :=
  if producer.kind.isFanOut then
    node.kind.inputs.count (some producer.id) == producer.kind.outputs.count node.id
  else if producer.kind.isSingleOutput then producer.kind.output == some node.id
  else producer.kind.isFunction

namespace Board

/-- The faults at the input slots of a node, in slot order. -/
def slotFaults (b : Board) (n : Node) : List LinkFault :=
  (n.kind.inputs.zipIdx).filterMap fun (content, slot) =>
    match content.bind b.get? with
    | none => none
    | some producer =>
      if producer.recordsWiresTo n then none else some (.unrecorded slot n.id producer.id)

/-- The recorded consumer has a slot that names the node. -/
def pointsBack (b : Board) (n : Node) (consumer : NodeId) : Bool :=
  match b.get? consumer with
  | none => false
  | some c => c.kind.inputs.contains (some n.id)

/-- The faults at the recorded consumers of a node, in order. -/
def consumerFaults (b : Board) (n : Node) : List LinkFault :=
  (n.kind.consumers.filter fun c => !b.pointsBack n c).map fun c => .unfed n.id c

/-- All faults, node by node. -/
def linkFaults (b : Board) : List LinkFault :=
  b.nodes.flatMap fun n => b.slotFaults n ++ b.consumerFaults n

/-- The first fault, if there is one. -/
def linkFault? (b : Board) : Option LinkFault :=
  b.linkFaults.head?

end Board

end Patchboard
