import Patchboard.Board.Basic
import Patchboard.Graph.Cycle

/-!
# What a return needs

A return needs the node that is wired to it, and what that node needs. These nodes are live, and so
are the wires into them; everything else on the board is dead. A live wire from a binding is one use
of it. The other live wires make an expression depend on others, and must not run in a circle.
-/

namespace Patchboard

/-- A wire, seen from the slot that it leads to. Its producer may be missing from the board. -/
structure Wire where
  consumer : NodeId
  slot : Nat
  producer : NodeId
deriving DecidableEq

/-- The wires into a node, in slot order. -/
def Node.wires (n : Node) : List Wire :=
  n.kind.inputs.zipIdx.filterMap fun (content, slot) => content.map (Wire.mk n.id slot)

namespace Board

/-- The wires into the node of an id, if it is on the board. -/
def wiresInto (b : Board) (id : NodeId) : List Wire :=
  ((b.get? id).map Node.wires).getD []

/-- The graph of all wires whose ends are on the board, from consumer to producer. The last slot of
a node comes first. -/
def wiring (b : Board) : Graph where
  nodes := b.ids
  next id := (((b.wiresInto id).map Wire.producer).filter b.contains).reverse

/-- The nodes that a node needs, itself included, in the order in which they are found. -/
def live (b : Board) (id : NodeId) : List NodeId :=
  b.wiring.reach id

/-- The wires into the nodes that a node needs. -/
def liveWires (b : Board) (id : NodeId) : List Wire :=
  (b.live id).flatMap b.wiresInto

/-- The node of an id is a binding. -/
def isBinding (b : Board) (id : NodeId) : Bool :=
  (b.get? id).any fun n => n.kind.isBinding

/-- The first live wire from a node that is not on the board. -/
def danglingWire? (b : Board) (id : NodeId) : Option Wire :=
  (b.liveWires id).find? fun w => !b.contains w.producer

/-- The bindings that a node needs, each with the number of its live uses, in the order in which
they are found. -/
def uses (b : Board) (id : NodeId) : List (NodeId × Nat) :=
  let used := ((b.liveWires id).map Wire.producer).filter b.isBinding
  used.eraseDups.map fun binding => (binding, used.count binding)

/-- The graph of the live wires that do not come from bindings, from consumer to producer. -/
def dependencies (b : Board) (id : NodeId) : Graph :=
  let inner := (b.liveWires id).filter fun w => !b.isBinding w.producer
  let next := fun v => (inner.filter fun w => w.consumer == v).map Wire.producer
  ⟨((b.live id).flatMap fun v => v :: next v).eraseDups, next⟩

end Board

end Patchboard
