import Patchboard.Board.Links
import Patchboard.Board.Scope

/-!
# Editing a board

Nodes are placed, wired, moved, changed and removed. Both ends of a wire are always changed
together. An edit that cannot be done leaves the board as it was.
-/

namespace Patchboard

/-- A reason why an edit cannot be done, or why a board does not hold together. -/
inductive BoardError where
  | notFound (id : NodeId)
  | duplicate (id : NodeId)
  | inconsistent (fault : LinkFault)
deriving DecidableEq

/-- The wording of an error. -/
def BoardError.message : BoardError → String
  | .notFound id => "node not found: NodeId(" ++ id.text ++ ")"
  | .duplicate id => "duplicate node id: NodeId(" ++ id.text ++ ")"
  | .inconsistent fault => "graph inconsistency: " ++ fault.message

/-- The next word, if there is one, and otherwise the same. -/
def saturatingNext (n : UInt32) : UInt32 :=
  if n = 0xFFFFFFFF then n else n + 1

namespace Board

/-- The node of an id, which must be there. -/
def require (b : Board) (id : NodeId) : Except BoardError Node :=
  match b.get? id with
  | some n => .ok n
  | none => .error (.notFound id)

/-! ## Placing nodes -/

/-- The first free id from the next id on, in wrapping order. One more id than there are nodes is
tried, so none is found only when all ids are taken. -/
def freshId? (b : Board) : Option NodeId :=
  ((List.range (b.nodes.length + 1)).map fun i => NodeId.mk (b.nextId + UInt32.ofNat i)).find?
    fun id => !b.contains id

/-- A fresh id is not on the board. -/
theorem not_mem_ids_of_freshId? {b : Board} {id : NodeId} (h : b.freshId? = some id) :
  id ∉ b.ids
  := by
  have := List.find?_some h
  rw [← contains_iff]
  simpa using this

/-- Places a payload at a position under a fresh id. None only when all ids are taken. -/
def add (b : Board) (kind : Kind) (x y : Binary64) : Option (NodeId × Board) :=
  match h : b.freshId? with
  | none => none
  | some id =>
    some (id, b.append ⟨id, x, y, kind⟩ (saturatingNext id.val) (not_mem_ids_of_freshId? h))

/-- Places a whole node, wires included, under its own id, which must be free. -/
def insert (b : Board) (n : Node) : Except BoardError Board :=
  match h : b.get? n.id with
  | some _ => .error (.duplicate n.id)
  | none =>
    .ok (b.append n (max b.nextId (saturatingNext n.id.val)) (not_mem_ids_of_get? h))

/-- The board that holds the given nodes, each placed after the one before. -/
def ofNodes (ns : List Node) : Except BoardError Board :=
  ns.foldlM insert empty

/-! ## Changing single nodes -/

/-- Moves a node. -/
def move (b : Board) (id : NodeId) (x y : Binary64) : Except BoardError Board := do
  let _ ← b.require id
  return b.place id x y

/-- Changes one field of a payload. None if the kind has no such field. -/
def change (b : Board) (id : NodeId) (c : Kind.Change) : Except BoardError (Option Board) := do
  let n ← b.require id
  match n.kind.change c with
  | none => return none
  | some k => return some (b.update id fun _ => k)

/-! ## Wiring -/

/-- A producer may be wired to a slot of a consumer: both are there, they differ, and their kinds
fit. -/
def canConnect (b : Board) (consumer : NodeId) (slot : Nat) (producer : NodeId) : Bool :=
  match b.get? consumer, b.get? producer with
  | some c, some p => consumer != producer && c.kind.accepts slot p.kind
  | _, _ => false

/-- Forgets the wire from `producer` that fed a slot of `consumer`. A producer that fans out forgets
one entry. One with a single consumer forgets it unless the consumer still has a slot for it. -/
def releaseWire (consumer : NodeId) (stillFed : Bool) (k : Kind) : Kind :=
  if k.isFanOut then k.releaseOnce consumer
  else if stillFed then k
  else k.release consumer

/-- Empties a slot and gives the producer that fed it, if there was one. -/
def disconnect (b : Board) (consumer : NodeId) (slot : Nat) :
    Except BoardError (Slot × Board) := do
  let c ← b.require consumer
  match c.kind.input slot with
  | none => return (none, b)
  | some producer =>
    let cleared := c.kind.setInput slot none
    let stillFed := cleared.inputs.contains (some producer)
    let b := b.update consumer (Kind.setInput slot none)
    return (some producer, b.update producer (releaseWire consumer stillFed))

/-- The slot that a new wire is written to: none when the consumer gains a slot for it. A call
fills a slot that is there and empty, and otherwise gains one. -/
def targetSlot (consumer : Kind) (slot : Nat) : Option Nat :=
  match consumer with
  | .callExpression inputs _ => if inputs[slot]? = some none then some slot else none
  | _ => some slot

/-- Empties every slot of the node that a single-output producer fed before, unless that node is
its new consumer. -/
def retarget (b : Board) (consumer producer : NodeId) : Board :=
  match (b.get? producer).bind fun p => p.kind.output with
  | none => b
  | some previous =>
    if previous = consumer then b else b.update previous (Kind.clearInputsFrom producer)

/-- Writes a wire at both ends. -/
def writeWire (b : Board) (consumer : NodeId) (target : Option Nat) (producer : NodeId) : Board :=
  let written := match target with
    | some slot => b.update consumer (Kind.setInput slot (some producer))
    | none => b.update consumer (Kind.pushInput producer)
  written.update producer (Kind.addConsumer consumer)

/-- Wires a producer to a slot. What fed the slot before is unlinked, and so is the node that a
producer with a single consumer fed before. None when the two do not fit. -/
def connect (b : Board) (consumer : NodeId) (slot : Nat) (producer : NodeId) :
    Except BoardError (Option Board) := do
  let c ← b.require consumer
  let p ← b.require producer
  if consumer = producer ∨ ¬ c.kind.accepts slot p.kind then return none
  let target := targetSlot c.kind slot
  let unlinked ← match target with
    | some slot => (b.disconnect consumer slot).map (·.2)
    | none => pure b
  return some ((unlinked.retarget consumer producer).writeWire consumer target producer)

/-! ## Removing nodes -/

/-- Takes away one node with all its wires. A function is recorded by nobody, so every slot of the
board is searched for it. -/
def detach (b : Board) (n : Node) : Board :=
  (b.erase n.id).mapKinds fun id k =>
    let k := if some id ∈ n.kind.inputs then k.release n.id else k
    if n.kind.isFunction || id ∈ n.kind.consumers then k.clearInputsFrom n.id else k

/-- Takes away the node of an id, if it is there, and notes it as it was. -/
def detachNoting (state : List Node × Board) (id : NodeId) : List Node × Board :=
  match state.2.get? id with
  | none => state
  | some n => (state.1 ++ [n], state.2.detach n)

/-- Removes a node, and before it the nodes that belong to it. Gives the removed nodes in order,
each as it was when its turn came. -/
def remove (b : Board) (id : NodeId) : Except BoardError (List Node × Board) := do
  let n ← b.require id
  return (((b.scope n).map Node.id) ++ [id]).foldl detachNoting ([], b)

/-! ## Checking -/

/-- Fails with the first place where the ends of a wire disagree. -/
def validate (b : Board) : Except BoardError Unit :=
  match b.linkFault? with
  | none => .ok ()
  | some fault => .error (.inconsistent fault)

end Board

end Patchboard
