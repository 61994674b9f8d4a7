import Patchboard.Board.Edit

/-!
# Editing in place

The edits as they go on, step by step, on a board that is changed while they go. A step that cannot
be done stops the edit, and leaves the board as the steps before it have made it.
-/

namespace Patchboard

/-- What stops an edit before its end. -/
inductive Halt where
  | error (error : BoardError)
  /-- A slot was to be written that is not there. -/
  | outOfRange
deriving DecidableEq

/-- Steps that change a board as they go. What stops them does not undo what they have done; and they
may go on forever. -/
abbrev InPlace :=
  ExceptT Halt (StateT Board Option)

namespace InPlace

/-- How the steps come out from a board, and the board that they leave behind; none if they go on
forever. -/
def runOn {α : Type} (steps : InPlace α) (b : Board) : Option (Except Halt α × Board) :=
  steps.run.run b

/-! ## Steps -/

/-- Looks up the node of an id, which must be there. -/
def lookUp (id : NodeId) : InPlace Node := do
  match (← get).get? id with
  | some n => return n
  | none => throw (.error (.notFound id))

/-- Changes the payload of a node, which must be there. -/
def change (id : NodeId) (f : Kind → Kind) : InPlace Unit := do
  let _ ← lookUp id
  modify fun b => b.update id f

/-- Changes the payload of a node, if it is there. -/
def adjust (id : NodeId) (f : Kind → Kind) : InPlace Unit := do
  if (← get).contains id then modify fun b => b.update id f

/-- Writes a slot of a node. Both must be there. -/
def writeSlot (id : NodeId) (slot : Nat) (content : Slot) : InPlace Unit := do
  let n ← lookUp id
  if slot < n.kind.inputs.length then modify fun b => b.update id (Kind.setInput slot content)
  else throw .outOfRange

/-- Takes the node of an id, which must be there, off the board. -/
def takeOff (id : NodeId) : InPlace Node := do
  let n ← lookUp id
  modify fun b => b.erase id
  return n

/-! ## Edits -/

/-- Places a whole node under its own id, which must be free. -/
def insert (n : Node) : InPlace NodeId := do
  let b ← get
  match h : b.get? n.id with
  | some _ => throw (.error (.duplicate n.id))
  | none =>
    set (b.append n (max b.nextId (saturatingNext n.id.val)) (Board.not_mem_ids_of_get? h))
    return n.id

/-- Moves a node. -/
def move (id : NodeId) (x y : Binary64) : InPlace Unit := do
  let _ ← lookUp id
  modify fun b => b.place id x y

/-- Has a producer, if it is there, forget a wire to a consumer. One that fans out forgets one entry;
one with a single consumer forgets it, unless the consumer still has a slot for it. -/
def forget (consumer producer : NodeId) (stillFed : Bool) : InPlace Unit := do
  match (← get).get? producer with
  | none => return ()
  | some p =>
    if p.kind.isFanOut then adjust producer (Kind.releaseOnce consumer)
    else if stillFed then return ()
    else adjust producer (Kind.release consumer)

/-- Empties a slot, and has the producer that fed it, if there was one, forget the wire. -/
def disconnect (consumer : NodeId) (slot : Nat) : InPlace Slot := do
  let c ← lookUp consumer
  match c.kind.input slot with
  | none => return none
  | some producer =>
    change consumer (Kind.setInput slot none)
    forget consumer producer ((c.kind.setInput slot none).inputs.contains (some producer))
    return some producer

/-- Takes away the wire into a slot. -/
def removeConnection (consumer : NodeId) (slot : Nat) : InPlace Slot :=
  disconnect consumer slot

/-- Unlinks what feeds the slot that a wire will be written to; nothing if a slot will be gained. -/
def unlink (consumer : NodeId) (target : Option Nat) : InPlace Unit := do
  match target with
  | none => return ()
  | some slot => let _ ← disconnect consumer slot

/-- Empties every slot of the node that a producer with a single consumer fed before, if the node is
there and is not the new consumer. -/
def retarget (consumer producer : NodeId) : InPlace Unit := do
  let p ← lookUp producer
  match p.kind.output with
  | none => return ()
  | some previous =>
    if previous = consumer then return ()
    else adjust previous (Kind.clearInputsFrom producer)

/-- Writes a wire at the end of the consumer, and then at the end of the producer. -/
def writeWire (consumer : NodeId) (target : Option Nat) (producer : NodeId) : InPlace Unit := do
  match target with
  | some slot => writeSlot consumer slot (some producer)
  | none => change consumer (Kind.pushInput producer)
  change producer (Kind.addConsumer consumer)

/-- Wires a producer to a slot. The answer is whether the two fit. -/
def connect (consumer : NodeId) (slot : Nat) (producer : NodeId) : InPlace Bool := do
  let c ← lookUp consumer
  let p ← lookUp producer
  if consumer = producer ∨ ¬ c.kind.accepts slot p.kind then return false
  let target := Board.targetSlot c.kind slot
  unlink consumer target
  retarget consumer producer
  writeWire consumer target producer
  return true

/-- Takes a node off the board. The nodes that feed it forget it, the nodes that it feeds have their
slots emptied, and if it is a function so have all nodes. -/
def detach (id : NodeId) : InPlace Node := do
  let n ← takeOff id
  n.kind.inputs.reduceOption.forM fun producer => adjust producer (Kind.release id)
  n.kind.consumers.forM fun consumer => adjust consumer (Kind.clearInputsFrom id)
  if n.kind.isFunction then modify fun b => b.mapKinds fun _ => Kind.clearInputsFrom id
  return n

end InPlace

/-- Removes the node of an id, and before it, in this same way, each node that belongs to it and is still
there. Gives the removed nodes in order. -/
def NodeId.remove (id : NodeId) : InPlace (List Node) := do
  let f ← InPlace.lookUp id
  let members := ((← get).scope f).map Node.id
  let removed ← members.foldlM (fun removed member => do
    if (← get).contains member then return removed ++ (← member |>.remove)
    else return removed) []
  return removed ++ [← InPlace.detach id]
partial_fixpoint

/-! ## Placing under fresh ids -/

namespace Board

/-- The first free id from a candidate on, in wrapping order. The search goes on forever when no id is
free. -/
def seek (b : Board) (candidate : UInt32) : Option NodeId :=
  if b.contains ⟨candidate⟩ then b |>.seek (candidate + 1)
  else some ⟨candidate⟩
partial_fixpoint

/-- Puts a node under its id: behind the others, or in the place of the node that has the id. -/
def put (b : Board) (n : Node) : Board :=
  if h : n.id ∈ b.ids then
    { nodes := b.nodes.map fun m => if m.id = n.id then n else m
      nextId := b.nextId
      distinct := by
        have hids : ((fun m => m.id) ∘ fun m : Node => if m.id = n.id then n else m) = Node.id := by
          funext m
          simp only [Function.comp_apply]
          split
          · next hid => exact hid.symm
          · rfl
        simpa [List.map_map, hids] using b.distinct }
  else b.append n b.nextId h

end Board

namespace InPlace

/-- Hands out the first free id from the next id on. The one behind it is the next id then. -/
def freshId : InPlace NodeId := do
  let b ← get
  let id ← b.seek b.nextId
  set { b with nextId := saturatingNext id.val }
  return id

/-- Places a payload at a position under a fresh id. -/
def add (kind : Kind) (x y : Binary64) : InPlace NodeId := do
  let id ← freshId
  modify fun b => b.put ⟨id, x, y, kind⟩
  return id

/-- Places a payload from the palette. -/
def addNode (tag : Tag) (x y : Binary64) : InPlace NodeId :=
  add (Kind.fresh tag) x y

end InPlace

end Patchboard
