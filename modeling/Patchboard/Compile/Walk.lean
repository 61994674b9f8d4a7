import Patchboard.Compile.Liveness
import Patchboard.Diagnostic.Basic

/-!
# Walking from a return

What a return needs as it is found, step by step, on a state that is changed while it is found. Nodes wait
on a stack, on which a node may stand more than once. It is processed when it is taken off the stack for the
first time: all that its slots hold is counted and put on the stack. A slot that holds nothing of the board
stops the walk.
-/

namespace Patchboard

namespace Graph

/-- Adds a node, unless it is there. -/
def withNode (g : Graph) (v : NodeId) : Graph :=
  if v ∈ g.nodes then g else { g with nodes := g.nodes ++ [v] }

/-- Adds an edge with its ends, unless they are there. -/
def withEdge (g : Graph) (v w : NodeId) : Graph where
  nodes := ((g.withNode v).withNode w).nodes
  next u := if u = v ∧ w ∉ g.next v then g.next u ++ [w] else g.next u

end Graph

/-- Counts one use more of a binding. One that was not used before comes behind the others. -/
def countUse (binding : NodeId) : List (NodeId × Nat) → List (NodeId × Nat)
  | [] => [(binding, 1)]
  | (id, count) :: rest =>
    if id = binding then (id, count + 1) :: rest else (id, count) :: countUse binding rest

/-- How far a walk has come. -/
structure Walk where
  /-- The nodes that wait, the last one first. -/
  stack : List Node
  /-- The nodes that need not be processed again. -/
  visited : List NodeId
  /-- The nodes that were processed, in order, as often as they were. -/
  processed : List NodeId
  /-- The bindings that were met, each with the number of times it was met, in the order of the first. -/
  references : List (NodeId × Nat)
  /-- What was met and is no binding, from consumer to producer. -/
  dependencies : Graph

/-- Steps of a walk. What stops them does not undo what they have done; and they may go on forever. -/
abbrev Walking :=
  ExceptT Diagnostic (StateT Walk Option)

/-- Nothing has been met. -/
def Walk.start : Walk :=
  ⟨[], [], [], [], ⟨[], fun _ => []⟩⟩

namespace Walking

/-- How the steps come out from a state, and the state that they leave behind; none if they go on
forever. -/
def runFrom {α : Type} (steps : Walking α) (w : Walk) : Option (Except Diagnostic α × Walk) :=
  steps.run.run w

/-- Puts a node on the stack. -/
def push (n : Node) : Walking Unit :=
  modify fun w => { w with stack := n :: w.stack }

/-- Takes the last node off the stack, if there is one. -/
def pop : Walking (Option Node) := do
  match (← get).stack with
  | [] => return none
  | n :: rest =>
    modify fun w => { w with stack := rest }
    return some n

/-- Visits a node. The answer is whether it was not visited before. -/
def visit (id : NodeId) : Walking Bool := do
  if id ∈ (← get).visited then return false
  else
    modify fun w => { w with visited := id :: w.visited }
    return true

/-- Goes through what a slot of a node holds. -/
def goThrough (b : Board) (consumer : NodeId) (slot : Nat) (content : Slot) : Walking Unit :=
  match content with
  | none => return ()
  | some target =>
    match b.get? target with
    | none => throw (.dangling consumer slot target)
    | some p => do
      if p.kind.isBinding then modify fun w => { w with references := countUse target w.references }
      else modify fun w => { w with dependencies := w.dependencies.withEdge consumer target }
      push p

/-- Goes through all slots of a node. -/
def process (b : Board) (n : Node) : Walking Unit := do
  modify fun w => { w with
    processed := w.processed ++ [n.id]
    dependencies := w.dependencies.withNode n.id }
  n.kind.inputs.zipIdx.forM fun (content, slot) => goThrough b n.id slot content

end Walking

namespace Board

open Walking

/-- Takes nodes off the stack, as long as there are any, and processes those that were not visited
before. -/
def walk (b : Board) : Walking Unit := do
  match ← pop with
  | none => return ()
  | some n =>
    if ← visit n.id then process b n
    b |>.walk
partial_fixpoint

end Board

/-- Finds what a return needs. -/
def Walking.countReferences (b : Board) (ret : Node) : Walking Unit := do
  push ret
  b.walk

end Patchboard
