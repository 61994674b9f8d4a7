import Patchboard.Node.Basic

/-!
# Boards

A board is a list of nodes with distinct ids, in the order in which they were placed, and the id
that the next node gets. Nodes are looked up by id. Every change of a board is one of four: a node
is appended, a node is taken away, a node is moved, or payloads are changed.
-/

namespace Patchboard

/-- The nodes of a board, in order of placement. -/
structure Board where
  nodes : List Node
  /-- The id for the next node, as long as it is free. -/
  nextId : UInt32
  /-- No two nodes have the same id. -/
  distinct : (nodes.map Node.id).Nodup
deriving DecidableEq

namespace Board

/-- The board without nodes. -/
def empty : Board :=
  ⟨[], 0, List.nodup_nil⟩

/-- The ids on the board, in order. -/
def ids (b : Board) : List NodeId :=
  b.nodes.map Node.id

/-- The node of an id. -/
def get? (b : Board) (id : NodeId) : Option Node :=
  b.nodes.find? fun n => n.id == id

/-- The id is on the board. -/
def contains (b : Board) (id : NodeId) : Bool :=
  (b.get? id).isSome

/-! ## Changes -/

/-- Appends a node whose id is not on the board. -/
def append (b : Board) (n : Node) (nextId : UInt32) (h : n.id ∉ b.ids) : Board where
  nodes := b.nodes ++ [n]
  nextId := nextId
  distinct := by
    rw [List.map_append, List.nodup_append]
    exact ⟨b.distinct, by simp, by rintro id hid _ hn rfl; simp at hn; exact h (hn ▸ hid)⟩

/-- Takes away the node of an id. -/
def erase (b : Board) (id : NodeId) : Board where
  nodes := b.nodes.filter fun n => n.id ≠ id
  nextId := b.nextId
  distinct := b.distinct.sublist (List.filter_sublist.map _)

/-- Changes every payload, given the id of its node. -/
def mapKinds (b : Board) (f : NodeId → Kind → Kind) : Board where
  nodes := b.nodes.map fun n => { n with kind := f n.id n.kind }
  nextId := b.nextId
  distinct := by simpa [List.map_map, Function.comp_def] using b.distinct

/-- Changes the payload of one node. -/
def update (b : Board) (id : NodeId) (f : Kind → Kind) : Board :=
  b.mapKinds fun i k => if i = id then f k else k

/-- Puts one node at another position. -/
def place (b : Board) (id : NodeId) (x y : Binary64) : Board where
  nodes := b.nodes.map fun n => if n.id = id then { n with x := x, y := y } else n
  nextId := b.nextId
  distinct := by
    have h : ((fun n => n.id) ∘ fun n : Node => if n.id = id then { n with x := x, y := y } else n)
        = Node.id := by
      funext n
      simp only [Function.comp_apply]
      split <;> rfl
    simpa [List.map_map, h] using b.distinct

/-! ## Looking up -/

/-- A node that is found has the id that was looked for. -/
theorem id_of_get? {b : Board} {id : NodeId} {n : Node} (h : b.get? id = some n) :
  n.id = id
  := by
  simpa using List.find?_some h

/-- A node that is found is on the board. -/
theorem mem_of_get? {b : Board} {id : NodeId} {n : Node} (h : b.get? id = some n) :
  n ∈ b.nodes
  := List.mem_of_find?_eq_some h

/-- An id is found exactly when it is one of the ids of the board. -/
theorem contains_iff (b : Board) (id : NodeId) :
  b.contains id = true ↔ id ∈ b.ids
  := by
  simp [contains, get?, ids, List.find?_isSome]

/-- An id that is not found is not on the board. -/
theorem not_mem_ids_of_get? {b : Board} {id : NodeId} (h : b.get? id = none) :
  id ∉ b.ids
  := by
  rw [← contains_iff]
  simp [contains, h]

/-- In a list of distinct ids every node is found by its own. -/
theorem find?_of_mem {ns : List Node} (distinct : (ns.map Node.id).Nodup) {n : Node} (h : n ∈ ns) :
  ns.find? (fun m => m.id == n.id) = some n
  := by
  induction ns with
  | nil => cases h
  | cons m rest ih =>
    rw [List.map_cons, List.nodup_cons] at distinct
    rcases List.mem_cons.1 h with rfl | hrest
    · simp
    · have hne : ¬ m.id = n.id := fun heq => distinct.1 (heq ▸ List.mem_map_of_mem hrest)
      simp [hne, ih distinct.2 hrest]

/-- Every node of the board is found by its id. -/
theorem get?_of_mem {b : Board} {n : Node} (h : n ∈ b.nodes) :
  b.get? n.id = some n
  := find?_of_mem b.distinct h

/-- Changing payloads keeps the ids and their order. -/
@[simp]
theorem ids_mapKinds (b : Board) (f : NodeId → Kind → Kind) :
  (b.mapKinds f).ids = b.ids
  := by
  simp [ids, mapKinds, Function.comp_def]

/-- What a change of payloads does to a look-up. -/
theorem get?_mapKinds (b : Board) (f : NodeId → Kind → Kind) (id : NodeId) :
  (b.mapKinds f).get? id = (b.get? id).map fun n => { n with kind := f id n.kind }
  := by
  simp only [get?, mapKinds, List.find?_map, Function.comp_def]
  cases h : b.nodes.find? fun n => n.id == id with
  | none => rfl
  | some n =>
    have hid : n.id = id := by simpa using List.find?_some h
    simp [hid]

/-- What a change of one payload does to a look-up. -/
theorem get?_update (b : Board) (id : NodeId) (f : Kind → Kind) (id' : NodeId) :
  (b.update id f).get? id'
    = (b.get? id').map fun n => if id' = id then { n with kind := f n.kind } else n
  := by
  rw [update, get?_mapKinds]
  by_cases h : id' = id <;> simp [h]

end Board

end Patchboard
