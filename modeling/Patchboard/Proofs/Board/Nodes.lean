import Patchboard.Board.Basic

/-!
# Nodes and their ids

On a board a node and its id stand for each other.
-/

namespace Patchboard.Board

variable {b : Board} {n p : Node}

/-- The node of an id is the node on the board that has the id. -/
theorem get?_eq_some_iff {id : NodeId} :
  b.get? id = some n ↔ n ∈ b.nodes ∧ n.id = id
  := by
  constructor
  · intro h
    exact ⟨mem_of_get? h, id_of_get? h⟩
  · rintro ⟨hn, rfl⟩
    apply get?_of_mem hn

/-- Nodes of the board with one id are one node. -/
theorem eq_of_id_eq (hn : n ∈ b.nodes) (hp : p ∈ b.nodes) (h : n.id = p.id) :
  n = p
  := by
  have hfound := get?_of_mem hn
  rw [h, get?_of_mem hp] at hfound
  apply (Option.some.inj hfound).symm

/-- An id is on the board exactly when some node of the board has it. -/
theorem contains_iff_exists {id : NodeId} :
  b.contains id = true ↔ ∃ n ∈ b.nodes, n.id = id
  := by
  rw [contains_iff, ids, List.mem_map]

/-- A board is known by its nodes and the id for the next node. -/
theorem ext_of_nodes {b b' : Board} (hnodes : b'.nodes = b.nodes) (hnext : b'.nextId = b.nextId) :
  b' = b
  := by
  cases b
  cases b'
  cases hnodes
  cases hnext
  rfl

end Patchboard.Board
