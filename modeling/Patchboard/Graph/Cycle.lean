import Patchboard.Graph.Search

/-!
# Cycles

Two nodes are in one component when each leads to the other. A component has a cycle when it has two
nodes or an edge from its only node to itself. Of several such components the first is the one whose
last node is left first in a search of the whole graph.
-/

namespace Patchboard.Graph

/-- A node leads to another. Every node leads to itself. -/
def leadsTo (g : Graph) (v w : NodeId) : Bool :=
  (g.reach v).contains w

/-- A node lies on a cycle: some edge of it leads back to it. -/
def onCycle (g : Graph) (v : NodeId) : Bool :=
  (g.next v).any fun w => g.leadsTo w v

/-- Two nodes are in one component. -/
def connected (g : Graph) (v w : NodeId) : Bool :=
  g.leadsTo v w && g.leadsTo w v

/-- The nodes in the component of a node, by id. -/
def component (g : Graph) (v : NodeId) : List NodeId :=
  (g.nodes.filter (g.connected v)).mergeSort NodeId.le

/-- The first component with a cycle among nodes that are left in this order: the component of the
first node that lies on a cycle and is the last of its component. -/
def firstCycleAlong? (g : Graph) : List NodeId → Option (List NodeId)
  | [] => none
  | v :: later =>
    if g.onCycle v && !later.any (g.connected v) then some (g.component v)
    else g.firstCycleAlong? later

/-- The first component with a cycle, if there is one. -/
def firstCycle? (g : Graph) : Option (List NodeId) :=
  g.firstCycleAlong? (g.search g.nodes).left

/-- What is reported as a cycle is the component of a node on a cycle. -/
theorem eq_component_of_firstCycleAlong? {g : Graph} {order c : List NodeId}
    (h : g.firstCycleAlong? order = some c) :
  ∃ v ∈ order, g.onCycle v = true ∧ c = g.component v
  := by
  induction order with
  | nil => simp [firstCycleAlong?] at h
  | cons v later ih =>
    unfold firstCycleAlong? at h
    split at h
    · next hv =>
      rw [Bool.and_eq_true] at hv
      exact ⟨v, List.mem_cons_self, hv.1, (Option.some.inj h).symm⟩
    · obtain ⟨w, hw, hc⟩ := ih h
      exact ⟨w, List.mem_cons_of_mem _ hw, hc⟩

end Patchboard.Graph
