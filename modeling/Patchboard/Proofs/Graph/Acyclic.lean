import Patchboard.Graph.Cycle
import Patchboard.Proofs.Graph.Reach

/-!
# Graphs without cycles

No cycle is reported exactly when no node of the graph leads back to itself by an edge or more. The
nodes of a cycle that is reported lead to each other.
-/

namespace Patchboard.Graph

open Relation (ReflTransGen TransGen)

variable {g : Graph}

/-- One node leads to another exactly when there is a path of edges. -/
theorem leadsTo_iff (closed : g.Closed) {v : NodeId} (hv : v ∈ g.nodes) (w : NodeId) :
  g.leadsTo v w = true ↔ ReflTransGen g.Edge v w
  := by
  rw [leadsTo, List.contains_iff_mem]
  apply mem_reach_iff closed hv

/-- A node lies on a cycle exactly when a path of at least one edge leads back to it. -/
theorem onCycle_iff (closed : g.Closed) {v : NodeId} (hv : v ∈ g.nodes) :
  g.onCycle v = true ↔ TransGen g.Edge v v
  := by
  rw [onCycle, List.any_eq_true, Relation.TransGen.head'_iff]
  constructor
  · rintro ⟨w, hw, hback⟩
    exact ⟨w, hw, (leadsTo_iff closed (closed v hv w hw) v).1 hback⟩
  · rintro ⟨w, hw, hback⟩
    exact ⟨w, hw, (leadsTo_iff closed (closed v hv w hw) v).2 hback⟩

/-- What is in one component with a node on a cycle lies on a cycle. -/
theorem onCycle_of_connected (closed : g.Closed) {v w : NodeId} (hv : v ∈ g.nodes)
    (hw : w ∈ g.nodes) (hcycle : g.onCycle v = true) (h : g.connected v w = true) :
  g.onCycle w = true
  := by
  obtain ⟨hvw, hwv⟩ := Bool.and_eq_true_iff.1 h
  rw [leadsTo_iff closed hv] at hvw
  rw [leadsTo_iff closed hw] at hwv
  rw [onCycle_iff closed hv] at hcycle
  apply (onCycle_iff closed hw).2
  apply TransGen.trans_left _ hvw
  apply TransGen.trans_right hwv hcycle

/-- Nothing is reported along an order exactly when no node of the order lies on a cycle: the last
node of a component with a cycle would be reported. -/
theorem firstCycleAlong?_eq_none_iff (closed : g.Closed) {order : List NodeId}
    (horder : ∀ v ∈ order, v ∈ g.nodes) :
  g.firstCycleAlong? order = none ↔ ∀ v ∈ order, g.onCycle v = false
  := by
  induction order with
  | nil => simp [firstCycleAlong?]
  | cons v later ih =>
    obtain ⟨hv, hlater⟩ := List.forall_mem_cons.1 horder
    rw [firstCycleAlong?]
    constructor
    · intro h
      split at h
      · cases h
      · next hlast =>
        have hrest := (ih hlater).1 h
        apply List.forall_mem_cons.2 ⟨_, hrest⟩
        by_contra hcycle
        rw [Bool.not_eq_false] at hcycle
        obtain ⟨w, hw, hconn⟩ : ∃ w ∈ later, g.connected v w = true := by
          simpa [hcycle] using hlast
        have := onCycle_of_connected closed hv (hlater w hw) hcycle hconn
        rw [hrest w hw] at this
        cases this
    · intro h
      obtain ⟨hfirst, hrest⟩ := List.forall_mem_cons.1 h
      rw [if_neg (by simp [hfirst])]
      apply (ih hlater).2 hrest

/-- A search from all nodes leaves nothing else. -/
theorem mem_left_iff (closed : g.Closed) (v : NodeId) :
  v ∈ (g.search g.nodes).left ↔ v ∈ g.nodes
  := by
  constructor
  · intro hv
    apply (search_extends closed _ fun _ h => h).1.orderly.mem_nodes
    apply (perm_search g g.nodes).symm.subset hv
  · apply mem_left_of_mem_nodes closed

/-- No cycle is reported exactly when there is none. -/
theorem firstCycle?_eq_none_iff (closed : g.Closed) :
  g.firstCycle? = none ↔ ∀ v ∈ g.nodes, ¬ TransGen g.Edge v v
  := by
  rw [firstCycle?, firstCycleAlong?_eq_none_iff closed fun v hv => (mem_left_iff closed v).1 hv]
  constructor
  · intro h v hv hcycle
    rw [← onCycle_iff closed hv, h v ((mem_left_iff closed v).2 hv)] at hcycle
    cases hcycle
  · intro h v hv
    have hv := (mem_left_iff closed v).1 hv
    rw [← Bool.not_eq_true, onCycle_iff closed hv]
    apply h v hv

/-- The component of a node has the nodes that it leads to and that lead back. -/
theorem mem_component_iff (closed : g.Closed) {v : NodeId} (hv : v ∈ g.nodes) (w : NodeId) :
  w ∈ g.component v
    ↔ w ∈ g.nodes ∧ ReflTransGen g.Edge v w ∧ ReflTransGen g.Edge w v
  := by
  rw [component, List.mem_mergeSort, List.mem_filter, connected, Bool.and_eq_true]
  constructor
  · rintro ⟨hw, hvw, hwv⟩
    exact ⟨hw, (leadsTo_iff closed hv w).1 hvw, (leadsTo_iff closed hw v).1 hwv⟩
  · rintro ⟨hw, hvw, hwv⟩
    exact ⟨hw, (leadsTo_iff closed hv w).2 hvw, (leadsTo_iff closed hw v).2 hwv⟩

/-- What is reported as a cycle is the component of a node of the graph that leads back to itself by an
edge or more. -/
theorem eq_component_of_firstCycle? (closed : g.Closed) {c : List NodeId}
    (h : g.firstCycle? = some c) :
  ∃ v ∈ g.nodes, TransGen g.Edge v v ∧ c = g.component v
  := by
  obtain ⟨v, hv, hcycle, hc⟩ := eq_component_of_firstCycleAlong? h
  have hv := (mem_left_iff closed v).1 hv
  exact ⟨v, hv, (onCycle_iff closed hv).1 hcycle, hc⟩

/-- A component lists its nodes by id, each once. -/
theorem pairwise_component (hnodup : g.nodes.Nodup) (v : NodeId) :
  (g.component v).Pairwise fun w w' => w.val < w'.val
  := by
  have hle : (g.component v).Pairwise fun w w' => w.le w' = true := by
    apply List.pairwise_mergeSort
    · intro u w x huw hwx
      simp only [NodeId.le, decide_eq_true_eq] at huw hwx ⊢
      exact UInt32.le_trans huw hwx
    · intro u w
      simp only [NodeId.le, Bool.or_eq_true, decide_eq_true_eq]
      exact UInt32.le_total u.val w.val
  have hne : (g.component v).Nodup :=
    (List.mergeSort_perm _ _).nodup_iff.2 (hnodup.filter _)
  apply hle.imp₂ _ hne
  intro w w' hle hne
  rw [NodeId.le, decide_eq_true_eq] at hle
  apply UInt32.lt_of_le_of_ne hle
  intro heq
  apply hne
  rw [NodeId.mk.injEq]
  exact heq

/-- The component of a node that leads back to itself has another node, or the node has an edge to
itself. -/
theorem two_le_component_or_edge (closed : g.Closed) {v : NodeId} (hv : v ∈ g.nodes)
    (hcycle : TransGen g.Edge v v) :
  2 ≤ (g.component v).length ∨ g.Edge v v
  := by
  obtain ⟨w, hedge, hback⟩ := TransGen.head'_iff.1 hcycle
  by_cases hvw : v = w
  · subst hvw
    exact .inr hedge
  · left
    have hsub : [v, w] ⊆ g.component v := by
      intro u hu
      rw [mem_component_iff closed hv]
      rcases List.mem_pair.1 hu with rfl | rfl
      · exact ⟨hv, .refl, .refl⟩
      · exact ⟨closed v hv u hedge, .single hedge, hback⟩
    apply (List.subperm_of_subset _ hsub).length_le
    simpa using hvw

/-- What is reported as a cycle are nodes of the graph, each of which leads to each by an edge or
more. -/
theorem transGen_of_firstCycle? (closed : g.Closed) {c : List NodeId} (h : g.firstCycle? = some c) :
  c ≠ [] ∧ ∀ v ∈ c, v ∈ g.nodes ∧ ∀ w ∈ c, TransGen g.Edge v w
  := by
  obtain ⟨v, hv, hcycle, rfl⟩ := eq_component_of_firstCycle? closed h
  constructor
  · apply List.ne_nil_of_mem ((mem_component_iff closed hv v).2 ⟨hv, .refl, .refl⟩)
  · intro w hw
    obtain ⟨hw, -, hwv⟩ := (mem_component_iff closed hv w).1 hw
    use hw
    intro w' hw'
    obtain ⟨-, hvw', -⟩ := (mem_component_iff closed hv w').1 hw'
    apply (hcycle.trans_left hvw').trans_right hwv

end Patchboard.Graph
