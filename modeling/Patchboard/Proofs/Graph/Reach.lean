import Mathlib.Data.List.Perm.Subperm
import Mathlib.Logic.Relation
import Patchboard.Graph.Search

/-!
# What a search finds

A search from a node enters exactly the nodes that the edges of the graph lead to from there. The
search is bounded in depth by the number of nodes; the bound is never felt, because the nodes that
are entered within each other are distinct.
-/

namespace Patchboard.Graph

open Relation (ReflTransGen)

variable {g : Graph}

/-- An edge of the graph. -/
def Edge (g : Graph) (v w : NodeId) : Prop :=
  w ∈ g.next v

/-- The edges of a node of the graph lead to nodes of the graph. -/
def Closed (g : Graph) : Prop :=
  ∀ v ∈ g.nodes, ∀ w ∈ g.next v, w ∈ g.nodes

/-! ## States of a search -/

/-- What holds of a search at every moment: it enters nodes of the graph, each once, and what it has
left leads only to nodes that were entered. -/
structure Search.Orderly (g : Graph) (s : Search) : Prop where
  nodup : s.entered.Nodup
  mem_nodes : ∀ v ∈ s.entered, v ∈ g.nodes
  settled : ∀ v ∈ s.left, ∀ w ∈ g.next v, w ∈ s.entered

/-- Nothing has gone wrong at the start. -/
theorem Search.orderly_start (g : Graph) :
  Search.start.Orderly g
  := by
  constructor
  · apply List.nodup_nil
  · intro v hv
    cases hv
  · intro v hv
    cases hv

/-- A node that was not entered leaves room for one more. -/
theorem Search.Orderly.length_lt {s : Search} (hs : s.Orderly g) {v : NodeId} (hv : v ∈ g.nodes)
    (hnew : v ∉ s.entered) :
  s.entered.length < g.nodes.length
  := by
  have hsub : (v :: s.entered) ⊆ g.nodes := List.cons_subset.2 ⟨hv, hs.mem_nodes⟩
  apply (List.subperm_of_subset (List.nodup_cons.2 ⟨hnew, hs.nodup⟩) hsub).length_le

/-- A search stays orderly when it enters one more node of the graph. -/
theorem Search.Orderly.enter {s : Search} (hs : s.Orderly g) {v : NodeId} (hv : v ∈ g.nodes)
    (hnew : v ∉ s.entered) :
  Search.Orderly g { s with entered := s.entered ++ [v] }
  := by
  constructor
  · apply List.nodup_append.2
    refine ⟨hs.nodup, by simp, ?_⟩
    rintro u hu w hw rfl
    rw [List.mem_singleton.1 hw] at hu
    apply hnew hu
  · intro w hw
    rcases List.mem_append.1 hw with hw | hw
    · apply hs.mem_nodes w hw
    · rw [List.mem_singleton.1 hw]
      apply hv
  · intro u hu w hw
    apply List.mem_append_left _ (hs.settled u hu w hw)

/-- What a visit, or a row of visits, does to a search: the search stays orderly, and forgets no
node that it has entered. -/
structure Search.Extends (g : Graph) (s t : Search) : Prop where
  orderly : t.Orderly g
  entered : s.entered <+: t.entered

/-- A row of visits enters all the nodes that are visited, provided that each visit does. -/
theorem foldl_visit {depth : Nat}
    (visits : ∀ (s : Search) (v : NodeId), s.Orderly g → v ∈ g.nodes →
      g.nodes.length ≤ depth + s.entered.length →
      s.Extends g (g.visit depth s v) ∧ v ∈ (g.visit depth s v).entered)
    (ws : List NodeId) (s : Search) (hs : s.Orderly g) (hws : ∀ w ∈ ws, w ∈ g.nodes)
    (hd : g.nodes.length ≤ depth + s.entered.length) :
  s.Extends g (ws.foldl (g.visit depth) s) ∧
    ∀ w ∈ ws, w ∈ (ws.foldl (g.visit depth) s).entered
  := by
  induction ws generalizing s with
  | nil => simpa using ⟨hs, List.prefix_rfl⟩
  | cons w ws ih =>
    obtain ⟨hw, hws⟩ := List.forall_mem_cons.1 hws
    obtain ⟨hfirst, hin⟩ := visits s w hs hw hd
    have hlen := hfirst.entered.length_le
    obtain ⟨hrest, hall⟩ := ih (g.visit depth s w) hfirst.orderly hws (by omega)
    rw [List.foldl_cons]
    constructor
    · exact ⟨hrest.orderly, hfirst.entered.trans hrest.entered⟩
    · intro u hu
      rcases List.mem_cons.1 hu with rfl | hu
      · apply hrest.entered.subset hin
      · apply hall u hu

/-- A visit with depth to spare enters its node and everything that can be entered from it. -/
theorem visit_extends (closed : g.Closed) (depth : Nat) (s : Search) (v : NodeId)
    (hs : s.Orderly g) (hv : v ∈ g.nodes) (hd : g.nodes.length ≤ depth + s.entered.length) :
  s.Extends g (g.visit depth s v) ∧ v ∈ (g.visit depth s v).entered
  := by
  induction depth generalizing s v with
  | zero =>
    have hin : v ∈ s.entered := by
      by_contra hnew
      have := hs.length_lt hv hnew
      omega
    exact ⟨⟨hs, List.prefix_rfl⟩, hin⟩
  | succ depth ih =>
    rw [visit]
    split
    · next hin => exact ⟨⟨hs, List.prefix_rfl⟩, hin⟩
    · next hnew =>
      have hroom := hs.length_lt hv hnew
      let entering : Search := { s with entered := s.entered ++ [v] }
      obtain ⟨hinner, hnext⟩ := foldl_visit ih (g.next v) entering (hs.enter hv hnew) (closed v hv)
        (by simp only [entering, List.length_append, List.length_singleton]; omega)
      have hin : v ∈ ((g.next v).foldl (g.visit depth) entering).entered := by
        apply hinner.entered.subset
        simp [entering]
      refine ⟨⟨⟨hinner.orderly.nodup, hinner.orderly.mem_nodes, ?_⟩, ?_⟩, hin⟩
      -- What was left before is settled by the induction, and `v` by the visits of its edges.
      · intro u hu w hw
        rcases List.mem_append.1 hu with hu | hu
        · apply hinner.orderly.settled u hu w hw
        · rw [List.mem_singleton.1 hu] at hw
          apply hnext w hw
      · apply (List.prefix_append _ _).trans hinner.entered

/-- A search that has entered nothing has room for visits of any nodes. -/
theorem search_extends (closed : g.Closed) (starts : List NodeId)
    (hstarts : ∀ v ∈ starts, v ∈ g.nodes) :
  Search.start.Extends g (g.search starts) ∧ ∀ v ∈ starts, v ∈ (g.search starts).entered
  := foldl_visit (visit_extends closed _) starts .start (Search.orderly_start g) hstarts
    (Nat.le_add_right _ _)

/-- After a search nothing is entered and not left. -/
theorem perm_search (g : Graph) (starts : List NodeId) :
  (g.search starts).entered.Perm (g.search starts).left
  := by
  have row : ∀ (vs : List NodeId) (s : Search), s.entered.Perm s.left →
      (vs.foldl (g.visit g.nodes.length) s).entered.Perm
        (vs.foldl (g.visit g.nodes.length) s).left := by
    intro vs
    induction vs with
    | nil => exact fun _ h => h
    | cons v vs ih =>
      intro s h
      apply ih
      have hnone : s.entered.Perm (s.left ++ []) := by simpa using h
      simpa using g.perm_visit g.nodes.length s v hnone
  apply row starts .start
  apply List.Perm.refl

/-! ## Reachable nodes -/

/-- A visit enters only what its node leads to. -/
theorem reachable_of_mem_visit (depth : Nat) (s : Search) (v : NodeId) {w : NodeId}
    (hw : w ∈ (g.visit depth s v).entered) :
  w ∈ s.entered ∨ ReflTransGen g.Edge v w
  := by
  induction depth generalizing s v w with
  | zero => exact .inl hw
  | succ depth ih =>
    have row : ∀ (us : List NodeId) (s : Search) {w : NodeId},
        w ∈ (us.foldl (g.visit depth) s).entered →
        w ∈ s.entered ∨ ∃ u ∈ us, ReflTransGen g.Edge u w := by
      intro us
      induction us with
      | nil => exact fun _ _ h => .inl h
      | cons u us ihus =>
        intro s w hw
        rcases ihus _ hw with hw | ⟨u', hu', hw⟩
        · rcases ih s u hw with hw | hw
          · exact .inl hw
          · exact .inr ⟨u, List.mem_cons_self, hw⟩
        · exact .inr ⟨u', List.mem_cons_of_mem u hu', hw⟩
    rw [visit] at hw
    split at hw
    · exact .inl hw
    · rcases row (g.next v) _ hw with hw | ⟨u, hu, hw⟩
      · rcases List.mem_append.1 hw with hw | hw
        · exact .inl hw
        · rw [List.mem_singleton.1 hw]
          exact .inr .refl
      · exact .inr (.head hu hw)

/-- A node leads exactly to what a search from it enters. -/
theorem mem_reach_iff (closed : g.Closed) {v : NodeId} (hv : v ∈ g.nodes) (w : NodeId) :
  w ∈ g.reach v ↔ ReflTransGen g.Edge v w
  := by
  obtain ⟨hsearch, hstart⟩ := search_extends closed [v] (by simpa using hv)
  constructor
  · intro hw
    have hw' : w ∈ (g.visit g.nodes.length .start v).entered := hw
    simpa [Search.start] using reachable_of_mem_visit _ _ _ hw'
  · intro hvw
    induction hvw with
    | refl => exact hstart v (List.mem_singleton_self v)
    | tail _ huw ih =>
      apply hsearch.orderly.settled _ _ _ huw
      apply (perm_search g [v]).subset ih

/-- A search from one node enters every node once. -/
theorem nodup_reach (closed : g.Closed) {v : NodeId} (hv : v ∈ g.nodes) :
  (g.reach v).Nodup
  := (search_extends closed [v] (by simpa using hv)).1.orderly.nodup

/-- A search from all nodes leaves all nodes. -/
theorem mem_left_of_mem_nodes (closed : g.Closed) {v : NodeId} (hv : v ∈ g.nodes) :
  v ∈ (g.search g.nodes).left
  := by
  apply (perm_search g g.nodes).subset
  apply (search_extends closed _ fun _ h => h).2 v hv

/-! ## Searches of two graphs -/

variable {g' : Graph}

/-- A visit takes the same course in two graphs with the same edges, whatever the depth, as long as
there is depth to spare. -/
theorem visit_congr (closed : g.Closed) (hsame : ∀ v ∈ g.nodes, g'.next v = g.next v)
    (depth depth' : Nat) (s : Search) (v : NodeId) (hs : s.Orderly g) (hv : v ∈ g.nodes)
    (hd : g.nodes.length ≤ depth + s.entered.length)
    (hd' : g.nodes.length ≤ depth' + s.entered.length) :
  g'.visit depth' s v = g.visit depth s v
  := by
  induction depth generalizing depth' s v with
  | zero =>
    have hin : v ∈ s.entered := by
      by_contra hnew
      have := hs.length_lt hv hnew
      omega
    cases depth' with
    | zero => rfl
    | succ depth' => rw [visit, visit, if_pos hin]
  | succ depth ih =>
    by_cases hin : v ∈ s.entered
    · rw [visit, if_pos hin]
      cases depth' with
      | zero => rfl
      | succ depth' => rw [visit, if_pos hin]
    · have hroom := hs.length_lt hv hin
      obtain ⟨depth', rfl⟩ : ∃ d, depth' = d + 1 := Nat.exists_eq_add_one.2 (by omega)
      have row : ∀ (ws : List NodeId) (s : Search), s.Orderly g → (∀ w ∈ ws, w ∈ g.nodes) →
          g.nodes.length ≤ depth + s.entered.length →
          g.nodes.length ≤ depth' + s.entered.length →
          ws.foldl (g'.visit depth') s = ws.foldl (g.visit depth) s := by
        intro ws
        induction ws with
        | nil => exact fun _ _ _ _ _ => rfl
        | cons w ws ihws =>
          intro s hs hws hd hd'
          obtain ⟨hw, hws⟩ := List.forall_mem_cons.1 hws
          obtain ⟨hfirst, -⟩ := visit_extends closed depth s w hs hw hd
          have hlen := hfirst.entered.length_le
          rw [List.foldl_cons, List.foldl_cons, ih depth' s w hs hw hd hd']
          apply ihws _ hfirst.orderly hws <;> omega
      rw [visit, if_neg hin, visit, if_neg hin, hsame v hv]
      rw [row (g.next v) _ (hs.enter hv hin) (closed v hv)]
      · simp only [List.length_append, List.length_singleton]
        omega
      · simp only [List.length_append, List.length_singleton]
        omega

/-- A node leads to the same nodes, in the same order, in two graphs with the same edges between the
nodes that it leads to. -/
theorem reach_congr (closed : g.Closed) {v : NodeId} (hv : v ∈ g.nodes)
    (hsub : ∀ w ∈ g.reach v, w ∈ g'.nodes) (hsame : ∀ w ∈ g.reach v, g'.next w = g.next w) :
  g'.reach v = g.reach v
  := by
  -- Both searches stay within the part of the graph that the node leads to.
  let part : Graph := ⟨g.reach v, g.next⟩
  have hpart : part.Closed := by
    intro u hu w hw
    apply (mem_reach_iff closed hv w).2
    exact ((mem_reach_iff closed hv u).1 hu).tail hw
  have hlength : ∀ {ids : List NodeId}, (∀ w ∈ g.reach v, w ∈ ids) →
      part.nodes.length ≤ ids.length := fun hsub =>
    (List.subperm_of_subset (nodup_reach closed hv) hsub).length_le
  have hnodes : part.nodes.length ≤ g.nodes.length := by
    apply hlength
    exact (search_extends closed [v] (by simpa using hv)).1.orderly.mem_nodes
  have hstart : v ∈ part.nodes := (mem_reach_iff closed hv v).2 .refl
  have visits : ∀ h : Graph, (∀ w ∈ part.nodes, h.next w = part.next w) →
      part.nodes.length ≤ h.nodes.length →
      h.reach v = (part.visit part.nodes.length .start v).entered := by
    intro h hsame hlen
    apply congrArg Search.entered
    apply visit_congr hpart hsame _ _ _ _ (Search.orderly_start part) hstart
    · apply Nat.le_add_right
    · apply Nat.le_add_right_of_le hlen
  rw [visits g (fun _ _ => rfl) hnodes, visits g' hsame (hlength hsub)]

end Patchboard.Graph
