import Mathlib.Data.Set.Card
import Patchboard.Proofs.Compile.Walk

/-!
# What a walk counts

When a walk has come to its end, it has processed each live node once. It has counted how many slots of these
nodes hold each binding, and noted which of them hold what else. It is stopped exactly when one of these slots
dangles.
-/

namespace Patchboard

namespace Board

variable {b : Board} {r : Node}

/-! ## Slots of live nodes -/

/-- The slots of live nodes that hold an id, by node and slot. -/
def readers (b : Board) (r : Node) (id : NodeId) : Set (NodeId × Nat) :=
  {s | ∃ n, b.Live r n ∧ s.1 = n.id ∧ n.kind.input s.2 = some id}

/-- A slot of a live node holds an id that no node of the board has. -/
def Dangles (b : Board) (r n : Node) (slot : Nat) (id : NodeId) : Prop :=
  b.Live r n ∧ n.kind.input slot = some id ∧ id ∉ b.ids

/-- The slots that hold an id are those that its live wires lead to. -/
theorem mem_readers_iff (hr : r ∈ b.nodes) (id : NodeId) (s : NodeId × Nat) :
  s ∈ b.readers r id ↔ ∃ w ∈ b.liveWires r.id, w.producer = id ∧ (w.consumer, w.slot) = s
  := by
  constructor
  · rintro ⟨n, hn, hconsumer, hslot⟩
    exact ⟨⟨s.1, s.2, id⟩, (mem_liveWires_iff hr _).2 ⟨n, hn, hconsumer, hslot⟩, rfl, rfl⟩
  · rintro ⟨w, hw, rfl, rfl⟩
    exact (mem_liveWires_iff hr w).1 hw

/-- The slots that hold an id, and of which something holds, are counted by their live wires. -/
theorem ncard_readers (hr : r ∈ b.nodes) (id : NodeId) (p : NodeId × Nat → Prop) [DecidablePred p] :
  {s ∈ b.readers r id | p s}.ncard
    = (b.liveWires r.id).countP fun w => w.producer = id ∧ p (w.consumer, w.slot)
  := by
  let counted := (b.liveWires r.id).filter fun w => w.producer = id ∧ p (w.consumer, w.slot)
  have hslots : {s ∈ b.readers r id | p s}
      = Set.image (fun w : Wire => (w.consumer, w.slot)) (counted.toFinset : Set Wire) := by
    ext s
    simp only [Set.mem_ofPred_eq, mem_readers_iff hr, Set.mem_image, List.coe_toFinset, counted,
      List.mem_filter, decide_eq_true_eq]
    constructor
    · rintro ⟨⟨w, hw, hid, rfl⟩, hp⟩
      exact ⟨w, ⟨hw, hid, hp⟩, rfl⟩
    · rintro ⟨w, ⟨hw, hid, hp⟩, rfl⟩
      exact ⟨⟨w, hw, hid, rfl⟩, hp⟩
  have hinj : Set.InjOn (fun w : Wire => (w.consumer, w.slot)) (counted.toFinset : Set Wire) := by
    intro w hw w' hw' h
    rw [List.coe_toFinset] at hw hw'
    obtain ⟨hconsumer, hslot⟩ := Prod.mk.inj h
    exact eq_of_mem_liveWires hr (List.mem_filter.1 hw).1 (List.mem_filter.1 hw').1 hconsumer hslot
  rw [hslots, hinj.ncard_image, Set.ncard_coe_finset,
    List.toFinset_card_of_nodup ((nodup_liveWires hr).filter _), List.countP_eq_length_filter]

/-- Live slots dangle when the live part of the board is not grounded. -/
theorem not_grounded_iff :
  ¬ b.Grounded r ↔ ∃ n slot id, b.Dangles r n slot id
  := by
  have hids : ∀ (n : Node) (slot : Nat) (id : NodeId), n.kind.input slot = some id →
      ((∃ p, b.Holds n slot p ∧ p.id = id) ↔ id ∈ b.ids) := by
    intro n slot id hslot
    rw [ids, List.mem_map]
    constructor
    · rintro ⟨p, hp, hid⟩
      exact ⟨p, hp.2, hid⟩
    · rintro ⟨p, hp, rfl⟩
      exact ⟨p, ⟨hslot, hp⟩, rfl⟩
  simp only [Grounded, Dangles, not_forall]
  constructor
  · rintro ⟨n, hn, slot, id, hslot, hnone⟩
    exact ⟨n, slot, id, hn, hslot, fun hid => hnone ((hids n slot id hslot).2 hid)⟩
  · rintro ⟨n, slot, id, hn, hslot, hid⟩
    exact ⟨n, hn, slot, id, hslot, fun hsome => hid ((hids n slot id hslot).1 hsome)⟩

/-- The first wire that dangles leads to a slot that does. -/
theorem dangles_of_danglingWire? (hr : r ∈ b.nodes) {x : Wire} (h : b.danglingWire? r.id = some x) :
  ∃ n, b.Dangles r n x.slot x.producer ∧ n.id = x.consumer
  := by
  have hx : b.contains x.producer = false := by simpa using List.find?_some h
  obtain ⟨n, hn, hconsumer, hslot⟩ := (mem_liveWires_iff hr x).1 (List.mem_of_find?_eq_some h)
  have hid : x.producer ∉ b.ids := by
    intro hid
    obtain ⟨p, hp, hpid⟩ := List.mem_map.1 hid
    have : b.contains x.producer = true := contains_iff_exists.2 ⟨p, hp, hpid⟩
    rw [hx] at this
    cases this
  exact ⟨n, ⟨hn, hslot, hid⟩, hconsumer.symm⟩

end Board

namespace Walking

variable {b : Board} {w : Walk} {r : Node}

/-! ## What has been counted -/

/-- Counting one use more among the numbers of uses of distinct bindings. -/
theorem countUse_map (count : NodeId → Nat) {ids : List NodeId} (hnodup : ids.Nodup) (id : NodeId) :
  countUse id (ids.map fun i => (i, count i))
    = if id ∈ ids then ids.map fun i => (i, if i = id then count i + 1 else count i)
      else ids.map (fun i => (i, count i)) ++ [(id, 1)]
  := by
  induction ids with
  | nil => rfl
  | cons i ids ih =>
    obtain ⟨hi, hnodup⟩ := List.nodup_cons.1 hnodup
    rw [List.map_cons, countUse]
    by_cases h : i = id
    · subst h
      have hrest : (ids.map fun j => (j, if j = i then count j + 1 else count j))
          = ids.map fun j => (j, count j) := by
        apply List.map_congr_left
        intro j hj
        rw [if_neg (ne_of_mem_of_not_mem hj hi)]
      rw [if_pos rfl, if_pos List.mem_cons_self, List.map_cons, if_pos rfl, hrest]
    · have hmem : id ∈ i :: ids ↔ id ∈ ids := by
        rw [List.mem_cons]
        exact or_iff_right (Ne.symm h)
      rw [if_neg h, ih hnodup]
      simp only [hmem]
      split
      · rw [List.map_cons, if_neg h]
      · rfl

/-- Counting the uses of a list of bindings, one after the other. -/
theorem foldl_countUse (ids : List NodeId) :
  ids.foldl (fun counts id => countUse id counts) [] = ids.eraseDups.map fun id => (id, ids.count id)
  := by
  induction ids using List.reverseRecOn with
  | nil => rfl
  | append_singleton ids id ih =>
    have hcount : ∀ i, (ids ++ [id]).count i = if i = id then ids.count i + 1 else ids.count i := by
      intro i
      rw [List.count_append]
      by_cases h : i = id
      · rw [if_pos h, h, List.count_singleton_self]
      · have hid : [id].count i = 0 := List.count_eq_zero_of_not_mem (by simpa using h)
        rw [if_neg h, hid, Nat.add_zero]
    rw [List.foldl_concat, ih, countUse_map _ (Board.nodup_eraseDups ids), List.eraseDups_append]
    simp only [List.mem_eraseDups, hcount]
    split
    · next h =>
      rw [List.removeAll, List.filter_eq_nil_iff.2 (by simpa using h), List.eraseDups_nil, List.append_nil]
    · next h =>
      have hsame : (ids.eraseDups.map fun i => (i, if i = id then ids.count i + 1 else ids.count i))
          = ids.eraseDups.map fun i => (i, ids.count i) := by
        apply List.map_congr_left
        intro i hi
        rw [if_neg (ne_of_mem_of_not_mem (List.mem_eraseDups.1 hi) h)]
      rw [List.removeAll, List.filter_eq_self.2 (by simpa using h), List.map_append, hsame, List.eraseDups_cons,
        List.filter_nil, List.eraseDups_nil, List.map_singleton, if_pos rfl, List.count_eq_zero_of_not_mem h]

/-- The bindings among the wires are counted. -/
theorem references_foldl_counted (b : Board) (w : Walk) (xs : List Wire) :
  (xs.foldl (counted b) w).references
    = ((xs.map Wire.producer).filter b.isBinding).foldl (fun counts id => countUse id counts) w.references
  := by
  induction xs generalizing w with
  | nil => rfl
  | cons x xs ih =>
    rw [List.foldl_cons, ih, counted, List.map_cons, List.filter_cons]
    cases b.isBinding x.producer <;> rfl

/-- When nodes have been processed, the bindings among the wires into them have been counted. -/
theorem references_through (b : Board) (ids : List NodeId) :
  (through b ids).references
    = (((ids.flatMap b.wiresInto).map Wire.producer).filter b.isBinding).foldl
        (fun counts id => countUse id counts) []
  := by
  induction ids using List.reverseRecOn with
  | nil => rfl
  | append_singleton ids id ih =>
    rw [through_concat, references_foldl_counted, List.flatMap_append, List.map_append, List.filter_append,
      List.foldl_append, List.flatMap_singleton, ← ih]
    rfl

/-- The walk from a return counts its uses. -/
theorem references_through_live (b : Board) (id : NodeId) :
  (through b (b.live id)).references = b.uses id
  := (references_through b (b.live id)).trans (foldl_countUse _)

/-! ## What has been noted -/

/-- A node of a graph to which one has been added. -/
theorem mem_nodes_withNode (g : Graph) (v id : NodeId) :
  id ∈ (g.withNode v).nodes ↔ id ∈ g.nodes ∨ id = v
  := by
  rw [Graph.withNode]
  split
  · next h =>
    constructor
    · exact .inl
    · rintro (hid | rfl)
      · exact hid
      · exact h
  · simp

/-- A node of a graph to which an edge has been added. -/
theorem mem_nodes_withEdge (g : Graph) (v w id : NodeId) :
  id ∈ (g.withEdge v w).nodes ↔ id ∈ g.nodes ∨ id = v ∨ id = w
  := by
  show id ∈ ((g.withNode v).withNode w).nodes ↔ _
  rw [mem_nodes_withNode, mem_nodes_withNode, or_assoc]

/-- An edge of a graph to which a node has been added. -/
theorem next_withNode (g : Graph) (v : NodeId) :
  (g.withNode v).next = g.next
  := by
  rw [Graph.withNode]
  split <;> rfl

/-- An edge of a graph to which one has been added. -/
theorem edge_withEdge (g : Graph) (v w u id : NodeId) :
  (g.withEdge v w).Edge u id ↔ g.Edge u id ∨ u = v ∧ id = w
  := by
  show id ∈ (if u = v ∧ w ∉ g.next v then g.next u ++ [w] else g.next u)
    ↔ id ∈ g.next u ∨ u = v ∧ id = w
  split
  · next h => simp [h.1]
  · next h =>
    constructor
    · exact .inl
    · rintro (hid | ⟨rfl, rfl⟩)
      · exact hid
      · exact not_not.1 (not_and.1 h rfl)

/-- No edge is there twice when one is added. -/
theorem nodup_next_withEdge {g : Graph} (h : ∀ u, (g.next u).Nodup) (v w u : NodeId) :
  ((g.withEdge v w).next u).Nodup
  := by
  show (if u = v ∧ w ∉ g.next v then g.next u ++ [w] else g.next u).Nodup
  split
  · next hnew =>
    obtain ⟨rfl, hw⟩ := hnew
    apply List.nodup_append.2 ⟨h u, List.nodup_singleton w, _⟩
    intro i hi j hj
    rw [List.mem_singleton.1 hj]
    exact ne_of_mem_of_not_mem hi hw
  · exact h u

/-- What has been noted when some nodes have been processed and some wires counted. -/
structure Notes (b : Board) (ids : List NodeId) (xs : List Wire) (g : Graph) : Prop where
  mem_nodes : ∀ id, id ∈ g.nodes
    ↔ id ∈ ids ∨ ∃ x ∈ xs, b.isBinding x.producer = false ∧ (id = x.consumer ∨ id = x.producer)
  edge : ∀ v id, g.Edge v id
    ↔ ∃ x ∈ xs, b.isBinding x.producer = false ∧ v = x.consumer ∧ id = x.producer
  nodup : ∀ v, (g.next v).Nodup

/-- One wire more is counted. -/
theorem Notes.counted {ids : List NodeId} {xs : List Wire} (h : Notes b ids xs w.dependencies) (x : Wire) :
  Notes b ids (xs ++ [x]) (counted b w x).dependencies
  := by
  rw [Walking.counted]
  cases hx : b.isBinding x.producer with
  | true =>
    constructor
    · simpa [hx] using h.mem_nodes
    · simpa [hx] using h.edge
    · exact h.nodup
  | false =>
    constructor
    · intro id
      show id ∈ (w.dependencies.withEdge x.consumer x.producer).nodes ↔ _
      rw [mem_nodes_withEdge, h.mem_nodes]
      simp [or_and_right, exists_or, hx, or_assoc]
    · intro v id
      show (w.dependencies.withEdge x.consumer x.producer).Edge v id ↔ _
      rw [edge_withEdge, h.edge]
      simp [or_and_right, exists_or, hx]
    · exact nodup_next_withEdge h.nodup x.consumer x.producer

/-- More wires are counted. -/
theorem Notes.foldl_counted {ids : List NodeId} {xs : List Wire} (h : Notes b ids xs w.dependencies)
    (ys : List Wire) :
  Notes b ids (xs ++ ys) (ys.foldl (Walking.counted b) w).dependencies
  := by
  induction ys generalizing xs w with
  | nil => simpa using h
  | cons y ys ih => simpa using ih (h.counted y)

/-- One node more is processed. -/
theorem Notes.entering {ids : List NodeId} {xs : List Wire} (h : Notes b ids xs w.dependencies) (id : NodeId) :
  Notes b (ids ++ [id]) xs (entering w id).dependencies
  := by
  constructor
  · intro i
    show i ∈ (w.dependencies.withNode id).nodes ↔ _
    rw [mem_nodes_withNode, h.mem_nodes, List.mem_append, List.mem_singleton]
    exact or_right_comm
  · intro v i
    show i ∈ (w.dependencies.withNode id).next v ↔ _
    rw [next_withNode]
    exact h.edge v i
  · intro v
    show ((w.dependencies.withNode id).next v).Nodup
    rw [next_withNode]
    exact h.nodup v

/-- When nodes have been processed, the wires into them have been noted. -/
theorem notes_through (b : Board) (ids : List NodeId) :
  Notes b ids (ids.flatMap b.wiresInto) (through b ids).dependencies
  := by
  induction ids using List.reverseRecOn with
  | nil =>
    constructor
    · simp [through, Walk.start]
    · simp [through, Walk.start, Graph.Edge]
    · exact fun _ => List.nodup_nil
  | append_singleton ids id ih =>
    rw [through_concat, List.flatMap_append, List.flatMap_singleton]
    exact (ih.entering id).foldl_counted (b.wiresInto id)

/-! ## Results -/

/-- What is known when a walk from a return has come to its end. -/
structure Exact (b : Board) (r : Node) (w : Walk) : Prop where
  /-- No node was processed twice. -/
  nodup_processed : w.processed.Nodup
  mem_processed : ∀ id, id ∈ w.processed ↔ ∃ n, b.Live r n ∧ n.id = id
  /-- No binding is counted in two places. -/
  nodup_references : (w.references.map Prod.fst).Nodup
  mem_references : ∀ id count, (id, count) ∈ w.references
    ↔ b.isBinding id = true ∧ (b.readers r id).Nonempty ∧ count = (b.readers r id).ncard
  mem_nodes : ∀ id, id ∈ w.dependencies.nodes ↔ ∃ n, b.Live r n ∧ n.id = id
  edge : ∀ v id, w.dependencies.Edge v id ↔ ∃ n p, b.Live r n ∧ b.Inner n p ∧ n.id = v ∧ p.id = id
  /-- No edge is there twice. -/
  nodup_next : ∀ v, (w.dependencies.next v).Nodup

/-- What the bindings among the live wires are counted to. -/
theorem mem_uses_iff_readers (hr : r ∈ b.nodes) (id : NodeId) (count : Nat) :
  (id, count) ∈ b.uses r.id
    ↔ b.isBinding id = true ∧ (b.readers r id).Nonempty ∧ count = (b.readers r id).ncard
  := by
  have hcard : (b.readers r id).ncard = (b.liveWires r.id).countP fun w => w.producer = id := by
    simpa using Board.ncard_readers hr id fun _ => True
  have hsome : (b.readers r id).Nonempty ↔ id ∈ (b.liveWires r.id).map Wire.producer := by
    simp only [Set.Nonempty, Board.mem_readers_iff hr, List.mem_map]
    constructor
    · rintro ⟨_, w, hw, hid, -⟩
      exact ⟨w, hw, hid⟩
    · rintro ⟨w, hw, hid⟩
      exact ⟨_, w, hw, hid, rfl⟩
  rw [Board.mem_uses_iff, List.mem_filter, hcard, hsome]
  tauto

/-- A live wire that comes from no binding joins a live node with one that is written within it. -/
theorem exists_inner_iff (hr : r ∈ b.nodes) (hg : b.Grounded r) (v id : NodeId) :
  (∃ x ∈ b.liveWires r.id, b.isBinding x.producer = false ∧ v = x.consumer ∧ id = x.producer)
    ↔ ∃ n p, b.Live r n ∧ b.Inner n p ∧ n.id = v ∧ p.id = id
  := by
  constructor
  · rintro ⟨x, hx, hbinding, rfl, rfl⟩
    obtain ⟨n, hn, hconsumer, hslot⟩ := (Board.mem_liveWires_iff hr x).1 hx
    obtain ⟨p, hp, hid⟩ := hg n hn x.slot x.producer hslot
    rw [← hid, Board.isBinding_id hp.2] at hbinding
    exact ⟨n, p, hn, ⟨⟨x.slot, hp⟩, hbinding⟩, hconsumer.symm, hid⟩
  · rintro ⟨n, p, hn, ⟨⟨slot, hslot, hp⟩, hbinding⟩, rfl, rfl⟩
    refine ⟨⟨n.id, slot, p.id⟩, (Board.mem_liveWires_iff hr _).2 ⟨n, hn, rfl, hslot⟩, ?_, rfl, rfl⟩
    rw [Board.isBinding_id hp, hbinding]

/-- A walk that has processed the live nodes is exact. -/
theorem exact_through_live (hr : r ∈ b.nodes) (hg : b.Grounded r) :
  Exact b r (through b (b.live r.id))
  := by
  have hnotes := notes_through b (b.live r.id)
  constructor
  · rw [(nodes_through b _).2.2]
    exact Board.nodup_live hr
  · rw [(nodes_through b _).2.2]
    exact Board.mem_live_iff hr
  · rw [references_through_live, Board.map_fst_uses]
    apply Board.nodup_eraseDups
  · rw [references_through_live]
    exact mem_uses_iff_readers hr
  · intro id
    rw [hnotes.mem_nodes, Board.mem_live_iff hr]
    -- Both ends of a live wire are live.
    apply or_iff_left_of_imp
    rintro ⟨x, hx, hbinding, hid⟩
    obtain ⟨n, p, hn, hp, hv, hpid⟩ :=
      (exists_inner_iff hr hg x.consumer x.producer).1 ⟨x, hx, hbinding, rfl, rfl⟩
    rcases hid with rfl | rfl
    · exact ⟨n, hn, hv⟩
    · exact ⟨p, hn.tail hp.1, hpid⟩
  · intro v id
    rw [hnotes.edge]
    exact exists_inner_iff hr hg v id
  · exact hnotes.nodup

/-- What has been counted when a walk has not been stopped. -/
theorem references_of_countReferences (hr : r ∈ b.nodes)
    (h : (countReferences b r).runFrom .start = some (.ok (), w)) :
  b.danglingWire? r.id = none ∧ w.references = b.uses r.id
  := by
  cases hdangling : b.danglingWire? r.id with
  | none =>
    obtain ⟨-, rfl⟩ := Prod.mk.inj (Option.some.inj ((runFrom_countReferences hr hdangling).symm.trans h))
    exact ⟨rfl, references_through_live b r.id⟩
  | some x =>
    obtain ⟨w', hw'⟩ := stops_countReferences hr hdangling
    cases hw'.symm.trans h

/-- The walk from a return counts what it should on every board, with circles or without. It comes to an end;
it is stopped exactly when a slot of a live node dangles, and names such a slot; and otherwise it has
processed the live nodes, each once, has counted the live slots of each binding, and has noted what else the
live slots hold. -/
theorem countReferences_exact (b : Board) (r : Node) (hr : r ∈ b.nodes) :
  ∃ outcome w, (countReferences b r).runFrom .start = some (outcome, w) ∧
    ((∃ d, outcome = .error d) ↔ ∃ n slot id, b.Dangles r n slot id) ∧
    (∀ d, outcome = .error d → ∃ n slot id, b.Dangles r n slot id ∧ d = .dangling n.id slot id) ∧
    (outcome = .ok () → Exact b r w)
  := by
  cases hdangling : b.danglingWire? r.id with
  | none =>
    have hg := (Board.danglingWire?_eq_none_iff hr).1 hdangling
    refine ⟨_, _, runFrom_countReferences hr hdangling, ?_, ?_, fun _ => exact_through_live hr hg⟩
    · rw [← Board.not_grounded_iff]
      simp [hg]
    · rintro d ⟨⟩
  | some x =>
    obtain ⟨w, hw⟩ := stops_countReferences hr hdangling
    obtain ⟨n, hn, hid⟩ := Board.dangles_of_danglingWire? hr hdangling
    refine ⟨_, w, hw, ?_, ?_, ?_⟩
    · exact ⟨fun _ => ⟨n, _, _, hn⟩, fun _ => ⟨_, rfl⟩⟩
    · rintro d ⟨⟩
      exact ⟨n, _, _, hn, by rw [hid]⟩
    · rintro ⟨⟩

/-- A return. -/
def spinningReturn : Node :=
  ⟨⟨0⟩, .ofNat 0, .ofNat 0, .returnStatement "infer" false (some ⟨1⟩)⟩

/-- A board with the return, a sum and a product that hold each other and a variable, and the variable, which
holds what it is given. -/
def spinning (given : NodeId) : Board where
  nodes := [
    spinningReturn,
    ⟨⟨1⟩, .ofNat 0, .ofNat 0, .binaryExpression "+" (some ⟨2⟩) (some ⟨3⟩) none⟩,
    ⟨⟨2⟩, .ofNat 0, .ofNat 0, .binaryExpression "*" (some ⟨3⟩) (some ⟨1⟩) none⟩,
    ⟨⟨3⟩, .ofNat 0, .ofNat 0, .variableStatement ⟨"v", "infer", false, some given, []⟩⟩]
  nextId := 4
  distinct := by
    show [⟨0⟩, ⟨1⟩, ⟨2⟩, (⟨3⟩ : NodeId)].Nodup
    decide

/-- The walk comes to an end among nodes that hold each other, where two uses of the variable are counted. It
is stopped when the variable holds what is not there. -/
theorem countReferences_exact_spinning :
  (∃ w, (countReferences (spinning ⟨1⟩) spinningReturn).runFrom .start = some (.ok (), w) ∧
    Exact (spinning ⟨1⟩) spinningReturn w ∧ w.references = [(⟨3⟩, 2)]) ∧
  ∃ d w, (countReferences (spinning ⟨9⟩) spinningReturn).runFrom .start = some (.error d, w) ∧
    ∃ n slot id, (spinning ⟨9⟩).Dangles spinningReturn n slot id ∧ d = .dangling n.id slot id
  := by
  constructor
  · have hr : spinningReturn ∈ (spinning ⟨1⟩).nodes := by decide
    have hdangling : (spinning ⟨1⟩).danglingWire? spinningReturn.id = none := by decide
    have hend := runFrom_countReferences hr hdangling
    obtain ⟨outcome, w, hw, -, -, hok⟩ := countReferences_exact (spinning ⟨1⟩) spinningReturn hr
    obtain ⟨rfl, rfl⟩ := Prod.mk.inj (Option.some.inj (hend.symm.trans hw))
    refine ⟨_, hw, hok rfl, ?_⟩
    rw [references_through_live]
    decide
  · have hr : spinningReturn ∈ (spinning ⟨9⟩).nodes := by decide
    have hdangling : (spinning ⟨9⟩).danglingWire? spinningReturn.id = some ⟨⟨3⟩, 0, ⟨9⟩⟩ := by
      decide
    obtain ⟨w', hstop⟩ := stops_countReferences hr hdangling
    obtain ⟨outcome, w, hw, -, herror, -⟩ := countReferences_exact (spinning ⟨9⟩) spinningReturn hr
    obtain ⟨rfl, rfl⟩ := Prod.mk.inj (Option.some.inj (hstop.symm.trans hw))
    exact ⟨_, _, hw, herror _ rfl⟩

end Walking

end Patchboard
