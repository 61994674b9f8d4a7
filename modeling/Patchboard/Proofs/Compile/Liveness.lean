import Mathlib.Data.List.Basic
import Mathlib.Data.List.Nodup
import Patchboard.Compile.Liveness
import Patchboard.Proofs.Board.Nodes
import Patchboard.Proofs.Graph.Acyclic

/-!
# What is live

A node is live when the return leads to it from slot to producer. The lists of live nodes and live
wires, the counts of uses and the graph of dependencies are read here as statements on the nodes of
the board.
-/

namespace Patchboard

open Relation (ReflTransGen TransGen)

/-! ## Wires of one node -/

/-- A node has a wire exactly for each slot that holds something. -/
theorem Node.mem_wires_iff (n : Node) (w : Wire) :
  w ∈ n.wires ↔ w.consumer = n.id ∧ n.kind.input w.slot = some w.producer
  := by
  obtain ⟨consumer, slot, producer⟩ := w
  simp only [Node.wires, List.mem_filterMap, Option.map_eq_some_iff, Prod.exists,
    List.mk_mem_zipIdx_iff_getElem?, Kind.input, Wire.mk.injEq]
  constructor
  · rintro ⟨content, i, hi, p, rfl, rfl, rfl, rfl⟩
    simp [hi]
  · rintro ⟨rfl, h⟩
    exact ⟨some producer, slot, Option.join_eq_some_iff.1 h, producer, rfl, rfl, rfl, rfl⟩

/-- The wires of a node lead to distinct slots. -/
theorem Node.nodup_wires (n : Node) :
  n.wires.Nodup
  := by
  apply List.Pairwise.filterMap (R := fun x y => x.2 ≠ y.2)
  · rintro ⟨_, i⟩ ⟨_, j⟩ hij w hw w' hw' rfl
    simp only [Option.map_eq_some_iff] at hw hw'
    obtain ⟨_, _, rfl⟩ := hw
    obtain ⟨_, _, h⟩ := hw'
    apply hij
    simpa using (congrArg Wire.slot h).symm
  · apply List.pairwise_map.1
    rw [List.zipIdx_map_snd]
    exact List.nodup_range'

namespace Board

variable {b : Board} {r n p : Node}

/-! ## Bindings -/

/-- A node of the board is a binding exactly when its id is the id of one. -/
theorem isBinding_iff {id : NodeId} :
  b.isBinding id = true ↔ ∃ n ∈ b.nodes, n.id = id ∧ n.kind.isBinding = true
  := by
  simp only [isBinding, Option.any_eq_true, get?_eq_some_iff, and_assoc]

/-- What is known of the id of a node is known of the node. -/
theorem isBinding_id (hn : n ∈ b.nodes) :
  b.isBinding n.id = n.kind.isBinding
  := by
  rw [isBinding, get?_of_mem hn, Option.any_some]

/-! ## Live nodes -/

/-- A slot of a node holds another node of the board. -/
def Holds (b : Board) (n : Node) (slot : Nat) (p : Node) : Prop :=
  n.kind.input slot = some p.id ∧ p ∈ b.nodes

/-- A slot holds one node. -/
theorem Holds.unique {slot : Nat} {q : Node} (hp : b.Holds n slot p) (hq : b.Holds n slot q) :
  p = q
  := by
  apply eq_of_id_eq hp.2 hq.2
  rw [← Option.some_inj, ← hp.1, hq.1]

/-- Some slot of a node holds another. -/
def Needs (b : Board) (n p : Node) : Prop :=
  ∃ slot, b.Holds n slot p

/-- The return leads to a node, from slot to producer. -/
def Live (b : Board) : Node → Node → Prop :=
  ReflTransGen b.Needs

/-- What is live is on the board. -/
theorem Live.mem (hr : r ∈ b.nodes) (h : b.Live r n) :
  n ∈ b.nodes
  := by
  induction h with
  | refl => exact hr
  | tail _ h _ =>
    obtain ⟨_, h⟩ := h
    exact h.2

theorem Live.step (h : b.Live r n) {slot : Nat} (hp : b.Holds n slot p) :
  b.Live r p
  := ReflTransGen.tail h ⟨slot, hp⟩

/-- The wires into a node of the board. -/
theorem wiresInto_id (hn : n ∈ b.nodes) :
  b.wiresInto n.id = n.wires
  := by
  rw [wiresInto, get?_of_mem hn, Option.map_some, Option.getD_some]

/-- The edges of the wiring join nodes of the board. -/
theorem edge_wiring_iff (hn : n ∈ b.nodes) (id : NodeId) :
  b.wiring.Edge n.id id ↔ ∃ p, b.Needs n p ∧ p.id = id
  := by
  simp only [Graph.Edge, wiring, wiresInto_id hn, List.mem_reverse, List.mem_filter, List.mem_map,
    Node.mem_wires_iff, contains_iff_exists]
  constructor
  · rintro ⟨⟨w, ⟨-, hw⟩, rfl⟩, p, hp, hid⟩
    exact ⟨p, ⟨w.slot, hid ▸ hw, hp⟩, hid⟩
  · rintro ⟨p, ⟨slot, hw, hp⟩, rfl⟩
    exact ⟨⟨⟨n.id, slot, p.id⟩, ⟨rfl, hw⟩, rfl⟩, p, hp, rfl⟩

/-- Wires of the board stay on the board. -/
theorem closed_wiring (b : Board) :
  b.wiring.Closed
  := by
  intro v hv w hw
  obtain ⟨n, hn, rfl⟩ := List.mem_map.1 hv
  obtain ⟨p, ⟨_, hp⟩, rfl⟩ := (edge_wiring_iff hn w).1 hw
  apply List.mem_map_of_mem hp.2

/-- The live ids are the ids of the live nodes. -/
theorem mem_live_iff (hr : r ∈ b.nodes) (id : NodeId) :
  id ∈ b.live r.id ↔ ∃ n, b.Live r n ∧ n.id = id
  := by
  rw [live, Graph.mem_reach_iff b.closed_wiring (List.mem_map_of_mem hr)]
  constructor
  · intro h
    induction h with
    | refl => exact ⟨r, .refl, rfl⟩
    | tail _ hedge ih =>
      obtain ⟨n, hn, rfl⟩ := ih
      obtain ⟨p, hp, hid⟩ := (edge_wiring_iff (hn.mem hr) _).1 hedge
      exact ⟨p, hn.tail hp, hid⟩
  · rintro ⟨n, hn, rfl⟩
    induction hn with
    | refl => exact .refl
    | tail hlive hneeds ih =>
      apply ih.tail
      apply (edge_wiring_iff (Live.mem hr hlive) _).2
      exact ⟨_, hneeds, rfl⟩

/-- The live ids are distinct. -/
theorem nodup_live (hr : r ∈ b.nodes) :
  (b.live r.id).Nodup
  := Graph.nodup_reach b.closed_wiring (List.mem_map_of_mem hr)

/-! ## Live wires -/

/-- The live wires are the wires into the live nodes. -/
theorem mem_liveWires_iff (hr : r ∈ b.nodes) (w : Wire) :
  w ∈ b.liveWires r.id
    ↔ ∃ n, b.Live r n ∧ w.consumer = n.id ∧ n.kind.input w.slot = some w.producer
  := by
  simp only [liveWires, List.mem_flatMap, mem_live_iff hr]
  constructor
  · rintro ⟨_, ⟨n, hn, rfl⟩, hw⟩
    rw [wiresInto_id (hn.mem hr), Node.mem_wires_iff] at hw
    exact ⟨n, hn, hw⟩
  · rintro ⟨n, hn, hw⟩
    use n.id, ⟨n, hn, rfl⟩
    rw [wiresInto_id (hn.mem hr), Node.mem_wires_iff]
    exact hw

/-- No wire is counted twice. -/
theorem nodup_liveWires (hr : r ∈ b.nodes) :
  (b.liveWires r.id).Nodup
  := by
  apply List.nodup_flatMap.2
  constructor
  · intro id hid
    obtain ⟨n, hn, rfl⟩ := (mem_live_iff hr id).1 hid
    rw [wiresInto_id (hn.mem hr)]
    apply n.nodup_wires
  · apply (nodup_live hr).imp_of_mem
    intro v v' hv hv' hne w hw hw'
    obtain ⟨n, hn, rfl⟩ := (mem_live_iff hr v).1 hv
    obtain ⟨n', hn', rfl⟩ := (mem_live_iff hr v').1 hv'
    rw [wiresInto_id (hn.mem hr), Node.mem_wires_iff] at hw
    rw [wiresInto_id (hn'.mem hr), Node.mem_wires_iff] at hw'
    apply hne
    rw [← hw.1, hw'.1]

/-- A slot has one wire. -/
theorem eq_of_mem_liveWires (hr : r ∈ b.nodes) {w w' : Wire} (hw : w ∈ b.liveWires r.id)
    (hw' : w' ∈ b.liveWires r.id) (hconsumer : w.consumer = w'.consumer)
    (hslot : w.slot = w'.slot) :
  w = w'
  := by
  obtain ⟨n, hn, hc, hi⟩ := (mem_liveWires_iff hr w).1 hw
  obtain ⟨n', hn', hc', hi'⟩ := (mem_liveWires_iff hr w').1 hw'
  obtain rfl := eq_of_id_eq (hn.mem hr) (hn'.mem hr) (hc.symm.trans (hconsumer.trans hc'))
  rw [hslot, hi'] at hi
  obtain ⟨_, _, _⟩ := w
  obtain ⟨_, _, _⟩ := w'
  simp_all

/-- No live slot dangles: what it holds is on the board. -/
def Grounded (b : Board) (r : Node) : Prop :=
  ∀ n, b.Live r n → ∀ slot id, n.kind.input slot = some id → ∃ p, b.Holds n slot p ∧ p.id = id

/-- A wire is reported as dangling unless the live part of the board is grounded. -/
theorem danglingWire?_eq_none_iff (hr : r ∈ b.nodes) :
  b.danglingWire? r.id = none ↔ b.Grounded r
  := by
  rw [danglingWire?, List.find?_eq_none]
  constructor
  · intro h n hn slot id hslot
    have hw := h ⟨n.id, slot, id⟩ ((mem_liveWires_iff hr _).2 ⟨n, hn, rfl, hslot⟩)
    obtain ⟨p, hp, rfl⟩ : ∃ p ∈ b.nodes, p.id = id := by
      rw [← contains_iff_exists]
      simpa using hw
    exact ⟨p, ⟨hslot, hp⟩, rfl⟩
  · intro h w hw
    obtain ⟨n, hn, -, hslot⟩ := (mem_liveWires_iff hr w).1 hw
    obtain ⟨p, hp, hid⟩ := h n hn w.slot w.producer hslot
    have : b.contains w.producer = true := contains_iff_exists.2 ⟨p, hp.2, hid⟩
    simp [this]

/-! ## Uses of bindings -/

/-- What is left of a list without repetitions is distinct. -/
theorem nodup_eraseDups (ids : List NodeId) :
  ids.eraseDups.Nodup
  := by
  induction hlen : ids.length using Nat.strongRecOn generalizing ids with
  | _ len ih =>
    cases ids with
    | nil => simp
    | cons id ids =>
      rw [List.eraseDups_cons, List.nodup_cons]
      constructor
      · simp
      · apply ih _ _ _ rfl
        rw [← hlen, List.length_cons]
        apply Nat.lt_succ_of_le
        apply List.length_filter_le

/-- The wires into live nodes that come from a binding. -/
theorem mem_uses_iff (b : Board) (r id : NodeId) (count : Nat) :
  (id, count) ∈ b.uses r
    ↔ id ∈ ((b.liveWires r).map Wire.producer).filter b.isBinding ∧
      count = (b.liveWires r).countP fun w => w.producer = id
  := by
  simp only [uses, List.mem_map, List.mem_eraseDups, Prod.mk.injEq]
  constructor
  · rintro ⟨x, hx, rfl, rfl⟩
    use hx
    rw [List.count_filter (List.mem_filter.1 hx).2, List.count, List.countP_map]
    rfl
  · rintro ⟨hid, rfl⟩
    use id, hid, rfl
    rw [List.count_filter (List.mem_filter.1 hid).2, List.count, List.countP_map]
    rfl

/-- The bindings that are counted. -/
theorem map_fst_uses (b : Board) (r : NodeId) :
  (b.uses r).map Prod.fst = (((b.liveWires r).map Wire.producer).filter b.isBinding).eraseDups
  := by
  simp [uses, Function.comp_def]

/-- The bindings that are counted are the bindings which feed live nodes. -/
theorem mem_map_fst_uses_iff (hr : r ∈ b.nodes) (id : NodeId) :
  id ∈ (b.uses r.id).map Prod.fst
    ↔ ∃ n slot p, b.Live r n ∧ b.Holds n slot p ∧ p.kind.isBinding = true ∧ p.id = id
  := by
  simp only [map_fst_uses, List.mem_eraseDups, List.mem_filter, List.mem_map,
    mem_liveWires_iff hr, isBinding_iff]
  constructor
  · rintro ⟨⟨w, ⟨n, hn, -, hslot⟩, rfl⟩, p, hp, hid, hbind⟩
    exact ⟨n, w.slot, p, hn, ⟨hid ▸ hslot, hp⟩, hbind, hid⟩
  · rintro ⟨n, slot, p, hn, ⟨hslot, hp⟩, hbind, rfl⟩
    exact ⟨⟨⟨n.id, slot, p.id⟩, ⟨n, hn, rfl, hslot⟩, rfl⟩, p, hp, rfl, hbind⟩

/-! ## Dependencies -/

/-- Some slot of a node holds a node whose value is written in place. -/
def Inner (b : Board) (n p : Node) : Prop :=
  b.Needs n p ∧ p.kind.isBinding = false

/-- What is written within a live node is live. -/
theorem Live.inner (hn : b.Live r n) (hp : ReflTransGen b.Inner n p) :
  b.Live r p
  := hn.trans (hp.lift id fun _ _ h => h.1)

/-- Where the edges of the dependencies of a live node lead. -/
theorem edge_dependencies_iff (hr : r ∈ b.nodes) (hg : b.Grounded r) (hn : b.Live r n)
    (id : NodeId) :
  (b.dependencies r.id).Edge n.id id ↔ ∃ p, b.Inner n p ∧ p.id = id
  := by
  simp only [Graph.Edge, dependencies, List.mem_map, List.mem_filter, mem_liveWires_iff hr]
  constructor
  · rintro ⟨w, ⟨⟨⟨n', hn', hc, hslot⟩, hbind⟩, hid⟩, rfl⟩
    obtain rfl := eq_of_id_eq (hn.mem hr) (hn'.mem hr) ((by simpa using hid.symm) ▸ hc)
    obtain ⟨p, hp, hpid⟩ := hg n hn w.slot w.producer hslot
    refine ⟨p, ⟨⟨w.slot, hp⟩, ?_⟩, hpid⟩
    rw [← hpid, isBinding_id hp.2] at hbind
    simpa using hbind
  · rintro ⟨p, ⟨⟨slot, hslot, hp⟩, hbind⟩, rfl⟩
    refine ⟨⟨n.id, slot, p.id⟩, ⟨⟨⟨n, hn, rfl, hslot⟩, ?_⟩, ?_⟩, rfl⟩
    · simp [isBinding_id hp, hbind]
    · simp

/-- The dependencies are among live nodes. -/
theorem mem_nodes_dependencies_iff (hr : r ∈ b.nodes) (hg : b.Grounded r) (id : NodeId) :
  id ∈ (b.dependencies r.id).nodes ↔ ∃ n, b.Live r n ∧ n.id = id
  := by
  have hedge : ∀ v, (b.dependencies r.id).Edge v id →
      v ∈ b.live r.id → ∃ n, b.Live r n ∧ n.id = id := by
    intro v hv hlive
    obtain ⟨n, hn, rfl⟩ := (mem_live_iff hr v).1 hlive
    obtain ⟨p, ⟨hp, -⟩, hid⟩ := (edge_dependencies_iff hr hg hn id).1 hv
    exact ⟨p, hn.tail hp, hid⟩
  have hnodes : id ∈ (b.dependencies r.id).nodes
      ↔ ∃ v ∈ b.live r.id, id = v ∨ (b.dependencies r.id).Edge v id := by
    simp only [dependencies, Graph.Edge, List.mem_eraseDups, List.mem_flatMap, List.mem_cons]
  rw [hnodes]
  constructor
  · rintro ⟨v, hv, rfl | h⟩
    · apply (mem_live_iff hr _).1 hv
    · apply hedge v h hv
  · rintro ⟨n, hn, rfl⟩
    exact ⟨n.id, (mem_live_iff hr _).2 ⟨n, hn, rfl⟩, .inl rfl⟩

/-- Dependencies stay among live nodes. -/
theorem closed_dependencies (hr : r ∈ b.nodes) (hg : b.Grounded r) :
  (b.dependencies r.id).Closed
  := by
  intro v hv w hw
  obtain ⟨n, hn, rfl⟩ := (mem_nodes_dependencies_iff hr hg v).1 hv
  obtain ⟨p, ⟨hp, -⟩, rfl⟩ := (edge_dependencies_iff hr hg hn w).1 hw
  apply (mem_nodes_dependencies_iff hr hg p.id).2 ⟨p, hn.tail hp, rfl⟩

/-- A path of dependencies is a path of nodes that are written within each other. -/
theorem transGen_dependencies_iff (hr : r ∈ b.nodes) (hg : b.Grounded r) (hn : b.Live r n)
    (id : NodeId) :
  TransGen (b.dependencies r.id).Edge n.id id ↔ ∃ p, TransGen b.Inner n p ∧ p.id = id
  := by
  constructor
  · intro h
    induction h with
    | single hedge =>
      obtain ⟨p, hp, hid⟩ := (edge_dependencies_iff hr hg hn _).1 hedge
      exact ⟨p, .single hp, hid⟩
    | tail _ hedge ih =>
      obtain ⟨p, hp, rfl⟩ := ih
      have hlive : b.Live r p := hn.inner hp.to_reflTransGen
      obtain ⟨q, hq, hid⟩ := (edge_dependencies_iff hr hg hlive _).1 hedge
      exact ⟨q, hp.tail hq, hid⟩
  · rintro ⟨p, hp, rfl⟩
    induction hp with
    | single hp => exact .single ((edge_dependencies_iff hr hg hn _).2 ⟨_, hp, rfl⟩)
    | tail hpath hq ih =>
      have hlive := hn.inner hpath.to_reflTransGen
      apply ih.tail ((edge_dependencies_iff hr hg hlive _).2 ⟨_, hq, rfl⟩)

/-- No cycle of dependencies is reported exactly when no live node is written within itself. -/
theorem firstCycle?_dependencies_eq_none_iff (hr : r ∈ b.nodes) (hg : b.Grounded r) :
  (b.dependencies r.id).firstCycle? = none ↔ ∀ n, b.Live r n → ¬ TransGen b.Inner n n
  := by
  rw [Graph.firstCycle?_eq_none_iff (closed_dependencies hr hg)]
  constructor
  · intro h n hn hcycle
    apply h n.id ((mem_nodes_dependencies_iff hr hg _).2 ⟨n, hn, rfl⟩)
    apply (transGen_dependencies_iff hr hg hn _).2
    exact ⟨n, hcycle, rfl⟩
  · intro h v hv hcycle
    obtain ⟨n, hn, rfl⟩ := (mem_nodes_dependencies_iff hr hg v).1 hv
    obtain ⟨p, hp, hid⟩ := (transGen_dependencies_iff hr hg hn _).1 hcycle
    have hlive := hn.inner hp.to_reflTransGen
    obtain rfl := eq_of_id_eq (hlive.mem hr) (hn.mem hr) hid
    apply h p hn hp

end Board

end Patchboard
