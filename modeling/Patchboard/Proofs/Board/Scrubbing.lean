import Patchboard.Proofs.Board.InPlace
import Patchboard.Proofs.Board.Views

/-!
# Removing is scrubbing

Nodes are removed one by one, and each time only those nodes are changed that the removed node was
wired to, by its own ends of the wires; a function is searched for everywhere. On a linked board this
comes to the same as taking all the nodes off at once and wiping every mention of them from the nodes
that stay: the slots that named them are empty in their places, and their entries are gone.
-/

namespace Patchboard

/-- Wiping one id from a slot empties the slot if it names the id. -/
theorem filter_not_mem_singleton (s : Slot) (id : NodeId) :
  s.filter (· ∉ [id]) = if s = some id then none else s
  := by
  cases s with
  | none => rfl
  | some id' => by_cases h : id' = id <;> simp [h]

namespace Kind

/-- The payload without mentions of some nodes. -/
def scrub (ids : List NodeId) (k : Kind) : Kind :=
  (k.mapInputs fun _ s => s.filter (· ∉ ids)).mapConsumers (·.filter (· ∉ ids))
    fun s => s.filter (· ∉ ids)

/-- A slot that named one of the nodes is empty in its place. -/
@[simp]
theorem inputs_scrub (ids : List NodeId) (k : Kind) :
  (k.scrub ids).inputs = k.inputs.map fun s => s.filter (· ∉ ids)
  := by
  rw [scrub, inputs_mapConsumers, inputs_mapInputs]
  apply List.ext_getElem?
  intro i
  simp

/-- The entries for the nodes are gone, and the others are in order. -/
@[simp]
theorem outputs_scrub (ids : List NodeId) (k : Kind) :
  (k.scrub ids).outputs = k.outputs.filter (· ∉ ids)
  := by
  cases k <;> rfl

/-- A single consumer that is one of the nodes is forgotten. -/
@[simp]
theorem output_scrub (ids : List NodeId) (k : Kind) :
  (k.scrub ids).output = k.output.filter (· ∉ ids)
  := by
  cases k <;> rfl

/-- Mentions are wiped from the wires only. -/
@[simp]
theorem unwired_scrub (ids : List NodeId) (k : Kind) :
  (k.scrub ids).unwired = k.unwired
  := by
  rw [scrub, unwired_mapConsumers, unwired_mapInputs]

/-- Without nodes there is nothing to wipe. -/
theorem scrub_nil (k : Kind) :
  k.scrub [] = k
  := by
  have hslot : ∀ s : Slot, s.filter (· ∉ ([] : List NodeId)) = s := by
    intro s
    cases s <;> rfl
  apply ext_of_unwired (unwired_scrub [] k)
  · rw [inputs_scrub, List.map_id'' hslot]
  · rw [output_scrub, hslot]
  · simp

/-- Mentions can be wiped in two steps. -/
theorem scrub_scrub (ids ids' : List NodeId) (k : Kind) :
  (k.scrub ids).scrub ids' = k.scrub (ids ++ ids')
  := by
  apply ext_of_unwired
  · simp
  · simp [Option.filter_filter]
  · simp [Option.filter_filter]
  · simp [List.filter_filter, Bool.and_comm]

end Kind

namespace Board

variable {b b' : Board} {n m : Node} {id : NodeId} {ids : List NodeId}

/-- The board without some nodes and without mentions of them. -/
def without (b : Board) (ids : List NodeId) : Board where
  nodes := (b.nodes.filter (·.id ∉ ids)).map fun n => { n with kind := n.kind.scrub ids }
  nextId := b.nextId
  distinct := by
    rw [List.map_map]
    exact b.distinct.sublist (List.filter_sublist.map _)

/-- The nodes that stay. -/
theorem mem_nodes_without :
  m ∈ (b.without ids).nodes
    ↔ ∃ n ∈ b.nodes, n.id ∉ ids ∧ m = { n with kind := n.kind.scrub ids }
  := by
  simp only [without, List.mem_map, List.mem_filter, decide_eq_true_eq, and_assoc,
    eq_comm (b := m)]

/-- Nothing changes when no node is taken off. -/
theorem without_nil (b : Board) :
  b.without [] = b
  := by
  apply ext_of_nodes
  · simp [without, Kind.scrub_nil]
  · rfl

/-- Nodes can be taken off in two steps. -/
theorem without_without (b : Board) (ids ids' : List NodeId) :
  (b.without ids).without ids' = b.without (ids ++ ids')
  := by
  apply ext_of_nodes
  · simp [without, List.filter_map, List.filter_filter, Function.comp_def, Kind.scrub_scrub,
      Bool.and_comm]
  · rfl

/-- What is found of a node that is not taken off. -/
theorem get?_without (hid : id ∉ ids) :
  (b.without ids).get? id = (b.get? id).map fun n => { n with kind := n.kind.scrub ids }
  := by
  cases hn : b.get? id with
  | some n =>
    obtain ⟨hmem, rfl⟩ := get?_eq_some_iff.1 hn
    apply get?_of_mem (n := { n with kind := n.kind.scrub ids })
    apply mem_nodes_without.2 ⟨n, hmem, hid, rfl⟩
  | none =>
    rw [Option.map_none, Option.eq_none_iff_forall_ne_some]
    intro m hm
    obtain ⟨hmem, rfl⟩ := get?_eq_some_iff.1 hm
    obtain ⟨n, hn', -, rfl⟩ := mem_nodes_without.1 hmem
    apply not_mem_ids_of_get? hn (List.mem_map.2 ⟨n, hn', rfl⟩)

/-- What is read of a node that stays, when the wiping of mentions does the same to whatever is read. -/
theorem view_without {α : Type} {missing : α} {read : Kind → α} (hid : id ∉ ids) (g : α → α)
    (found : ∀ k, read (k.scrub ids) = g (read k)) (not_found : g missing = missing) :
  (b.without ids).view missing read id = g (b.view missing read id)
  := by
  rw [view, view, get?_without hid]
  cases b.get? id with
  | none => exact not_found.symm
  | some n => apply found

/-- What stands on the board without some nodes stood there before. -/
theorem mem_layout_of_mem_layout_without (h : m ∈ (b.without ids).layout) :
  m ∈ b.layout
  := by
  obtain ⟨m', hm', rfl⟩ := List.mem_map.1 h
  obtain ⟨n, hn, -, rfl⟩ := mem_nodes_without.1 hm'
  rw [Node.unwired, Kind.unwired_scrub]
  exact List.mem_map_of_mem hn

/-! ## One node -/

theorem unwired_cut {k : Kind} :
  (cut n id k).unwired = k.unwired
  := by
  rw [cut]
  split <;> split <;> simp [Kind.release, Kind.clearInputsFrom]

/-- On a linked board the nodes that a node is wired to are those that mention it. -/
theorem cut_eq_scrub (hb : b.Linked) (hn : n ∈ b.nodes) (hm : m ∈ b.nodes) :
  cut n m.id m.kind = m.kind.scrub [n.id]
  := by
  have hholds : some n.id ∈ m.kind.inputs → n.kind.isFunction = true ∨ m.id ∈ n.kind.consumers :=
    hb.mem_consumers hm hn
  have hfeeds : m.kind.output = some n.id ∨ n.id ∈ m.kind.outputs → some m.id ∈ n.kind.inputs :=
    fun h => hb.mem_inputs hn hm ((Kind.mem_consumers_iff _ _).2 h)
  apply Kind.ext_of_unwired
  · rw [unwired_cut, Kind.unwired_scrub]
  · simp only [Kind.inputs_scrub, filter_not_mem_singleton, inputs_cut]
    split
    · rfl
    · next h =>
      have hslots : ∀ s ∈ m.kind.inputs, (if s = some n.id then none else s) = s := by
        rintro s hs
        rw [if_neg]
        rintro rfl
        apply h (hholds hs)
      rw [List.map_congr_left hslots, List.map_id']
  · simp only [Kind.output_scrub, filter_not_mem_singleton, output_cut]
    by_cases h : m.kind.output = some n.id
    · rw [if_pos ⟨hfeeds (.inl h), h⟩, if_pos h]
    · rw [if_neg fun hand => h hand.2, if_neg h]
  · rw [Kind.outputs_scrub, outputs_cut]
    split
    · simp
    · next h =>
      symm
      apply List.filter_eq_self.2
      intro id hid
      simp only [List.mem_singleton, decide_eq_true_eq]
      rintro rfl
      apply h (hfeeds (.inr hid))

/-- On a linked board taking away a node is taking it off and wiping every mention of it. -/
theorem detach_eq_without (hb : b.Linked) (hn : n ∈ b.nodes) :
  b.detach n = b.without [n.id]
  := by
  have herase : (b.erase n.id).nodes = b.nodes.filter (·.id ∉ [n.id]) := by
    simp [erase]
  rw [detach_eq]
  apply ext_of_nodes
  · simp only [without, mapKinds, herase]
    apply List.map_congr_left
    intro m hm
    rw [cut_eq_scrub hb hn (List.mem_filter.1 hm).1]
  · rfl

/-! ## One node after another -/

/-- Nodes that are taken away one after another are noted in this order, and the board is left without
them. -/
theorem foldl_detachNoting_eq (ids : List NodeId) (hnodup : ids.Nodup) (hids : ∀ id ∈ ids, id ∈ b.ids)
    (hb : b.Linked) (noted : List Node) :
  ∃ removed, ids.foldl detachNoting (noted, b) = (noted ++ removed, b.without ids)
    ∧ removed.map Node.id = ids ∧ ∀ m ∈ removed, m.unwired ∈ b.layout
  := by
  induction ids generalizing b noted with
  | nil =>
    use []
    rw [without_nil, List.append_nil]
    exact ⟨rfl, rfl, fun m hm => by cases hm⟩
  | cons id ids ih =>
    obtain ⟨hnew, hnodup'⟩ := List.nodup_cons.1 hnodup
    obtain ⟨hid, hids'⟩ := List.forall_mem_cons.1 hids
    obtain ⟨n, hn, rfl⟩ := List.mem_map.1 hid
    have hdetach := detach_eq_without hb hn
    have hstep : detachNoting (noted, b) n.id = (noted ++ [n], b.without [n.id]) := by
      simp only [detachNoting, get?_of_mem hn, hdetach]
    have hrest : ∀ id ∈ ids, id ∈ (b.without [n.id]).ids := by
      intro id hid
      obtain ⟨m, hm, rfl⟩ := List.mem_map.1 (hids' id hid)
      have hne : m.id ∉ [n.id] := by
        rw [List.mem_singleton]
        intro h
        apply hnew (h ▸ hid)
      exact List.mem_map.2 ⟨_, mem_nodes_without.2 ⟨m, hm, hne, rfl⟩, rfl⟩
    obtain ⟨removed, hfold, hremoved, hlayout⟩ := ih hnodup' hrest (hdetach ▸ hb.detach hn)
      (noted ++ [n])
    refine ⟨n :: removed, ?_, ?_, ?_⟩
    · rw [List.foldl_cons, hstep, hfold, without_without, List.append_assoc]
      rfl
    · rw [List.map_cons, hremoved]
    · intro m hm
      rcases List.mem_cons.1 hm with rfl | hm
      · apply List.mem_map_of_mem hn
      · apply mem_layout_of_mem_layout_without (hlayout m hm)

/-! ## Removing -/

/-- The ids of the nodes that are removed with a node, in order: of those that belong to it, and its
own. -/
def withScope (b : Board) (n : Node) : List NodeId :=
  (b.scope n).map Node.id ++ [n.id]

/-- What is removed with a node is the node itself and what belongs to it. -/
theorem mem_withScope_iff (hn : n ∈ b.nodes) (hm : m ∈ b.nodes) :
  m.id ∈ b.withScope n ↔ m = n ∨ m.belongsTo n = true
  := by
  rw [withScope, List.mem_append, List.mem_singleton, List.mem_map]
  constructor
  · rintro (⟨m', hm', hid⟩ | hid)
    · obtain ⟨hmem, hbelongs⟩ := List.mem_filter.1 hm'
      obtain rfl := eq_of_id_eq hmem hm hid
      exact .inr hbelongs
    · exact .inl (eq_of_id_eq hm hn hid)
  · rintro (rfl | hbelongs)
    · exact .inr rfl
    · exact .inl ⟨m, List.mem_filter.2 ⟨hm, hbelongs⟩, rfl⟩

/-- No node is removed twice. -/
theorem nodup_withScope (hn : n ∈ b.nodes) :
  (b.withScope n).Nodup
  := by
  rw [withScope, List.nodup_append]
  refine ⟨b.distinct.sublist (List.filter_sublist.map _), List.nodup_cons.2 ⟨List.not_mem_nil, List.nodup_nil⟩, ?_⟩
  rintro id hid _ hself rfl
  rw [List.mem_singleton] at hself
  apply not_mem_ids_scope (get?_of_mem hn)
  exact hself ▸ hid

/-- The board `b'` is `b` without some nodes and without mentions of them. -/
structure Scrubbed (b : Board) (ids : List NodeId) (b' : Board) : Prop where
  /-- The nodes that stay are in order, where they were, and keep their payloads. -/
  layout : b'.layout = b.layout.filter (·.id ∉ ids)
  /-- A slot that named one of the nodes is empty in its place, and every other slot is as it was. -/
  slots : ∀ id, id ∉ ids → b'.slots id = (b.slots id).map fun s => s.filter (· ∉ ids)
  /-- The entries for the nodes are gone, and the others are in order. -/
  entries : ∀ id, id ∉ ids → b'.entries id = (b.entries id).filter (· ∉ ids)
  /-- A single consumer that is one of the nodes is forgotten. -/
  recipient : ∀ id, id ∉ ids → b'.recipient id = (b.recipient id).filter (· ∉ ids)
  /-- Nothing mentions the nodes. -/
  wiped : ∀ m ∈ b'.nodes, ∀ id ∈ ids, some id ∉ m.kind.inputs ∧ id ∉ m.kind.consumers
  nextId : b'.nextId = b.nextId

/-- Taking nodes off and wiping every mention of them leaves a board without them. -/
theorem scrubbed_without (b : Board) (ids : List NodeId) :
  b.Scrubbed ids (b.without ids)
  := by
  constructor
  · simp only [layout, without, List.filter_map, List.map_map]
    apply List.map_congr_left
    intro n _
    simp only [Function.comp_apply, Node.unwired, Kind.unwired_scrub]
  · intro id hid
    rw [slots, slots, view_without hid fun slots => slots.map fun s => s.filter (· ∉ ids)]
    · apply Kind.inputs_scrub
    · rfl
  · intro id hid
    rw [entries, entries, view_without hid fun entries => entries.filter (· ∉ ids)]
    · apply Kind.outputs_scrub
    · rfl
  · intro id hid
    rw [recipient, recipient, view_without hid fun s => s.filter (· ∉ ids)]
    · apply Kind.output_scrub
    · rfl
  · intro m hm id hid
    obtain ⟨n, -, -, rfl⟩ := mem_nodes_without.1 hm
    rw [Kind.mem_consumers_iff]
    simp [hid]
  · rfl

/-- Removing a node of a checked board takes it off the board, with all that belongs to it if it is a
function, and wipes every mention of these nodes from the others. Nothing else is changed. -/
theorem scrubbed_of_remove (hb : b.validate = .ok ()) (hn : b.get? id = some n) :
  (n.kind.isFunction = false → b.withScope n = [id]) ∧
  (∀ m ∈ b.nodes, m.id ∈ b.withScope n ↔ m = n ∨ m.belongsTo n = true) ∧
  (b.withScope n).Nodup ∧
  ∃ removed b', b.remove id = .ok (removed, b') ∧
    InPlace.runOn id.remove b = some (.ok removed, b') ∧
    removed.map Node.id = b.withScope n ∧ (∀ m ∈ removed, m.unwired ∈ b.layout) ∧
    b.Scrubbed (b.withScope n) b'
  := by
  obtain ⟨hmem, rfl⟩ := get?_eq_some_iff.1 hn
  have hids : ∀ id ∈ b.withScope n, id ∈ b.ids := by
    intro id hid
    rcases List.mem_append.1 hid with hid | hid
    · obtain ⟨m, hm, rfl⟩ := List.mem_map.1 hid
      apply List.mem_map_of_mem (mem_of_mem_scope hm)
    · rw [List.mem_singleton.1 hid]
      apply List.mem_map_of_mem hmem
  obtain ⟨removed, hfold, hremoved, hlayout⟩ :=
    foldl_detachNoting_eq (b.withScope n) (nodup_withScope hmem) hids (linked_of_validate hb) []
  have hremove : b.remove n.id = .ok (removed, b.without (b.withScope n)) := by
    rw [remove, require, hn]
    simp only [bind, Except.bind, pure, Except.pure]
    exact congrArg Except.ok hfold
  refine ⟨?_, fun m hm => mem_withScope_iff hmem hm, nodup_withScope hmem, removed, _, hremove, ?_,
    hremoved, hlayout, scrubbed_without b _⟩
  · intro hfun
    rw [withScope, scope_of_not_isFunction hfun]
    rfl
  · rw [InPlace.runOn_remove, hremove]
    rfl

/-- In the rectangle of a function a product reads the parameter twice, and an access has itself for its
key. Outside, a choice reads the parameter, the product and a variable, which the access reads too, and a
reference names the function. -/
def crowded : Board where
  nodes := [
    ⟨⟨0⟩, .ofNat 0, .ofNat 0, .functionDeclaration "f" (.ofNat 8) (.ofNat 8)⟩,
    ⟨⟨1⟩, .ofNat 1, .ofNat 0, .parameter "x" "number" false [⟨2⟩, ⟨3⟩, ⟨2⟩]⟩,
    ⟨⟨2⟩, .ofNat 2, .ofNat 0, .binaryExpression "*" (some ⟨1⟩) (some ⟨1⟩) (some ⟨3⟩)⟩,
    ⟨⟨3⟩, .ofNat 9, .ofNat 0, .conditionalExpression (some ⟨1⟩) (some ⟨2⟩) (some ⟨5⟩) none⟩,
    ⟨⟨4⟩, .ofNat 9, .ofNat 1, .functionReference (some ⟨0⟩) none⟩,
    ⟨⟨5⟩, .ofNat 9, .ofNat 2, .variableStatement ⟨"v", "infer", false, none, [⟨6⟩, ⟨3⟩]⟩⟩,
    ⟨⟨6⟩, .ofNat 4, .ofNat 4, .elementAccess ⟨some ⟨5⟩, some ⟨6⟩, some ⟨6⟩⟩⟩]
  nextId := 7
  distinct := by decide

/-- The function is removed last. Two slots of the choice and the slot of the reference are emptied, and the
entry of the variable for the access is gone. -/
theorem scrubbed_crowded :
  crowded.validate = .ok () ∧
  ∃ removed b, crowded.remove ⟨0⟩ = .ok (removed, b) ∧
    removed.map Node.id = [⟨1⟩, ⟨2⟩, ⟨6⟩, ⟨0⟩] ∧
    b.slots ⟨3⟩ = [none, none, some ⟨5⟩] ∧ b.slots ⟨4⟩ = [none] ∧ b.entries ⟨5⟩ = [⟨3⟩]
  := by
  have hvalid : crowded.validate = .ok () := by decide
  obtain ⟨-, -, -, removed, b, hremove, -, hids, -, h⟩ := scrubbed_of_remove hvalid
    (show crowded.get? ⟨0⟩ = some _ from rfl)
  have hscope : crowded.withScope
        ⟨⟨0⟩, .ofNat 0, .ofNat 0, .functionDeclaration "f" (.ofNat 8) (.ofNat 8)⟩
      = [⟨1⟩, ⟨2⟩, ⟨6⟩, ⟨0⟩] := by decide +kernel
  rw [hscope] at hids h
  refine ⟨hvalid, removed, b, hremove, hids, ?_, ?_, ?_⟩
  · rw [h.slots _ (by decide)]
    decide
  · rw [h.slots _ (by decide)]
    decide
  · rw [h.entries _ (by decide)]
    decide

end Board

end Patchboard
