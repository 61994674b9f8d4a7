import Patchboard.Proofs.Board.Wiring

/-!
# Removing keeps the ends of the wires in agreement

A node is taken away together with every wire that it is an end of. The nodes that feed it forget it,
and the nodes that it feeds have their slots emptied; a function is searched for in all slots, since it
records nobody.
-/

namespace Patchboard

/-- Contents of slots are compared by equality. -/
instance : LawfulBEq (Option NodeId) :=
  inferInstance

namespace Kind

/-- Forgetting a consumer takes away all its entries. -/
theorem outputs_release (consumer : NodeId) (k : Kind) :
  (k.release consumer).outputs = k.outputs.filter (· ≠ consumer)
  := by
  cases k <;> rfl

/-- Forgetting a consumer leaves any other single one. -/
theorem output_release (consumer : NodeId) (k : Kind) :
  (k.release consumer).output = if k.output = some consumer then none else k.output
  := by
  cases k <;> rfl

end Kind

namespace Board

variable {b b' : Board} {n p m : Node}

/-- What taking away a node does to the payload of another. -/
def cut (n : Node) (id : NodeId) (k : Kind) : Kind :=
  let k := if some id ∈ n.kind.inputs then k.release n.id else k
  if n.kind.isFunction || id ∈ n.kind.consumers then k.clearInputsFrom n.id else k

section cut

variable {id : NodeId} {k : Kind}

theorem tag_cut :
  (cut n id k).tag = k.tag
  := by
  rw [cut]
  split <;> split <;> simp [Kind.release, Kind.clearInputsFrom]

/-- The nodes that the node feeds have no slots for it. -/
theorem inputs_cut :
  (cut n id k).inputs
    = if n.kind.isFunction = true ∨ id ∈ n.kind.consumers then
        k.inputs.map fun s => if s = some n.id then none else s
      else k.inputs
  := by
  rw [cut]
  split <;> split <;> simp_all [Kind.release]

/-- The nodes that feed the node forget it. -/
theorem outputs_cut :
  (cut n id k).outputs
    = if some id ∈ n.kind.inputs then k.outputs.filter (· ≠ n.id) else k.outputs
  := by
  rw [cut]
  split <;> split <;> simp [Kind.clearInputsFrom, Kind.outputs_release]

theorem output_cut :
  (cut n id k).output
    = if some id ∈ n.kind.inputs ∧ k.output = some n.id then none else k.output
  := by
  rw [cut]
  split <;> split <;> simp_all [Kind.clearInputsFrom, Kind.output_release]

/-- Taking away a node adds nothing to the slots of the others. -/
theorem shrinks_cut (n : Node) :
  Shrinks (cut n)
  := by
  constructor
  · intro id k
    apply tag_cut
  · intro id k i x h
    rw [Kind.input, inputs_cut] at h
    split at h
    · apply join_clear h
    · exact h

end cut

/-- A board without a node has the other nodes. -/
theorem mem_nodes_erase {id : NodeId} :
  m ∈ (b.erase id).nodes ↔ m ∈ b.nodes ∧ m.id ≠ id
  := by
  rw [erase, List.mem_filter, decide_eq_true_eq]

theorem mem_ids_erase {id id' : NodeId} :
  id' ∈ (b.erase id).ids ↔ id' ∈ b.ids ∧ id' ≠ id
  := by
  rw [ids, ids, List.mem_map, List.mem_map]
  constructor
  · rintro ⟨m, hm, rfl⟩
    obtain ⟨hm, hne⟩ := mem_nodes_erase.1 hm
    exact ⟨⟨m, hm, rfl⟩, hne⟩
  · rintro ⟨⟨m, hm, rfl⟩, hne⟩
    exact ⟨m, mem_nodes_erase.2 ⟨hm, hne⟩, rfl⟩

theorem detach_eq (b : Board) (n : Node) :
  b.detach n = (b.erase n.id).mapKinds (cut n)
  := rfl

/-- A slot that names the node is emptied when the node is taken away. -/
theorem not_mem_inputs_cut (hb : b.Linked) (hn : n ∈ b.nodes) (hm : m ∈ b.nodes) :
  some n.id ∉ (cut n m.id m.kind).inputs
  := by
  intro hin
  rw [inputs_cut] at hin
  split at hin
  · apply (mem_clear_iff.1 hin).2 rfl
  · next h => exact h (hb.mem_consumers hm hn hin)

/-- Taking away a node keeps the ends of the other wires in agreement. -/
theorem Linked.detach (hb : b.Linked) (hn : n ∈ b.nodes) :
  (b.detach n).Linked
  := by
  rw [detach_eq]
  apply linked_mapKinds (fun _ _ => tag_cut)
  · intro m hm p hp hfan
    obtain ⟨hm, hmn⟩ := mem_nodes_erase.1 hm
    obtain ⟨hp, hpn⟩ := mem_nodes_erase.1 hp
    have hinputs : (cut n m.id m.kind).inputs.count (some p.id) = m.kind.inputs.count (some p.id) := by
      rw [inputs_cut]
      split
      · apply count_clear_of_ne hpn
      · rfl
    have houtputs : (cut n p.id p.kind).outputs.count m.id = p.kind.outputs.count m.id := by
      rw [outputs_cut]
      split
      · apply List.count_filter
        simpa using hmn
      · rfl
    rw [hinputs, houtputs]
    apply hb.fanOut m hm p hp hfan
  · intro m hm p hp hsingle
    obtain ⟨hm, hmn⟩ := mem_nodes_erase.1 hm
    obtain ⟨hp, hpn⟩ := mem_nodes_erase.1 hp
    have hinputs : some p.id ∈ (cut n m.id m.kind).inputs ↔ some p.id ∈ m.kind.inputs := by
      rw [inputs_cut]
      split
      · simp [mem_clear_iff, hpn]
      · rfl
    have houtput : (cut n p.id p.kind).output = some m.id ↔ p.kind.output = some m.id := by
      rw [output_cut]
      split
      · next h => simp [h.2, Ne.symm hmn]
      · rfl
    rw [hinputs, houtput]
    apply hb.single m hm p hp hsingle
  · intro m hm p hp hret hin
    obtain ⟨hm, -⟩ := mem_nodes_erase.1 hm
    obtain ⟨hp, -⟩ := mem_nodes_erase.1 hp
    apply hb.ret m hm p hp hret
    obtain ⟨slot, hslot⟩ := (Kind.mem_inputs_iff _ _).1 hin
    apply (Kind.mem_inputs_iff _ _).2 ⟨slot, (shrinks_cut n).input m.id m.kind slot p.id hslot⟩
  · intro p hp id hid
    obtain ⟨hp, -⟩ := mem_nodes_erase.1 hp
    rw [mem_ids_erase]
    -- A recorded consumer that is taken away is among those that are forgotten.
    have hfeeds : n.id ∈ p.kind.consumers → some p.id ∈ n.kind.inputs := hb.mem_inputs hn hp
    rw [Kind.mem_consumers_iff] at hfeeds
    rw [Kind.mem_consumers_iff, output_cut, outputs_cut] at hid
    rcases hid with h | h
    · split at h
      · cases h
      · next hkept =>
        use hb.consumers p hp id ((Kind.mem_consumers_iff _ _).2 (.inl h))
        rintro rfl
        apply hkept ⟨hfeeds (.inl h), h⟩
    · split at h
      · obtain ⟨h, hne⟩ := List.mem_filter.1 h
        exact ⟨hb.consumers p hp id ((Kind.mem_consumers_iff _ _).2 (.inr h)), by simpa using hne⟩
      · next hkept =>
        use hb.consumers p hp id ((Kind.mem_consumers_iff _ _).2 (.inr h))
        rintro rfl
        apply hkept (hfeeds (.inr h))

/-- Nothing belongs to a node that is no function. -/
theorem scope_of_not_isFunction (h : n.kind.isFunction = false) (b : Board) :
  b.scope n = []
  := by
  apply List.filter_eq_nil_iff.2
  intro m _
  rw [Node.belongsTo]
  cases hk : n.kind with
  | functionDeclaration => simp [hk, Kind.isFunction] at h
  | _ => simp

/-- No node belongs to itself. -/
theorem not_mem_ids_scope {id : NodeId} (hn : b.get? id = some n) :
  id ∉ (b.scope n).map Node.id
  := by
  intro hid
  obtain ⟨m, hm, rfl⟩ := List.mem_map.1 hid
  rw [get?_of_mem (mem_of_mem_scope hm)] at hn
  obtain rfl := Option.some.inj hn
  have hfunction := Node.not_isFunction_of_belongsTo (List.mem_filter.1 hm).2
  rw [scope_of_not_isFunction hfunction] at hm
  cases hm

/-- What holds of a board and is kept when a node is taken away holds after any number of nodes have
been taken away. -/
theorem foldl_detachNoting {P : Board → Prop} (hstep : ∀ b n, n ∈ b.nodes → P b → P (b.detach n))
    (ids : List NodeId) (noted : List Node) (hb : P b) :
  P (ids.foldl detachNoting (noted, b)).2
  := by
  induction ids generalizing noted b with
  | nil => exact hb
  | cons id ids ih =>
    rw [List.foldl_cons, detachNoting]
    dsimp only
    split
    · apply ih noted hb
    · next n hn =>
      apply ih
      apply hstep b n (mem_of_get? hn) hb

/-- What is kept when a node is taken away is kept when a node is removed, with all that belongs to
it. -/
theorem remove_induction {P : Board → Prop} (hstep : ∀ b n, n ∈ b.nodes → P b → P (b.detach n))
    (hb : P b) {id : NodeId} {removed : List Node} (h : b.remove id = .ok (removed, b')) :
  P b'
  := by
  rw [remove, require] at h
  cases hget : b.get? id with
  | none => simp [hget, bind, Except.bind] at h
  | some n =>
    simp only [hget, bind, Except.bind, pure, Except.pure, Except.ok.injEq] at h
    have := foldl_detachNoting hstep (((b.scope n).map Node.id) ++ [id]) [] hb
    rwa [h] at this

end Board

end Patchboard
