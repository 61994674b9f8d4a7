import Patchboard.Proofs.Board.Wiring

/-!
# What wiring leaves where it is

A change of a payload concerns the node of one id, and nothing if the node is missing. Emptying a slot
and cutting off a producer keep every node and the number of its slots; so what wiring has found once it
will find again, and the slot that it writes to is there.
-/

namespace Patchboard

namespace Board

variable {b : Board}

/-- A change of the payload of a node that is not there changes nothing. -/
theorem update_of_not_contains {id : NodeId} (h : b.contains id = false) (f : Kind → Kind) :
  b.update id f = b
  := by
  conv_rhs => rw [← mapKinds_id b]
  rw [update, mapKinds, mapKinds]
  congr 1
  apply List.map_congr_left
  intro n hn
  rw [if_neg]
  rintro rfl
  rw [contains_iff_exists.2 ⟨n, hn, rfl⟩] at h
  cases h

/-- A change of payloads keeps what is on the board. -/
@[simp]
theorem contains_mapKinds (b : Board) (f : NodeId → Kind → Kind) (id : NodeId) :
  (b.mapKinds f).contains id = b.contains id
  := by
  rw [contains, contains, get?_mapKinds, Option.isSome_map]

@[simp]
theorem contains_update (b : Board) (id : NodeId) (f : Kind → Kind) (id' : NodeId) :
  (b.update id f).contains id' = b.contains id'
  := contains_mapKinds b _ id'

/-- Changes that do the same to the payload of the node are the same. -/
theorem update_congr {id : NodeId} {p : Node} (hp : b.get? id = some p) {f g : Kind → Kind}
    (h : f p.kind = g p.kind) :
  b.update id f = b.update id g
  := by
  obtain ⟨hmem, rfl⟩ := get?_eq_some_iff.1 hp
  rw [update, update, mapKinds, mapKinds]
  congr 1
  apply List.map_congr_left
  intro n hn
  split
  · next hid => rw [eq_of_id_eq hn hmem hid, h]
  · rfl

/-- A change that leaves the payload of the node as it is changes nothing. -/
theorem update_eq_self {id : NodeId} {p : Node} (hp : b.get? id = some p) {f : Kind → Kind}
    (h : f p.kind = p.kind) :
  b.update id f = b
  := by
  rw [update_congr hp (g := fun k => k) h, update]
  simp only [ite_self]
  apply mapKinds_id

/-! ## Boards with the same slots -/

/-- A board has the same nodes as another, and these have as many slots. -/
def SameSlots (b b' : Board) : Prop :=
  ∀ id, ((b'.get? id).map fun n => n.kind.inputs.length)
    = (b.get? id).map fun n => n.kind.inputs.length

namespace SameSlots

variable {b' b'' : Board}

theorem refl (b : Board) :
  b.SameSlots b
  := fun _ => rfl

theorem trans (h : b.SameSlots b') (h' : b'.SameSlots b'') :
  b.SameSlots b''
  := fun id => (h' id).trans (h id)

/-- What changes the payload of a node, but not the number of its slots, keeps the slots. -/
theorem update {f : Kind → Kind} (hf : ∀ k, (f k).inputs.length = k.inputs.length) (id : NodeId) :
  b.SameSlots (b.update id f)
  := by
  intro id'
  rw [get?_update, Option.map_map]
  congr 1
  funext n
  rw [Function.comp_apply]
  split
  · apply hf
  · rfl

theorem contains (h : b.SameSlots b') (id : NodeId) :
  b'.contains id = b.contains id
  := by
  have := congrArg Option.isSome (h id)
  rwa [Option.isSome_map, Option.isSome_map] at this

/-- A node is found where it was, with as many slots. -/
theorem exists_get? (h : b.SameSlots b') {id : NodeId} {n : Node} (hn : b.get? id = some n) :
  ∃ n', b'.get? id = some n' ∧ n'.kind.inputs.length = n.kind.inputs.length
  := by
  apply Option.map_eq_some_iff.1
  rw [h id, hn, Option.map_some]

end SameSlots

/-- A slot of a node on the board is emptied with success; an empty slot leaves the board as it was. -/
theorem exists_disconnect {consumer : NodeId} {c : Node} (hc : b.get? consumer = some c) (slot : Nat) :
  ∃ b', b.disconnect consumer slot = .ok (c.kind.input slot, b') ∧
    (c.kind.input slot = none → b' = b) ∧ b.SameSlots b'
  := by
  rw [Board.disconnect, require, hc]
  simp only [bind, Except.bind]
  cases c.kind.input slot with
  | none => exact ⟨b, rfl, fun _ => rfl, .refl b⟩
  | some producer =>
    refine ⟨_, rfl, ?_, ?_⟩
    · intro h
      cases h
    · have hcleared : b.SameSlots (b.update consumer (Kind.setInput slot none)) := by
        apply SameSlots.update
        intro k
        rw [Kind.inputs_setInput, List.length_set]
      apply hcleared.trans
      apply SameSlots.update
      intro k
      rw [inputs_releaseWire]

/-- Cutting off a producer from the node that it fed before keeps the slots. -/
theorem SameSlots.retarget (b : Board) (consumer producer : NodeId) :
  b.SameSlots (b.retarget consumer producer)
  := by
  rw [Board.retarget]
  split
  · apply SameSlots.refl
  · split
    · apply SameSlots.refl
    · apply SameSlots.update
      intro k
      rw [Kind.inputs_clearInputsFrom, List.length_map]

/-! ## Wiring in steps -/

/-- The board on which nothing feeds the slot that a wire will be written to. -/
def unlinked (b : Board) (consumer : NodeId) : Option Nat → Board
  | none => b
  | some slot =>
    match b.disconnect consumer slot with
    | .ok (_, b') => b'
    | .error _ => b

/-- Unlinking keeps the slots. -/
theorem SameSlots.unlinked {consumer : NodeId} {c : Node} (hc : b.get? consumer = some c)
    (target : Option Nat) :
  b.SameSlots (b.unlinked consumer target)
  := by
  cases target with
  | none => apply SameSlots.refl
  | some slot =>
    obtain ⟨b', hd, -, hsame⟩ := exists_disconnect hc slot
    rw [Board.unlinked, hd]
    exact hsame

/-- Two nodes on the board may be wired when they differ and their kinds fit. -/
theorem canConnect_iff {consumer producer : NodeId} {c p : Node} (hc : b.get? consumer = some c)
    (hp : b.get? producer = some p) (slot : Nat) :
  b.canConnect consumer slot producer = true
    ↔ ¬ (consumer = producer ∨ ¬ c.kind.accepts slot p.kind = true)
  := by
  simp [canConnect, hc, hp]

/-- What wiring comes to when both nodes are on the board. -/
theorem connect_eq {consumer producer : NodeId} {c p : Node} (hc : b.get? consumer = some c)
    (hp : b.get? producer = some p) (slot : Nat) :
  b.connect consumer slot producer
    = .ok (if b.canConnect consumer slot producer then
        some (((b.unlinked consumer (targetSlot c.kind slot)).retarget consumer producer).writeWire
          consumer (targetSlot c.kind slot) producer)
      else none)
  := by
  rw [connect, require, require, hc, hp]
  simp only [bind, Except.bind, canConnect_iff hc hp]
  by_cases h : consumer = producer ∨ ¬ c.kind.accepts slot p.kind = true
  · rw [if_pos h, if_neg (not_not.2 h)]
    rfl
  · rw [if_neg h, if_pos h]
    cases targetSlot c.kind slot with
    | none => rfl
    | some index =>
      obtain ⟨b', hd, -⟩ := exists_disconnect hc index
      simp only [unlinked, hd]
      rfl

/-! ## Looking up -/

/-- What is on the board can be looked up. -/
theorem exists_get? {id : NodeId} (h : b.contains id = true) :
  ∃ n, b.get? id = some n
  := Option.isSome_iff_exists.1 h

/-- What is not on the board cannot. -/
theorem get?_of_not_contains {id : NodeId} (h : b.contains id = false) :
  b.get? id = none
  := by
  rw [contains, Option.isSome_eq_false_iff, Option.isNone_iff_eq_none] at h
  exact h

theorem contains_of_get? {id : NodeId} {n : Node} (h : b.get? id = some n) :
  b.contains id = true
  := by
  rw [contains, h, Option.isSome_some]

/-! ## Placing -/

/-- A node whose id is taken is not placed. -/
theorem insert_of_some {n m : Node} (h : b.get? n.id = some m) :
  b.insert n = .error (.duplicate n.id)
  := by
  rw [insert]
  split
  · rfl
  · next hnone =>
    rw [h] at hnone
    cases hnone

/-- A node whose id is free is placed behind the others. -/
theorem insert_of_none {n : Node} (h : b.get? n.id = none) :
  b.insert n
    = .ok (b.append n (max b.nextId (saturatingNext n.id.val)) (not_mem_ids_of_get? h))
  := by
  rw [insert]
  split
  · next hsome =>
    rw [h] at hsome
    cases hsome
  · rfl

end Board

end Patchboard
