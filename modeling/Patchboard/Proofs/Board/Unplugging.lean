import Patchboard.Proofs.Board.Views

/-!
# Taking a wire away

Emptying a slot of a linked board takes away one wire and nothing else. The slot is empty in its place;
a producer that fans out has one entry for the consumer less, the first one; and a producer with a
single consumer has none any more, unless it feeds another slot of the consumer. The consumer may feed
itself, and the slot may name a function, or no node of the board.
-/

namespace Patchboard.Board

variable {b b' : Board} {p c : Node} {consumer producer id : NodeId} {slot : Nat}

/-- A slot that is fed is emptied, and the producer forgets the wire. -/
theorem disconnect_of_input (hc : b.get? consumer = some c)
    (h : c.kind.input slot = some producer) :
  b.disconnect consumer slot
    = .ok (some producer, b.mapKinds (unlink consumer slot producer
        (decide (some producer ∈ c.kind.inputs.set slot none))))
  := by
  rw [disconnect, require, hc]
  simp only [bind, Except.bind, h, pure, Except.pure, Kind.inputs_setInput, List.contains_eq_mem,
    update, mapKinds_mapKinds]
  rfl

section

variable {stillFed : Bool} {k : Kind}

/-- Forgetting a wire leaves the rest of a payload alone. -/
@[simp]
theorem unwired_releaseWire (k : Kind) :
  (releaseWire consumer stillFed k).unwired = k.unwired
  := by
  rw [releaseWire]
  cases k <;> cases stillFed <;> rfl

theorem unwired_unlink :
  (unlink consumer slot producer stillFed id k).unwired = k.unwired
  := by
  rw [unlink]
  split <;> split <;> simp [Kind.setInput]

/-- A payload that is neither the consumer's nor the producer's stays as it is. -/
theorem unlink_of_ne (hc : id ≠ consumer) (hp : id ≠ producer) :
  unlink consumer slot producer stillFed id k = k
  := by
  simp only [unlink, if_neg hc, if_neg hp]

/-- A function forgets no wire, because it records none. -/
theorem releaseWire_of_isFunction (h : k.isFunction = true) :
  releaseWire consumer stillFed k = k
  := by
  cases k <;> first | cases stillFed <;> rfl | cases h

/-- The slots when one of them is emptied. -/
theorem slots_unlink :
  (b.mapKinds (unlink consumer slot producer stillFed)).slots id
    = if id = consumer then (b.slots id).set slot none else b.slots id
  := by
  rw [slots, slots,
    view_mapKinds fun slots => if id = consumer then slots.set slot none else slots]
  · intro n _
    apply inputs_unlink
  · simp

/-- The entries when a slot is emptied. -/
theorem entries_unlink :
  (b.mapKinds (unlink consumer slot producer stillFed)).entries id
    = if id = producer then (b.entries id).erase consumer else b.entries id
  := by
  rw [entries, entries,
    view_mapKinds fun ids => if id = producer then ids.erase consumer else ids]
  · intro n _
    apply outputs_unlink
  · simp

/-- The recipients when a slot is emptied. -/
theorem recipient_unlink :
  (b.mapKinds (unlink consumer slot producer stillFed)).recipient id
    = if id = producer ∧ stillFed = false ∧ b.recipient id = some consumer then none
      else b.recipient id
  := by
  rw [recipient, recipient, view_mapKinds fun s =>
    if id = producer ∧ stillFed = false ∧ s = some consumer then none else s]
  · intro n _
    apply output_unlink
  · simp

/-- The recipient of the producer when a slot is emptied that it fed. -/
theorem recipient_unlink_of_feeder (hb : b.Linked) (hp : b.get? producer = some p)
    (hsingle : p.kind.isSingleOutput = true) (h : b.feeder consumer slot = some producer) :
  (b.mapKinds (unlink consumer slot producer stillFed)).recipient producer
    = if stillFed = true then some consumer else none
  := by
  rw [recipient_unlink, (hb.recipient_eq_iff hp hsingle).2 ⟨slot, h⟩]
  cases stillFed <;> simp

end

/-- The board `b'` is `b` without the wire from a producer to a slot of a consumer. -/
structure Unplugged (b : Board) (consumer : NodeId) (slot : Nat) (producer : NodeId) (b' : Board) :
    Prop where
  /-- The slot is empty in its place, and every other slot is as it was. -/
  slots : ∀ id, b'.slots id = if id = consumer then (b.slots id).set slot none else b.slots id
  /-- A producer that fans out has lost the first entry for the consumer, and the others are in
  order. -/
  fanOut : ∀ p, b.get? producer = some p → p.kind.isFanOut = true →
    consumer ∈ b.entries producer ∧ b'.entries producer = (b.entries producer).erase consumer
  /-- A producer with a single consumer has none exactly when no other slot of the consumer holds it,
  and otherwise still names the consumer. -/
  single : ∀ p, b.get? producer = some p → p.kind.isSingleOutput = true →
    (b'.recipient producer = none ↔ ∀ i, i ≠ slot → b.feeder consumer i ≠ some producer) ∧
    (b'.recipient producer ≠ none → b'.recipient producer = some consumer)
  /-- A producer that is a function is as it was. -/
  silent : ∀ p, b.get? producer = some p → p.kind.isFunction = true → b'.get? producer = some p
  /-- All other nodes record the consumers that they recorded. -/
  records : ∀ id, id ≠ producer → b'.entries id = b.entries id ∧ b'.recipient id = b.recipient id
  /-- All nodes but the consumer and the producer are as they were. -/
  others : ∀ id, id ≠ consumer → id ≠ producer → b'.get? id = b.get? id
  layout : b'.layout = b.layout
  nextId : b'.nextId = b.nextId

/-- Emptying a slot of a linked board takes away the wire that fed it, and nothing else. -/
theorem unplugged_unlink (hb : b.Linked) (hc : b.get? consumer = some c)
    (h : b.feeder consumer slot = some producer) :
  b.Unplugged consumer slot producer (b.mapKinds (unlink consumer slot producer
    (decide (some producer ∈ c.kind.inputs.set slot none))))
  := by
  have hother : some producer ∈ c.kind.inputs.set slot none
      ↔ ∃ i, i ≠ slot ∧ b.feeder consumer i = some producer := by
    simp only [mem_set_none_iff, feeder_of_get? hc, Kind.input]
  constructor
  · intro id
    apply slots_unlink
  · intro p hp hfan
    use hb.mem_entries hp hfan h
    rw [entries_unlink, if_pos rfl]
  · intro p hp hsingle
    rw [recipient_unlink_of_feeder hb hp hsingle h]
    simp only [decide_eq_true_eq]
    split
    · next hmore =>
      obtain ⟨i, hne, hi⟩ := hother.1 hmore
      simpa using ⟨i, hne, hi⟩
    · next hlast =>
      simp only [ne_eq, not_true_eq_false, false_implies, and_true, true_iff]
      intro i hne hi
      apply hlast (hother.2 ⟨i, hne, hi⟩)
  · intro p hp hfun
    have hne : producer ≠ consumer := by
      rintro rfl
      have hheld := mem_inputs_of_feeder hp h
      rw [Kind.inputs_of_isFunction hfun] at hheld
      cases hheld
    rw [get?_mapKinds, hp, Option.map_some, unlink, if_neg hne, if_pos rfl,
      releaseWire_of_isFunction hfun]
  · intro id hne
    rw [entries_unlink, recipient_unlink, if_neg hne, if_neg fun hand => hne hand.1]
    exact ⟨rfl, rfl⟩
  · intro id hc hp
    apply get?_mapKinds_of_eq
    intro k
    apply unlink_of_ne hc hp
  · apply layout_mapKinds
    intro id k
    apply unwired_unlink
  · rfl

/-- A slot of a linked board that is fed can be emptied. The answer is the node that fed it. -/
theorem exists_unplugged (hb : b.Linked) (h : b.feeder consumer slot = some producer) :
  ∃ b', b.disconnect consumer slot = .ok (some producer, b')
    ∧ b.Unplugged consumer slot producer b' ∧ b'.Linked
  := by
  obtain ⟨c, hc, hinput⟩ := exists_of_feeder h
  refine ⟨_, disconnect_of_input hc hinput, unplugged_unlink hb hc h, ?_⟩
  obtain ⟨hcmem, rfl⟩ := get?_eq_some_iff.1 hc
  apply hb.unlink hcmem hinput

end Patchboard.Board
