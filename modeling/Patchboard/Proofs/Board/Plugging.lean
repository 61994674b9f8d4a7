import Patchboard.Proofs.Board.Unplugging

/-!
# Plugging a wire in

Wiring a producer to a slot of a linked board puts one wire in, and takes away the wires that it
replaces: the wire that fed the slot before, and every wire from the producer to other nodes if it can
feed one node only. A call whose slot is taken, or not there, gains a slot for the wire. All other wires
stay, at the slots where they were, and so does all else on the board. Emptying a slot that has just been
filled leads back to the board before, up to the order of entries.
-/

namespace Patchboard.Board

variable {b b' : Board} {p c : Node} {consumer producer id : NodeId} {slot : Nat}

/-! ## Writing a wire -/

section link

variable {target : Option Nat} {previous : Slot} {k : Kind} {i : Nat}

/-- What a slot holds when a wire has been written. -/
theorem join_written (hfree : Free k target) :
  ((written target producer k.inputs)[i]?).join
    = if i = target.getD k.inputs.length then some producer else (k.inputs[i]?).join
  := by
  cases target with
  | some slot =>
    obtain ⟨hlt, -⟩ := List.getElem?_eq_some_iff.1 hfree
    rw [written, List.getElem?_set, Option.getD_some]
    by_cases h : i = slot
    · rw [if_pos h.symm, if_pos h, if_pos hlt, Option.join_some]
    · rw [if_neg (Ne.symm h), if_neg h]
  | none =>
    rw [written, Option.getD_none]
    by_cases h : i = k.inputs.length
    · rw [if_pos h, h, List.getElem?_concat_length, Option.join_some]
    · rw [if_neg h]
      rcases Nat.lt_or_gt_of_ne h with hlt | hgt
      · rw [List.getElem?_append_left hlt]
      · rw [List.getElem?_eq_none (Nat.le_of_lt hgt), List.getElem?_eq_none]
        rw [List.length_append, List.length_singleton]
        exact hgt

theorem length_written :
  (written target producer k.inputs).length
    = if target = none then k.inputs.length + 1 else k.inputs.length
  := by
  cases target with
  | some slot => simp [written]
  | none => simp [written]

theorem unwired_link :
  (link consumer target producer previous id k).unwired = k.unwired
  := by
  unfold link enter
  cases target <;> dsimp only <;> split <;> split <;> split <;>
    simp [Kind.setInput, Kind.clearInputsFrom, Kind.addConsumer]

/-- A payload that the wire does not concern stays as it is. -/
theorem link_of_ne (hc : id ≠ consumer) (hp : id ≠ producer) (hprevious : previous ≠ some id) :
  link consumer target producer previous id k = k
  := by
  unfold link enter
  dsimp only
  rw [if_neg hp, if_neg hc, if_neg fun h => hprevious h.1]

/-- The slots of the consumer when a wire has been written. -/
theorem slots_link_consumer (hc : b.get? consumer = some c) (hfree : Free c.kind target) :
  (b.mapKinds (link consumer target producer previous)).slots consumer
    = written target producer c.kind.inputs
  := by
  rw [slots_of_get? (get?_mapKinds_of_get? hc), inputs_link_consumer hfree]

/-- The slots of the other nodes when a wire has been written. -/
theorem slots_link_of_ne (hne : id ≠ consumer) :
  (b.mapKinds (link consumer target producer previous)).slots id
    = if previous = some id then (b.slots id).map fun s => if s = some producer then none else s
      else b.slots id
  := by
  rw [slots, slots, view_mapKinds fun slots => if previous = some id then
    slots.map fun s => if s = some producer then none else s else slots]
  · intro n _
    apply inputs_link_of_ne hne
  · simp

/-- What feeds the consumer when a wire has been written. -/
theorem feeder_link_consumer (hc : b.get? consumer = some c) (hfree : Free c.kind target) :
  (b.mapKinds (link consumer target producer previous)).feeder consumer i
    = if i = target.getD c.kind.inputs.length then some producer else b.feeder consumer i
  := by
  rw [feeder, slots_link_consumer hc hfree, join_written hfree, feeder_of_get? hc, Kind.input]

/-- What feeds the other nodes when a wire has been written. -/
theorem feeder_link_of_ne (hne : id ≠ consumer) :
  (b.mapKinds (link consumer target producer previous)).feeder id i
    = if previous = some id ∧ b.feeder id i = some producer then none else b.feeder id i
  := by
  rw [feeder, slots_link_of_ne hne]
  by_cases h : previous = some id
  · rw [if_pos h, join_clear_eq]
    simp only [h, true_and, feeder]
  · rw [if_neg h, if_neg fun hand => h hand.1, feeder]

/-- Writing a wire adds no slot to the other nodes. -/
theorem length_slots_link_of_ne (hne : id ≠ consumer) :
  ((b.mapKinds (link consumer target producer previous)).slots id).length = (b.slots id).length
  := by
  rw [slots_link_of_ne hne]
  split
  · apply List.length_map
  · rfl

end link

/-! ## Clearing the way for a wire -/

/-- Nothing feeds the slot of a consumer that a wire is to be written to. -/
structure Cleared (b : Board) (consumer : NodeId) (target : Option Nat) (b' : Board) : Prop where
  slots : ∀ id, id ≠ consumer → b'.slots id = b.slots id
  feeder : ∀ i, b'.feeder consumer i = if target = some i then none else b.feeder consumer i
  length : (b'.slots consumer).length = (b.slots consumer).length
  /-- Only the consumer may have been forgotten. -/
  recipient : ∀ id d, d ≠ consumer → (b'.recipient id = some d ↔ b.recipient id = some d)
  others : ∀ id, id ≠ consumer → target.bind (b.feeder consumer) ≠ some id →
    b'.get? id = b.get? id
  layout : b'.layout = b.layout
  nextId : b'.nextId = b.nextId
  linked : b'.Linked

/-- A board where no wire stands in the way is cleared. -/
theorem cleared_self (hb : b.Linked) {target : Option Nat}
    (h : target.bind (b.feeder consumer) = none) :
  b.Cleared consumer target b
  := by
  refine ⟨fun _ _ => rfl, ?_, rfl, fun _ _ _ => Iff.rfl, fun _ _ _ => rfl, rfl, rfl, hb⟩
  intro i
  split
  · next htarget =>
    rw [htarget, Option.bind_some] at h
    exact h
  · rfl

/-- Unlinking what feeds a slot clears it. -/
theorem cleared_unlinked (hb : b.Linked) (hc : b.get? consumer = some c) (target : Option Nat) :
  b.Cleared consumer target (b.unlinked consumer target)
  := by
  cases target with
  | none =>
    apply cleared_self hb
    rfl
  | some slot =>
    obtain ⟨b', hd, hsame, -⟩ := exists_disconnect hc slot
    cases hinput : c.kind.input slot with
    | none =>
      rw [unlinked, hd, hsame hinput]
      apply cleared_self hb
      rw [Option.bind_some, feeder_of_get? hc, hinput]
    | some former =>
      obtain ⟨hcmem, rfl⟩ := get?_eq_some_iff.1 hc
      rw [unlinked, disconnect_of_input hc hinput]
      constructor
      · intro id hne
        rw [slots_unlink, if_neg hne]
      · intro i
        rw [Board.feeder, slots_unlink, if_pos rfl, join_set_none_eq]
        simp only [Option.some.injEq, eq_comm (a := slot)]
        rfl
      · rw [slots_unlink, if_pos rfl, List.length_set]
      · intro id d hd
        rw [recipient_unlink]
        split
        · next h => simp [h.2.2, hd.symm]
        · rfl
      · intro id hne hformer
        rw [Option.bind_some, feeder_of_get? hc, hinput] at hformer
        apply get?_mapKinds_of_eq
        intro k
        apply unlink_of_ne hne
        rintro rfl
        apply hformer rfl
      · apply layout_mapKinds
        intro id k
        apply unwired_unlink
      · rfl
      · apply hb.unlink hcmem hinput

/-! ## Wiring -/

/-- A node gains a slot for a wire: it is a call, and the slot that was asked for is not there or is
taken. -/
def gains (k : Kind) (slot : Nat) : Bool :=
  k.isCall && k.inputs[slot]? != some none

/-- The slot that a wire comes to: the slot that was asked for, or the one that is gained, behind all
others. -/
def landing (k : Kind) (slot : Nat) : Nat :=
  if gains k slot = true then k.inputs.length else slot

theorem targetSlot_eq (k : Kind) (slot : Nat) :
  targetSlot k slot = if gains k slot = true then none else some slot
  := by
  cases k <;> simp [targetSlot, gains, Kind.isCall, Kind.inputs]

theorem landing_eq (k : Kind) (slot : Nat) :
  landing k slot = (targetSlot k slot).getD k.inputs.length
  := by
  rw [landing, targetSlot_eq]
  split <;> rfl

/-- What fed the slot that a wire comes to. -/
theorem feeder_landing (hc : b.get? consumer = some c) :
  b.feeder consumer (landing c.kind slot) = (targetSlot c.kind slot).bind (b.feeder consumer)
  := by
  rw [landing, targetSlot_eq]
  split
  · rw [feeder, slots_of_get? hc, List.getElem?_eq_none (Nat.le_refl _)]
    rfl
  · rfl

/-- When the way is cleared, the consumer has a free slot for the wire or gains one. -/
theorem exists_free {k : Kind} (hc : b.get? consumer = some c)
    (hacc : c.kind.accepts slot k = true) :
  ∃ c', (b.unlinked consumer (targetSlot c.kind slot)).get? consumer = some c'
    ∧ c'.kind.inputs.length = c.kind.inputs.length ∧ Free c'.kind (targetSlot c.kind slot)
  := by
  cases htarget : targetSlot c.kind slot with
  | none => exact ⟨c, hc, rfl, isCall_of_targetSlot htarget⟩
  | some target =>
    obtain ⟨rfl, hlt⟩ := targetSlot_eq_some hacc htarget
    obtain ⟨b', hd, -⟩ := exists_disconnect hc target
    obtain ⟨d, hd', hid, -, f, -, rfl, hinputs, -⟩ := disconnect_eq_ok hd
    obtain ⟨hcmem, rfl⟩ := get?_eq_some_iff.1 hc
    obtain rfl := eq_of_id_eq hd' hcmem hid
    rw [unlinked, hd]
    refine ⟨{ d with kind := f d.id d.kind }, get?_of_mem (mem_mapKinds f hd'), ?_, ?_⟩
    · dsimp only
      rw [hinputs, List.length_set]
    · show (f d.id d.kind).inputs[target]? = some none
      rw [hinputs, List.getElem?_set_self hlt]

/-- The board with a wire, after what stood in its way was unlinked. -/
def rewired (b : Board) (consumer : NodeId) (target : Option Nat) (producer : NodeId) : Board :=
  (b.unlinked consumer target).mapKinds
    (link consumer target producer ((b.unlinked consumer target).recipient producer))

/-- What wiring comes to: the way is cleared, and the wire is written. -/
theorem connect_eq_some (h : b.connect consumer slot producer = .ok (some b')) :
  ∃ c p, b.get? consumer = some c ∧ b.get? producer = some p ∧
    c.kind.accepts slot p.kind = true ∧
    b' = b.rewired consumer (targetSlot c.kind slot) producer
  := by
  obtain ⟨c, hc, p, hp, rfl, rfl, -, hacc, -⟩ := connect_eq_ok h
  refine ⟨c, p, get?_of_mem hc, get?_of_mem hp, hacc, ?_⟩
  rw [connect_eq (get?_of_mem hc) (get?_of_mem hp)] at h
  split at h
  · simp only [Except.ok.injEq, Option.some.injEq] at h
    obtain ⟨p', hp', -⟩ := (SameSlots.unlinked (get?_of_mem hc) (targetSlot c.kind slot)).exists_get?
      (get?_of_mem hp)
    obtain ⟨hp'mem, hid⟩ := get?_eq_some_iff.1 hp'
    rw [← h, rewired, recipient_of_get? hp', ← hid]
    apply writeWire_retarget hp'mem
  · cases h

section rewired

variable {i : Nat}

/-- The slots of the consumer hold the wire, and what they held before. -/
theorem feeder_rewired_consumer (hb : b.Linked) (hc : b.get? consumer = some c)
    (hacc : c.kind.accepts slot p.kind = true) :
  (b.rewired consumer (targetSlot c.kind slot) producer).feeder consumer i
    = if i = landing c.kind slot then some producer else b.feeder consumer i
  := by
  obtain ⟨c', hc', hlength, hfree⟩ := exists_free hc hacc
  rw [rewired, feeder_link_consumer hc' hfree, hlength, ← landing_eq,
    (cleared_unlinked hb hc _).feeder]
  by_cases hi : i = landing c.kind slot
  · rw [if_pos hi, if_pos hi]
  · have hkept : targetSlot c.kind slot ≠ some i := by
      intro htarget
      rw [landing_eq, htarget] at hi
      apply hi rfl
    rw [if_neg hi, if_neg hi, if_neg hkept]

/-- The slots of another node hold what they held before, but not a producer that can feed one node
only. -/
theorem feeder_rewired_of_ne (hb : b.Linked) (hc : b.get? consumer = some c)
    (hp : b.get? producer = some p) (hne : id ≠ consumer) {target : Option Nat} :
  (b.rewired consumer target producer).feeder id i
    = if p.kind.isSingleOutput = true ∧ b.feeder id i = some producer then none else b.feeder id i
  := by
  have hcleared := cleared_unlinked hb hc target
  have hfeeder : (b.unlinked consumer target).feeder id i = b.feeder id i := by
    rw [feeder, hcleared.slots id hne, feeder]
  have hprevious : b.recipient producer = some id ∧ b.feeder id i = some producer
      ↔ p.kind.isSingleOutput = true ∧ b.feeder id i = some producer := by
    constructor
    · rintro ⟨hrecipient, hfeeder⟩
      exact ⟨isSingleOutput_of_recipient hp hrecipient, hfeeder⟩
    · rintro ⟨hsingle, hfeeder⟩
      exact ⟨(hb.recipient_eq_iff hp hsingle).2 ⟨i, hfeeder⟩, hfeeder⟩
  rw [rewired, feeder_link_of_ne hne]
  simp only [hcleared.recipient producer id hne, hfeeder, hprevious]

/-- The consumer gains a slot when there is no other slot for the wire. -/
theorem length_slots_rewired_consumer (hc : b.get? consumer = some c)
    (hacc : c.kind.accepts slot p.kind = true) :
  ((b.rewired consumer (targetSlot c.kind slot) producer).slots consumer).length
    = if gains c.kind slot = true then (b.slots consumer).length + 1 else (b.slots consumer).length
  := by
  obtain ⟨c', hc', hlength, hfree⟩ := exists_free hc hacc
  rw [rewired, slots_link_consumer hc' hfree, length_written, hlength, slots_of_get? hc,
    targetSlot_eq]
  cases gains c.kind slot <;> rfl

/-- The nodes that the wire does not concern stay as they are. -/
theorem get?_rewired_of_ne (hb : b.Linked) (hc : b.get? consumer = some c) {target : Option Nat}
    (hconsumer : id ≠ consumer) (hproducer : id ≠ producer)
    (hdisplaced : target.bind (b.feeder consumer) ≠ some id)
    (hprevious : b.recipient producer ≠ some id) :
  (b.rewired consumer target producer).get? id = b.get? id
  := by
  have hcleared := cleared_unlinked hb hc target
  rw [rewired, get?_mapKinds_of_eq, hcleared.others id hconsumer hdisplaced]
  intro k
  apply link_of_ne hconsumer hproducer
  rwa [ne_eq, hcleared.recipient producer id hconsumer]

end rewired

/-- The board `b'` is `b` with a wire from `p` to the slot of `c` that it comes to, and without the
wires that it replaces. -/
structure Plugged (b : Board) (c p : Node) (slot : Nat) (b' : Board) : Prop where
  /-- The wire is there, the wires from `p` to other nodes are gone if it can feed one only, and every
  other slot holds what it held. -/
  feeder : ∀ id i, b'.feeder id i =
    if id = c.id ∧ i = landing c.kind slot then some p.id
    else if p.kind.isSingleOutput = true ∧ id ≠ c.id ∧ b.feeder id i = some p.id then none
    else b.feeder id i
  /-- The consumer may gain a slot; no other node does. -/
  length : ∀ id, (b'.slots id).length
    = if id = c.id ∧ gains c.kind slot = true then (b.slots id).length + 1 else (b.slots id).length
  /-- All nodes but the two ends of the wire, the producer that it displaces and the node that `p` fed
  before are as they were. -/
  others : ∀ id, id ≠ c.id → id ≠ p.id → b.feeder c.id (landing c.kind slot) ≠ some id →
    b.recipient p.id ≠ some id → b'.get? id = b.get? id
  layout : b'.layout = b.layout
  nextId : b'.nextId = b.nextId

/-- Wiring on a checked board puts the wire in, takes away the wires that it replaces and changes
nothing else, and the board still passes the check. -/
theorem plugged_of_connect (hb : b.validate = .ok ())
    (h : b.connect consumer slot producer = .ok (some b')) :
  (∃ c p, b.get? consumer = some c ∧ b.get? producer = some p ∧ b.Plugged c p slot b')
    ∧ b'.validate = .ok ()
  := by
  have hlinked := linked_of_validate hb
  refine ⟨?_, (hlinked.connect h).validate⟩
  obtain ⟨c, p, hc, hp, hacc, rfl⟩ := connect_eq_some h
  use c, p, hc, hp
  have hcleared := cleared_unlinked hlinked hc (targetSlot c.kind slot)
  obtain rfl := id_of_get? hc
  obtain rfl := id_of_get? hp
  constructor
  · intro id i
    by_cases hid : id = c.id
    · subst hid
      rw [feeder_rewired_consumer hlinked hc hacc]
      simp
    · rw [feeder_rewired_of_ne hlinked hc hp hid]
      simp [hid]
  · intro id
    by_cases hid : id = c.id
    · subst hid
      rw [length_slots_rewired_consumer hc hacc]
      simp
    · rw [rewired, length_slots_link_of_ne hid, hcleared.slots id hid, if_neg fun h => hid h.1]
  · intro id hconsumer hproducer hdisplaced hprevious
    rw [feeder_landing hc] at hdisplaced
    apply get?_rewired_of_ne hlinked hc hconsumer hproducer hdisplaced hprevious
  · rw [rewired, layout_mapKinds fun _ _ => unwired_link, hcleared.layout]
  · exact hcleared.nextId

/-- A number feeds both slots of a sum, and a text feeds a product. -/
def crossed : Board where
  nodes := [
    ⟨⟨0⟩, .ofNat 0, .ofNat 0, .numericLiteral (.ofNat 7) (some ⟨1⟩)⟩,
    ⟨⟨1⟩, .ofNat 1, .ofNat 0, .binaryExpression "+" (some ⟨0⟩) (some ⟨0⟩) none⟩,
    ⟨⟨2⟩, .ofNat 2, .ofNat 0, .binaryExpression "*" (some ⟨3⟩) none none⟩,
    ⟨⟨3⟩, .ofNat 3, .ofNat 0, .stringLiteral "s" (some ⟨2⟩)⟩]
  nextId := 4
  distinct := by decide

/-- When the number is wired to the product in place of the text, both slots of the sum are emptied. -/
theorem plugged_crossed :
  crossed.validate = .ok () ∧ ∃ b, crossed.connect ⟨2⟩ 0 ⟨0⟩ = .ok (some b) ∧
    b.feeder ⟨2⟩ 0 = some ⟨0⟩ ∧ b.feeder ⟨1⟩ 0 = none ∧ b.feeder ⟨1⟩ 1 = none ∧
    b.layout = crossed.layout ∧ b.validate = .ok ()
  := by
  have hvalid : crossed.validate = .ok () := by decide
  obtain ⟨b, h⟩ : ∃ b, crossed.connect ⟨2⟩ 0 ⟨0⟩ = .ok (some b) := ⟨_, rfl⟩
  obtain ⟨⟨c, p, hc, hp, hplugged⟩, hvalid'⟩ := plugged_of_connect hvalid h
  cases hc
  cases hp
  refine ⟨hvalid, b, h, ?_, ?_, ?_, hplugged.layout, hvalid'⟩
  · rw [hplugged.feeder]
    decide
  · rw [hplugged.feeder]
    decide
  · rw [hplugged.feeder]
    decide

/-! ## Emptying the slot again -/

/-- The boards differ at most in the order in which a node records its consumers. -/
structure SameUpToOrder (b : Board) (producer : NodeId) (b' : Board) : Prop where
  slots : ∀ id, b'.slots id = b.slots id
  recipient : ∀ id, b'.recipient id = b.recipient id
  entries : ∀ id, id ≠ producer → b'.entries id = b.entries id
  perm : (b'.entries producer).Perm (b.entries producer)
  layout : b'.layout = b.layout
  nextId : b'.nextId = b.nextId

/-- Filling an empty slot meets no wire to unlink. -/
theorem rewired_of_empty (hc : b.get? consumer = some c) (hempty : c.kind.inputs[slot]? = some none) :
  b.rewired consumer (targetSlot c.kind slot) producer
    = b.mapKinds (link consumer (some slot) producer (b.recipient producer))
  := by
  have htarget : targetSlot c.kind slot = some slot := by
    rw [targetSlot_eq, gains, hempty]
    simp
  have hunlinked : b.unlinked consumer (some slot) = b := by
    obtain ⟨b', hd, hsame, -⟩ := exists_disconnect hc slot
    rw [unlinked, hd]
    apply hsame
    rw [Kind.input, hempty]
    rfl
  rw [htarget, rewired, hunlinked]

/-- On a linked board a producer that can feed one consumer only has it for recipient exactly when it
feeds it. -/
theorem recipient_eq_of_sole (hb : b.Linked) (hc : b.get? consumer = some c)
    (hp : b.get? producer = some p) (hsingle : p.kind.isSingleOutput = true)
    (hsole : ∀ id, b.recipient producer = some id → id = consumer) :
  b.recipient producer = if some producer ∈ c.kind.inputs then some consumer else none
  := by
  have hiff : b.recipient producer = some consumer ↔ some producer ∈ c.kind.inputs := by
    simp only [hb.recipient_eq_iff hp hsingle, Kind.mem_inputs_iff, feeder_of_get? hc]
  split
  · next h => apply hiff.2 h
  · next h =>
    cases hrecipient : b.recipient producer with
    | none => rfl
    | some id =>
      obtain rfl := hsole id hrecipient
      apply (h (hiff.1 hrecipient)).elim

section link

variable {target : Option Nat} {previous : Slot}

/-- The entries of the producer when a wire has been written. -/
theorem entries_link_producer (hp : b.get? producer = some p) :
  (b.mapKinds (link consumer target producer previous)).entries producer
    = if p.kind.isFanOut = true then b.entries producer ++ [consumer] else b.entries producer
  := by
  rw [entries_of_get? (get?_mapKinds_of_get? hp), entries_of_get? hp, outputs_link]
  simp only [true_and]

/-- The recipient of the producer when a wire has been written. -/
theorem recipient_link_producer (hp : b.get? producer = some p) :
  (b.mapKinds (link consumer target producer previous)).recipient producer
    = if p.kind.isSingleOutput = true then some consumer else b.recipient producer
  := by
  rw [recipient_of_get? (get?_mapKinds_of_get? hp), recipient_of_get? hp, output_link]
  simp only [true_and]

/-- All other nodes record the consumers that they recorded. -/
theorem records_link_of_ne (hne : id ≠ producer) :
  (b.mapKinds (link consumer target producer previous)).entries id = b.entries id ∧
    (b.mapKinds (link consumer target producer previous)).recipient id = b.recipient id
  := by
  constructor
  · rw [entries, entries, view_mapKinds fun ids => ids]
    · intro n _
      rw [outputs_link, if_neg fun h => hne h.1]
    · exact fun _ => rfl
  · rw [recipient, recipient, view_mapKinds fun s => s]
    · intro n _
      rw [output_link, if_neg fun h => hne h.1]
    · exact fun _ => rfl

end link

/-- Emptying a slot that was empty before it was filled leads back to the board before, but the
producer may record its consumers in another order. -/
theorem sameUpToOrder_of_connect (hb : b.Linked) (hempty : (b.slots consumer)[slot]? = some none)
    (h : b.connect consumer slot producer = .ok (some b'))
    (hsole : ∀ id, b.recipient producer = some id → id = consumer) :
  ∃ b'', b'.disconnect consumer slot = .ok (some producer, b'') ∧ b.SameUpToOrder producer b''
  := by
  obtain ⟨c, p, hc, hp, -, rfl⟩ := connect_eq_some h
  rw [slots_of_get? hc] at hempty
  rw [rewired_of_empty hc hempty]
  have hfree : Free c.kind (some slot) := hempty
  obtain ⟨c', hc', hinput⟩ := exists_of_feeder (b := b.mapKinds
    (link consumer (some slot) producer (b.recipient producer)))
    (by rw [feeder_link_consumer hc hfree, if_pos (by rfl)])
  -- The slots of the consumer are as they were before the wire was written.
  have hslots : c'.kind.inputs.set slot none = c.kind.inputs := by
    rw [← slots_of_get? hc', slots_link_consumer hc hfree, written, List.set_set]
    apply set_none_of_join
    rw [hempty]
    rfl
  refine ⟨_, disconnect_of_input hc' hinput, ?_⟩
  rw [hslots]
  constructor
  · intro id
    rw [slots_unlink]
    by_cases hid : id = consumer
    · subst hid
      rw [if_pos rfl, slots_of_get? hc', hslots, slots_of_get? hc]
    · rw [if_neg hid, slots_link_of_ne hid, if_neg fun hrecipient => hid (hsole id hrecipient)]
  · intro id
    rw [recipient_unlink]
    by_cases hid : id = producer
    · subst hid
      rw [recipient_link_producer hp]
      by_cases hsingle : p.kind.isSingleOutput = true
      · rw [recipient_eq_of_sole hb hc hp hsingle hsole]
        by_cases hheld : some id ∈ c.kind.inputs
        · simp [hsingle, hheld]
        · simp [hsingle, hheld]
      · have hnone : b.recipient id = none := by
          rw [recipient_of_get? hp, Kind.output_of_not_isSingleOutput]
          simpa using hsingle
        simp [hsingle, hnone]
    · rw [(records_link_of_ne hid).2, if_neg fun hand => hid hand.1]
  · intro id hid
    rw [entries_unlink, if_neg hid, (records_link_of_ne hid).1]
  · rw [entries_unlink, if_pos rfl, entries_link_producer hp]
    split
    · have hperm := (List.perm_append_singleton consumer (b.entries producer)).erase consumer
      rwa [List.erase_cons_head] at hperm
    · next hfan =>
      rw [entries_of_get? hp, Kind.outputs_of_not_isFanOut (by simpa using hfan)]
      rfl
  · rw [layout_mapKinds fun _ _ => unwired_unlink, layout_mapKinds fun _ _ => unwired_link]
  · rfl

/-- Emptying a slot of a checked board takes away the wire that fed it and changes nothing else, and the
board still passes the check. So a slot that is filled and emptied again is as it was before, and so are
all others and, up to the order of entries, the recorded consumers. -/
theorem unplugged_of_disconnect (hb : b.validate = .ok ()) :
  (∀ consumer slot producer, b.feeder consumer slot = some producer →
    ∃ b', b.disconnect consumer slot = .ok (some producer, b') ∧
      b.Unplugged consumer slot producer b' ∧ b'.validate = .ok ()) ∧
  (∀ consumer slot producer b', (b.slots consumer)[slot]? = some none →
    b.connect consumer slot producer = .ok (some b') →
    (∀ id, b.recipient producer = some id → id = consumer) →
    ∃ b'', b'.disconnect consumer slot = .ok (some producer, b'') ∧ b.SameUpToOrder producer b'')
  := by
  have hlinked := linked_of_validate hb
  constructor
  · intro consumer slot producer h
    obtain ⟨b', hd, hunplugged, hlinked'⟩ := exists_unplugged hlinked h
    use b', hd, hunplugged
    apply hlinked'.validate
  · intro consumer slot producer b' hempty h hsole
    apply sameUpToOrder_of_connect hlinked hempty h hsole

/-- A parameter feeds both slots of a product, and between them, in order, the first slot of a
choice. -/
def interleaved : Board where
  nodes := [
    ⟨⟨0⟩, .ofNat 0, .ofNat 0, .parameter "x" "number" false [⟨1⟩, ⟨2⟩, ⟨1⟩]⟩,
    ⟨⟨1⟩, .ofNat 1, .ofNat 0, .binaryExpression "*" (some ⟨0⟩) (some ⟨0⟩) none⟩,
    ⟨⟨2⟩, .ofNat 2, .ofNat 0, .conditionalExpression (some ⟨0⟩) none none none⟩]
  nextId := 3
  distinct := by decide

/-- The first entry for the product is taken away, whichever slot is emptied. When another slot of the
choice is filled and emptied, the entry for the choice comes last. -/
theorem unplugged_interleaved :
  interleaved.validate = .ok () ∧
  (∃ b, interleaved.disconnect ⟨1⟩ 1 = .ok (some ⟨0⟩, b) ∧ b.entries ⟨0⟩ = [⟨2⟩, ⟨1⟩] ∧
    b.validate = .ok ()) ∧
  (∃ b b', interleaved.connect ⟨2⟩ 1 ⟨0⟩ = .ok (some b) ∧
    b.disconnect ⟨2⟩ 1 = .ok (some ⟨0⟩, b') ∧ b'.slots ⟨2⟩ = interleaved.slots ⟨2⟩ ∧
    (b'.entries ⟨0⟩).Perm (interleaved.entries ⟨0⟩) ∧ b' ≠ interleaved)
  := by
  have hvalid : interleaved.validate = .ok () := by decide
  obtain ⟨hemptied, hrestored⟩ := unplugged_of_disconnect hvalid
  refine ⟨hvalid, ?_, ?_⟩
  · obtain ⟨b, hd, hunplugged, hvalid'⟩ := hemptied ⟨1⟩ 1 ⟨0⟩ (by decide)
    refine ⟨b, hd, ?_, hvalid'⟩
    rw [(hunplugged.fanOut _ rfl rfl).2]
    decide
  · obtain ⟨b, h⟩ : ∃ b, interleaved.connect ⟨2⟩ 1 ⟨0⟩ = .ok (some b) := ⟨_, rfl⟩
    obtain ⟨b', hd, hsame⟩ := hrestored ⟨2⟩ 1 ⟨0⟩ b (by decide) h (fun _ hid => by cases hid)
    refine ⟨b, b', h, hd, hsame.slots ⟨2⟩, hsame.perm, ?_⟩
    rintro rfl
    cases h
    cases hd

end Patchboard.Board
