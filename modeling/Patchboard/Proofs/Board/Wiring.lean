import Patchboard.Proofs.Board.Changes

/-!
# Wiring keeps the ends of the wires in agreement

A slot is emptied together with the entry for it at the producer that fed it. A wire is written at both
ends, after what fed the slot was unlinked and after the producer was cut off from the node that it fed
before, if it can feed one only.
-/

namespace Patchboard

namespace Board

variable {b b' : Board} {n p c : Node}

/-! ## Changes of all payloads -/

/-- A change of payloads keeps the two ends of the wires in agreement when the changed ends agree. -/
theorem linked_mapKinds {f : NodeId → Kind → Kind} (htag : ∀ id k, (f id k).tag = k.tag)
    (fanOut : ∀ n ∈ b.nodes, ∀ p ∈ b.nodes, p.kind.isFanOut = true →
      (f n.id n.kind).inputs.count (some p.id) = (f p.id p.kind).outputs.count n.id)
    (single : ∀ n ∈ b.nodes, ∀ p ∈ b.nodes, p.kind.isSingleOutput = true →
      (some p.id ∈ (f n.id n.kind).inputs ↔ (f p.id p.kind).output = some n.id))
    (ret : ∀ n ∈ b.nodes, ∀ p ∈ b.nodes, p.kind.isReturn = true →
      some p.id ∉ (f n.id n.kind).inputs)
    (consumers : ∀ p ∈ b.nodes, ∀ id ∈ (f p.id p.kind).consumers, id ∈ b.ids) :
  (b.mapKinds f).Linked
  := by
  constructor
  · intro n' hn' p' hp' hfan
    obtain ⟨n, hn, rfl⟩ := mem_nodes_mapKinds.1 hn'
    obtain ⟨p, hp, rfl⟩ := mem_nodes_mapKinds.1 hp'
    apply fanOut n hn p hp
    rwa [← Kind.isFanOut_congr (htag p.id p.kind)]
  · intro n' hn' p' hp' hsingle
    obtain ⟨n, hn, rfl⟩ := mem_nodes_mapKinds.1 hn'
    obtain ⟨p, hp, rfl⟩ := mem_nodes_mapKinds.1 hp'
    apply single n hn p hp
    rwa [← Kind.isSingleOutput_congr (htag p.id p.kind)]
  · intro n' hn' p' hp' hret
    obtain ⟨n, hn, rfl⟩ := mem_nodes_mapKinds.1 hn'
    obtain ⟨p, hp, rfl⟩ := mem_nodes_mapKinds.1 hp'
    apply ret n hn p hp
    rwa [← Kind.isReturn_congr (htag p.id p.kind)]
  · intro p' hp' id hid
    obtain ⟨p, hp, rfl⟩ := mem_nodes_mapKinds.1 hp'
    rw [ids_mapKinds]
    apply consumers p hp id hid

/-! ## Emptying a slot -/

/-- Forgetting a wire leaves the slots alone. -/
@[simp]
theorem inputs_releaseWire (consumer : NodeId) (stillFed : Bool) (k : Kind) :
  (releaseWire consumer stillFed k).inputs = k.inputs
  := by
  rw [releaseWire]
  cases k <;> cases stillFed <;> rfl

@[simp]
theorem tag_releaseWire (consumer : NodeId) (stillFed : Bool) (k : Kind) :
  (releaseWire consumer stillFed k).tag = k.tag
  := by
  rw [releaseWire]
  cases k <;> cases stillFed <;> rfl

/-- A node that fans out forgets one entry. -/
@[simp]
theorem outputs_releaseWire (consumer : NodeId) (stillFed : Bool) (k : Kind) :
  (releaseWire consumer stillFed k).outputs = k.outputs.erase consumer
  := by
  rw [releaseWire]
  cases k <;> cases stillFed <;> rfl

/-- A node with a single consumer forgets it, unless it still feeds it. -/
@[simp]
theorem output_releaseWire (consumer : NodeId) (stillFed : Bool) (k : Kind) :
  (releaseWire consumer stillFed k).output
    = if stillFed = false ∧ k.output = some consumer then none else k.output
  := by
  rw [releaseWire]
  cases k <;> cases stillFed <;> simp [Kind.isFanOut, Kind.releaseOnce, Kind.release,
    Kind.mapConsumers, Kind.output]

/-- What emptying a slot does to the payloads. -/
def unlink (consumer : NodeId) (slot : Nat) (producer : NodeId) (stillFed : Bool) (id : NodeId)
    (k : Kind) : Kind :=
  let k := if id = consumer then k.setInput slot none else k
  if id = producer then releaseWire consumer stillFed k else k

section unlink

variable {consumer producer : NodeId} {slot : Nat} {stillFed : Bool} {id : NodeId} {k : Kind}

theorem tag_unlink :
  (unlink consumer slot producer stillFed id k).tag = k.tag
  := by
  rw [unlink]
  split <;> split <;> simp [Kind.setInput]

theorem inputs_unlink :
  (unlink consumer slot producer stillFed id k).inputs
    = if id = consumer then k.inputs.set slot none else k.inputs
  := by
  rw [unlink]
  split <;> split <;> simp

theorem outputs_unlink :
  (unlink consumer slot producer stillFed id k).outputs
    = if id = producer then k.outputs.erase consumer else k.outputs
  := by
  rw [unlink]
  split <;> split <;> simp [Kind.setInput]

theorem output_unlink :
  (unlink consumer slot producer stillFed id k).output
    = if id = producer ∧ stillFed = false ∧ k.output = some consumer then none else k.output
  := by
  rw [unlink]
  split <;> split <;> simp_all [Kind.setInput]

end unlink

/-- Emptying a slot keeps the ends of the wires in agreement. -/
theorem Linked.unlink (hb : b.Linked) (hc : c ∈ b.nodes) {slot : Nat} {producer : NodeId}
    (hslot : c.kind.input slot = some producer) :
  (b.mapKinds (unlink c.id slot producer
    (decide (some producer ∈ c.kind.inputs.set slot none)))).Linked
  := by
  have hget := getElem?_inputs_of_input hslot
  have hmem : some producer ∈ c.kind.inputs := List.mem_of_getElem? hget
  -- What the emptied slots still hold.
  have hset : ∀ id, some id ∈ c.kind.inputs.set slot none → some id ∈ c.kind.inputs := by
    intro id hid
    rcases List.mem_or_eq_of_mem_set hid with h | h
    · exact h
    · cases h
  have hkept : ∀ id, id ≠ producer → (some id ∈ c.kind.inputs.set slot none ↔ some id ∈ c.kind.inputs) := by
    intro id hne
    rw [← List.count_pos_iff, ← List.count_pos_iff, count_set_none hget, if_neg hne, Nat.sub_zero]
  apply linked_mapKinds (fun _ _ => tag_unlink)
  · intro n hn p hp hfan
    have hlinked := hb.fanOut n hn p hp hfan
    rw [inputs_unlink, outputs_unlink]
    by_cases hnc : n.id = c.id
    · obtain rfl := eq_of_id_eq hn hc hnc
      rw [if_pos rfl, count_set_none hget, hlinked]
      by_cases hp' : p.id = producer
      · rw [if_pos hp', if_pos hp', List.count_erase_self]
      · rw [if_neg hp', if_neg hp', Nat.sub_zero]
    · rw [if_neg hnc, hlinked]
      by_cases hp' : p.id = producer
      · rw [if_pos hp', List.count_erase_of_ne hnc]
      · rw [if_neg hp']
  · intro n hn p hp hsingle
    have hlinked := hb.single n hn p hp hsingle
    rw [inputs_unlink, output_unlink]
    by_cases hnc : n.id = c.id
    · obtain rfl := eq_of_id_eq hn hc hnc
      rw [if_pos rfl]
      by_cases hp' : p.id = producer
      · have hout := hlinked.1 (hp' ▸ hmem)
        simp only [hp', hout, decide_eq_false_iff_not, true_and, and_true]
        by_cases hstill : some producer ∈ n.kind.inputs.set slot none
        · simp [hstill]
        · simp [hstill]
      · rw [hkept p.id hp', hlinked, if_neg]
        rintro ⟨h, -⟩
        apply hp' h
    · rw [if_neg hnc, hlinked]
      split
      · next h =>
        rw [h.2.2]
        simp [Ne.symm hnc]
      · rfl
  · intro n hn p hp hret hin
    rw [inputs_unlink] at hin
    split at hin
    · next hnc =>
      obtain rfl := eq_of_id_eq hn hc hnc
      apply hb.ret n hn p hp hret (hset p.id hin)
    · apply hb.ret n hn p hp hret hin
  · intro p hp id hid
    apply hb.consumers p hp
    rw [Kind.mem_consumers_iff, output_unlink, outputs_unlink] at hid
    rw [Kind.mem_consumers_iff]
    rcases hid with h | h
    · split at h
      · cases h
      · exact .inl h
    · split at h
      · exact .inr (List.mem_of_mem_erase h)
      · exact .inr h

/-- Emptying a slot adds nothing to the slots. -/
theorem shrinks_unlink (consumer : NodeId) (slot : Nat) (producer : NodeId) (stillFed : Bool) :
  Shrinks (unlink consumer slot producer stillFed)
  := by
  constructor
  · intro id k
    apply tag_unlink
  · intro id k i x h
    rw [Kind.input, inputs_unlink] at h
    split at h
    · apply join_set_none h
    · exact h

/-- What emptying a slot comes to: a change of payloads that empties the slot, adds nothing and keeps
the ends of the wires in agreement. -/
theorem disconnect_eq_ok {consumer : NodeId} {slot : Nat} {former : Slot}
    (h : b.disconnect consumer slot = .ok (former, b')) :
  ∃ c ∈ b.nodes, c.id = consumer ∧ former = c.kind.input slot ∧ ∃ f, Shrinks f ∧
    b' = b.mapKinds f ∧ (f c.id c.kind).inputs = c.kind.inputs.set slot none ∧
    (b.Linked → b'.Linked)
  := by
  rw [disconnect, require] at h
  cases hget : b.get? consumer with
  | none => simp [hget, bind, Except.bind] at h
  | some c =>
    obtain ⟨hc, rfl⟩ := get?_eq_some_iff.1 hget
    use c, hc, rfl
    simp only [hget, bind, Except.bind] at h
    cases hinput : c.kind.input slot with
    | none =>
      simp only [hinput, pure, Except.pure, Except.ok.injEq, Prod.mk.injEq] at h
      obtain ⟨rfl, rfl⟩ := h
      refine ⟨rfl, fun _ k => k, shrinks_id, (mapKinds_id b).symm, ?_, id⟩
      apply (set_none_of_join hinput).symm
    | some producer =>
      simp only [hinput, pure, Except.pure, Except.ok.injEq, Prod.mk.injEq, Kind.inputs_setInput,
        List.contains_eq_mem] at h
      obtain ⟨rfl, hb'⟩ := h
      have heq : b' = b.mapKinds (unlink c.id slot producer
          (decide (some producer ∈ c.kind.inputs.set slot none))) := by
        rw [← hb', update, update, mapKinds_mapKinds]
        rfl
      refine ⟨rfl, _, shrinks_unlink c.id slot producer _, heq, ?_, ?_⟩
      · rw [inputs_unlink, if_pos rfl]
      · intro hb
        rw [heq]
        apply hb.unlink hc hinput

/-! ## Writing a wire -/

/-- The slots of a consumer when a wire has been written to them. -/
def written (target : Option Nat) (producer : NodeId) (slots : List Slot) : List Slot :=
  match target with
  | some slot => slots.set slot (some producer)
  | none => slots ++ [some producer]

/-- A wire may be written there: to an empty slot, or to a new slot of a call. -/
def Free (k : Kind) : Option Nat → Prop
  | some slot => k.inputs[slot]? = some none
  | none => k.isCall = true

/-- What writing a wire does to the slots of the payloads, when the producer named this consumer
before. -/
def enter (consumer : NodeId) (target : Option Nat) (producer : NodeId) (previous : Slot)
    (id : NodeId) (k : Kind) : Kind :=
  let k := if previous = some id ∧ id ≠ consumer then k.clearInputsFrom producer else k
  if id = consumer then
    match target with
    | some slot => k.setInput slot (some producer)
    | none => k.pushInput producer
  else k

/-- What writing a wire does to the payloads. -/
def link (consumer : NodeId) (target : Option Nat) (producer : NodeId) (previous : Slot)
    (id : NodeId) (k : Kind) : Kind :=
  let k := enter consumer target producer previous id k
  if id = producer then k.addConsumer consumer else k

section link

variable {consumer producer : NodeId} {target : Option Nat} {previous : Slot} {id : NodeId} {k : Kind}

theorem tag_enter :
  (enter consumer target producer previous id k).tag = k.tag
  := by
  unfold enter
  cases target <;> dsimp only <;> split <;> split <;> simp [Kind.setInput, Kind.clearInputsFrom]

theorem outputs_enter :
  (enter consumer target producer previous id k).outputs = k.outputs
  := by
  unfold enter
  cases target <;> dsimp only <;> split <;> split <;> simp [Kind.setInput, Kind.clearInputsFrom]

theorem output_enter :
  (enter consumer target producer previous id k).output = k.output
  := by
  unfold enter
  cases target <;> dsimp only <;> split <;> split <;> simp [Kind.setInput, Kind.clearInputsFrom]

theorem tag_link :
  (link consumer target producer previous id k).tag = k.tag
  := by
  rw [link]
  split
  · rw [Kind.addConsumer, Kind.tag_mapConsumers, tag_enter]
  · apply tag_enter

theorem outputs_link :
  (link consumer target producer previous id k).outputs
    = if id = producer ∧ k.isFanOut = true then k.outputs ++ [consumer] else k.outputs
  := by
  rw [link]
  by_cases h : id = producer
  · rw [if_pos h, Kind.outputs_addConsumer, Kind.isFanOut_congr tag_enter, outputs_enter]
    simp only [h, true_and]
  · rw [if_neg h, outputs_enter, if_neg fun hand => h hand.1]

theorem output_link :
  (link consumer target producer previous id k).output
    = if id = producer ∧ k.isSingleOutput = true then some consumer else k.output
  := by
  rw [link]
  by_cases h : id = producer
  · rw [if_pos h, Kind.output_addConsumer, Kind.isSingleOutput_congr tag_enter, output_enter]
    simp only [h, true_and]
  · rw [if_neg h, output_enter, if_neg fun hand => h hand.1]

theorem inputs_link :
  (link consumer target producer previous id k).inputs
    = (enter consumer target producer previous id k).inputs
  := by
  rw [link]
  split
  · rw [Kind.addConsumer, Kind.inputs_mapConsumers]
  · rfl

/-- The consumer has the wire in its slots. -/
theorem inputs_link_consumer (hfree : Free k target) :
  (link consumer target producer previous consumer k).inputs = written target producer k.inputs
  := by
  have hkept : ¬ (previous = some consumer ∧ consumer ≠ consumer) := fun h => h.2 rfl
  rw [inputs_link]
  unfold enter
  rw [if_pos rfl, if_neg hkept]
  cases target with
  | some slot => apply Kind.inputs_setInput
  | none => apply Kind.inputs_pushInput hfree

/-- The node that the producer fed before has no slot for it. -/
theorem inputs_link_of_ne (hne : id ≠ consumer) :
  (link consumer target producer previous id k).inputs
    = if previous = some id then k.inputs.map fun s => if s = some producer then none else s
      else k.inputs
  := by
  rw [inputs_link]
  unfold enter
  dsimp only
  rw [if_neg hne]
  by_cases h : previous = some id
  · rw [if_pos ⟨h, hne⟩, if_pos h, Kind.inputs_clearInputsFrom]
  · rw [if_neg fun hand => h hand.1, if_neg h]

/-- A wire that is written counts. -/
theorem count_written (hfree : Free k target) (id : NodeId) :
  (written target producer k.inputs).count (some id)
    = k.inputs.count (some id) + if id = producer then 1 else 0
  := by
  cases target with
  | some slot => apply count_set_some hfree
  | none =>
    rw [written, List.count_append, List.count_singleton]
    by_cases h : id = producer
    · simp [h]
    · simp [h, Ne.symm h]

/-- The slots hold the producer that was written, and what they held before. -/
theorem mem_written_iff (hfree : Free k target) :
  some id ∈ written target producer k.inputs ↔ some id ∈ k.inputs ∨ id = producer
  := by
  rw [← List.count_pos_iff, ← List.count_pos_iff, count_written hfree]
  by_cases h : id = producer
  · simp [h]
  · simp [h]

end link

/-- Writing a wire keeps the ends of the wires in agreement. -/
theorem Linked.link (hb : b.Linked) (hc : c ∈ b.nodes) (hp : p ∈ b.nodes)
    (hret : p.kind.isReturn = false) {target : Option Nat} (hfree : Free c.kind target) :
  (b.mapKinds (link c.id target p.id p.kind.output)).Linked
  := by
  apply linked_mapKinds (fun _ _ => tag_link)
  · intro n hn q hq hfan
    have hlinked := hb.fanOut n hn q hq hfan
    rw [outputs_link]
    by_cases hnc : n.id = c.id
    · obtain rfl := eq_of_id_eq hn hc hnc
      rw [inputs_link_consumer hfree, count_written hfree, hlinked]
      by_cases hqp : q.id = p.id
      · rw [if_pos hqp, if_pos ⟨hqp, hfan⟩, List.count_append, List.count_singleton_self]
      · rw [if_neg hqp, if_neg fun h => hqp h.1, Nat.add_zero]
    · rw [inputs_link_of_ne hnc]
      by_cases hqp : q.id = p.id
      · obtain rfl := eq_of_id_eq hq hp hqp
        have hsingle : q.kind.isSingleOutput = false := by
          have := q.kind.shape
          simp_all
        rw [Kind.output_of_not_isSingleOutput hsingle, if_neg (by simp), if_pos ⟨rfl, hfan⟩,
          List.count_append, hlinked, List.count_eq_zero_of_not_mem (l := [c.id]) (by simpa using hnc)]
        rfl
      · have hold : ¬ (q.id = p.id ∧ q.kind.isFanOut = true) := fun h => hqp h.1
        rw [if_neg hold, ← hlinked]
        split
        · apply count_clear_of_ne hqp
        · rfl
  · intro n hn q hq hsingle
    have hlinked := hb.single n hn q hq hsingle
    rw [output_link]
    by_cases hqp : q.id = p.id
    · obtain rfl := eq_of_id_eq hq hp hqp
      rw [if_pos ⟨rfl, hsingle⟩]
      by_cases hnc : n.id = c.id
      · obtain rfl := eq_of_id_eq hn hc hnc
        rw [inputs_link_consumer hfree, mem_written_iff hfree]
        simp
      · rw [inputs_link_of_ne hnc]
        split
        · next h => simp [mem_clear_iff, Ne.symm hnc]
        · next h => simp [hlinked, h, Ne.symm hnc]
    · rw [if_neg fun h => hqp h.1, ← hlinked]
      by_cases hnc : n.id = c.id
      · obtain rfl := eq_of_id_eq hn hc hnc
        rw [inputs_link_consumer hfree, mem_written_iff hfree]
        simp [hqp]
      · rw [inputs_link_of_ne hnc]
        split
        · simp [mem_clear_iff, hqp]
        · rfl
  · intro n hn q hq hreturn hin
    by_cases hnc : n.id = c.id
    · obtain rfl := eq_of_id_eq hn hc hnc
      rw [inputs_link_consumer hfree, mem_written_iff hfree] at hin
      rcases hin with hin | hqp
      · apply hb.ret n hn q hq hreturn hin
      · rw [eq_of_id_eq hq hp hqp, hret] at hreturn
        cases hreturn
    · rw [inputs_link_of_ne hnc] at hin
      split at hin
      · apply hb.ret n hn q hq hreturn (mem_clear_iff.1 hin).1
      · apply hb.ret n hn q hq hreturn hin
  · intro q hq id hid
    rw [Kind.mem_consumers_iff, output_link, outputs_link] at hid
    have hold : q.kind.output = some id ∨ id ∈ q.kind.outputs → id ∈ b.ids :=
      fun h => hb.consumers q hq id ((q.kind.mem_consumers_iff id).2 h)
    have hnew : c.id ∈ b.ids := List.mem_map_of_mem hc
    rcases hid with h | h
    · split at h
      · rwa [← Option.some.inj h]
      · apply hold (.inl h)
    · split at h
      · rcases List.mem_append.1 h with h | h
        · apply hold (.inr h)
        · rwa [List.mem_singleton.1 h]
      · apply hold (.inr h)

/-- Cutting off the producer and writing the wire is one change of payloads. -/
theorem writeWire_retarget (hp : p ∈ b.nodes) (consumer : NodeId) (target : Option Nat) :
  (b.retarget consumer p.id).writeWire consumer target p.id
    = b.mapKinds (link consumer target p.id p.kind.output)
  := by
  have hretarget : b.retarget consumer p.id = b.mapKinds fun id k =>
      if p.kind.output = some id ∧ id ≠ consumer then k.clearInputsFrom p.id else k := by
    rw [retarget]
    rw [get?_of_mem hp, Option.bind_some]
    cases p.kind.output with
    | none => simp [mapKinds_id]
    | some previous =>
      dsimp only
      split
      · next h =>
        subst h
        conv_lhs => rw [← mapKinds_id b]
        apply mapKinds_congr
        intro id k
        rw [if_neg]
        rintro ⟨h, h'⟩
        apply h' (Option.some.inj h).symm
      · next h =>
        apply mapKinds_congr
        intro id k
        by_cases hid : id = previous
        · subst hid
          rw [if_pos rfl, if_pos ⟨rfl, h⟩]
        · rw [if_neg hid, if_neg]
          rintro ⟨heq, -⟩
          apply hid (Option.some.inj heq).symm
  rw [hretarget]
  unfold writeWire
  cases target with
  | some slot =>
    simp only [update, mapKinds_mapKinds]
    rfl
  | none =>
    simp only [update, mapKinds_mapKinds]
    rfl

/-- A wire that is written to a slot that is there is written to the slot that was asked for. -/
theorem targetSlot_eq_some {k k' : Kind} {slot target : Nat} (h : k.accepts slot k' = true)
    (htarget : targetSlot k slot = some target) :
  target = slot ∧ slot < k.inputs.length
  := by
  cases k with
  | callExpression inputs output =>
    simp only [targetSlot] at htarget
    split at htarget
    · next hnone =>
      obtain ⟨hlt, -⟩ := List.getElem?_eq_some_iff.1 hnone
      exact ⟨(Option.some.inj htarget).symm, hlt⟩
    · cases htarget
  | functionReference function output =>
    simp only [Kind.accepts, Bool.and_eq_true, beq_iff_eq] at h
    refine ⟨(Option.some.inj htarget).symm, ?_⟩
    rw [h.1]
    exact Nat.zero_lt_one
  | _ =>
    simp only [Kind.accepts, Bool.and_eq_true, decide_eq_true_eq] at h
    exact ⟨(Option.some.inj htarget).symm, h.1.2⟩

/-- Only calls gain slots. -/
theorem isCall_of_targetSlot {k : Kind} {slot : Nat} (h : targetSlot k slot = none) :
  k.isCall = true
  := by
  cases k <;> first | rfl | cases h

/-- What wiring a producer to a slot comes to: what fed the slot is unlinked, and the wire is written
to a free slot. -/
theorem connect_eq_ok {consumer producer : NodeId} {slot : Nat}
    (h : b.connect consumer slot producer = .ok (some b')) :
  ∃ c ∈ b.nodes, ∃ p ∈ b.nodes, c.id = consumer ∧ p.id = producer ∧ c.id ≠ p.id ∧
    c.kind.accepts slot p.kind = true ∧ ∃ f, Shrinks f ∧
      (f c.id c.kind).inputs.length = c.kind.inputs.length ∧
      Free (f c.id c.kind) (targetSlot c.kind slot) ∧ (b.Linked → (b.mapKinds f).Linked) ∧
      b' = (b.mapKinds f).mapKinds
        (link c.id (targetSlot c.kind slot) p.id (f p.id p.kind).output)
  := by
  unfold connect require at h
  cases hc : b.get? consumer with
  | none => simp [hc, bind, Except.bind] at h
  | some c =>
    cases hp : b.get? producer with
    | none => simp [hc, hp, bind, Except.bind] at h
    | some p =>
      obtain ⟨hcmem, rfl⟩ := get?_eq_some_iff.1 hc
      obtain ⟨hpmem, rfl⟩ := get?_eq_some_iff.1 hp
      simp only [hc, hp, bind, Except.bind] at h
      split at h
      · cases h
      · next hok =>
        obtain ⟨hne, hacc⟩ := not_or.1 hok
        rw [not_not] at hacc
        refine ⟨c, hcmem, p, hpmem, rfl, rfl, hne, hacc, ?_⟩
        -- The wire is written on the board where the slot is unlinked.
        have finish : ∀ f, Shrinks f → b' = ((b.mapKinds f).retarget c.id p.id).writeWire c.id
              (targetSlot c.kind slot) p.id →
            b' = (b.mapKinds f).mapKinds
              (link c.id (targetSlot c.kind slot) p.id (f p.id p.kind).output) := by
          intro f _ hb'
          rw [hb']
          exact writeWire_retarget (mem_mapKinds f hpmem) c.id _
        cases htarget : targetSlot c.kind slot with
        | none =>
          simp only [htarget, pure, Except.pure, Except.ok.injEq, Option.some.injEq] at h
          refine ⟨fun _ k => k, shrinks_id, rfl, isCall_of_targetSlot htarget, ?_, ?_⟩
          · rw [mapKinds_id]
            exact id
          · rw [← htarget]
            apply finish _ shrinks_id
            rw [mapKinds_id, htarget]
            exact h.symm
        | some target =>
          obtain ⟨rfl, hlt⟩ := targetSlot_eq_some hacc htarget
          simp only [htarget] at h
          cases hd : b.disconnect c.id target with
          | error e => simp [hd, Except.map] at h
          | ok res =>
            obtain ⟨former, u⟩ := res
            simp only [hd, Except.map, pure, Except.pure, Except.ok.injEq, Option.some.injEq] at h
            obtain ⟨c', hc', hid, -, f, hf, rfl, hinputs, hlinked⟩ := disconnect_eq_ok hd
            obtain rfl := eq_of_id_eq hc' hcmem hid
            refine ⟨f, hf, ?_, ?_, hlinked, ?_⟩
            · rw [hinputs, List.length_set]
            · show (f c'.id c'.kind).inputs[target]? = some none
              rw [hinputs, List.getElem?_set_self hlt]
            · rw [← htarget]
              apply finish f hf
              rw [htarget]
              exact h.symm

/-- Wiring keeps the ends of the wires in agreement. -/
theorem Linked.connect (hb : b.Linked) {consumer producer : NodeId} {slot : Nat}
    (h : b.connect consumer slot producer = .ok (some b')) :
  b'.Linked
  := by
  obtain ⟨c, hc, p, hp, -, -, hne, hacc, f, hf, hlen, hfree, hlinked, rfl⟩ := connect_eq_ok h
  have hret : p.kind.isReturn = false := by
    cases hk : p.kind with
    | returnStatement =>
      rw [hk] at hacc
      cases hck : c.kind <;> simp [hck, Kind.accepts, Kind.isFunction, Kind.producesValue,
        Kind.isFanOut, Kind.isSingleOutput] at hacc
    | _ => rfl
  apply (hlinked hb).link (mem_mapKinds f hc) (mem_mapKinds f hp) _ hfree
  rw [Kind.isReturn_congr (hf.tag p.id p.kind), hret]


end Board

end Patchboard
