import Patchboard.Proofs.Board.Links

/-!
# What changes do to the wires

Every edit of wires is a change of payloads that keeps ids and kinds. Here is what each change does to
the slots and to the recorded consumers of a node, and how changes of a board follow each other.
-/

namespace Patchboard

namespace Kind

variable {k k' : Kind}

/-! ## Classes depend on the tag -/

/-- A class of kinds that a fresh payload shares with all payloads of its kind is decided by the
tag. -/
theorem class_congr {p : Kind → Bool} (hp : ∀ k, p (fresh k.tag) = p k) (h : k.tag = k'.tag) :
  p k = p k'
  := by
  rw [← hp k, h, hp k']

theorem isFunction_congr (h : k.tag = k'.tag) :
  k.isFunction = k'.isFunction
  := class_congr (fun k => by cases k <;> rfl) h

theorem isFanOut_congr (h : k.tag = k'.tag) :
  k.isFanOut = k'.isFanOut
  := class_congr (fun k => by cases k <;> rfl) h

theorem isSingleOutput_congr (h : k.tag = k'.tag) :
  k.isSingleOutput = k'.isSingleOutput
  := class_congr (fun k => by cases k <;> rfl) h

theorem isReturn_congr (h : k.tag = k'.tag) :
  k.isReturn = k'.isReturn
  := class_congr (fun k => by cases k <;> rfl) h

theorem isReference_congr (h : k.tag = k'.tag) :
  k.isReference = k'.isReference
  := class_congr (fun k => by cases k <;> rfl) h

theorem isCall_congr (h : k.tag = k'.tag) :
  k.isCall = k'.isCall
  := class_congr (fun k => by cases k <;> rfl) h

/-! ## Slots -/

/-- Writing a slot changes that slot. -/
@[simp]
theorem inputs_setInput (slot : Nat) (content : Slot) (k : Kind) :
  (k.setInput slot content).inputs = k.inputs.set slot content
  := by
  rw [setInput, inputs_mapInputs]
  apply List.ext_getElem?
  intro i
  rw [List.getElem?_mapIdx, List.getElem?_set]
  by_cases h : slot = i
  · subst h
    by_cases hlt : slot < k.inputs.length
    · simp [hlt]
    · simp [hlt]
  · have h' : ¬ i = slot := fun h' => h h'.symm
    simp [h, h']

/-- Emptying the slots of a producer leaves every other content. -/
@[simp]
theorem inputs_clearInputsFrom (producer : NodeId) (k : Kind) :
  (k.clearInputsFrom producer).inputs
    = k.inputs.map fun s => if s = some producer then none else s
  := by
  rw [clearInputsFrom, inputs_mapInputs]
  apply List.ext_getElem?
  intro i
  simp

/-- A call gains a slot at its end. -/
theorem inputs_pushInput (h : k.isCall = true) (producer : NodeId) :
  (k.pushInput producer).inputs = k.inputs ++ [some producer]
  := by
  cases k <;> first | rfl | cases h

/-- Gaining a slot leaves the consumers alone. -/
@[simp]
theorem outputs_pushInput (producer : NodeId) (k : Kind) :
  (k.pushInput producer).outputs = k.outputs
  := by
  cases k <;> rfl

@[simp]
theorem output_pushInput (producer : NodeId) (k : Kind) :
  (k.pushInput producer).output = k.output
  := by
  cases k <;> rfl

@[simp]
theorem tag_pushInput (producer : NodeId) (k : Kind) :
  (k.pushInput producer).tag = k.tag
  := by
  cases k <;> rfl

/-! ## Consumers -/

/-- A node that fans out records one consumer more. -/
theorem outputs_addConsumer (consumer : NodeId) (k : Kind) :
  (k.addConsumer consumer).outputs = if k.isFanOut then k.outputs ++ [consumer] else k.outputs
  := by
  rw [addConsumer, outputs_mapConsumers]
  split
  · rfl
  · next h => rw [outputs_of_not_isFanOut (by simpa using h)]

/-- A node with a single consumer names another one. -/
theorem output_addConsumer (consumer : NodeId) (k : Kind) :
  (k.addConsumer consumer).output = if k.isSingleOutput then some consumer else k.output
  := by
  rw [addConsumer, output_mapConsumers]
  split
  · rfl
  · next h => rw [output_of_not_isSingleOutput (by simpa using h)]

end Kind

/-! ## Contents of slots -/

variable {slots : List Slot} {id producer : NodeId}

/-- What is left when the slots of a producer are emptied. -/
theorem mem_clear_iff :
  some id ∈ (slots.map fun s => if s = some producer then none else s)
    ↔ some id ∈ slots ∧ id ≠ producer
  := by
  rw [List.mem_map]
  constructor
  · rintro ⟨s, hs, h⟩
    split at h
    · cases h
    · next hne =>
      subst h
      exact ⟨hs, fun heq => hne (congrArg some heq)⟩
  · rintro ⟨hmem, hne⟩
    use some id, hmem
    rw [if_neg]
    intro h
    apply hne (Option.some.inj h)

/-- The other producers feed as many slots as before when the slots of one are emptied. -/
theorem count_clear_of_ne (h : id ≠ producer) :
  (slots.map fun s => if s = some producer then none else s).count (some id)
    = slots.count (some id)
  := by
  rw [List.count_eq_countP, List.count_eq_countP, List.countP_map]
  apply List.countP_congr
  intro s _
  by_cases hs : s = some producer
  · simp [hs, h.symm]
  · simp [hs]

/-- A slot that holds a producer is an entry of the list of slots. -/
theorem getElem?_inputs_of_input {k : Kind} {slot : Nat} (h : k.input slot = some id) :
  k.inputs[slot]? = some (some id)
  := Option.join_eq_some_iff.1 h

/-- What the slots hold when one is emptied. -/
theorem join_set_none_eq {slot i : Nat} :
  ((slots.set slot none)[i]?).join = if i = slot then none else (slots[i]?).join
  := by
  rw [List.getElem?_set]
  by_cases h : i = slot
  · rw [if_pos h.symm, if_pos h]
    split <;> rfl
  · rw [if_neg (Ne.symm h), if_neg h]

/-- What is left in the slots when one is emptied. -/
theorem join_set_none {slot i : Nat} (h : ((slots.set slot none)[i]?).join = some id) :
  (slots[i]?).join = some id
  := by
  rw [join_set_none_eq] at h
  split at h
  · cases h
  · exact h

/-- Some slot holds an id when one is emptied exactly when another slot holds it. -/
theorem mem_set_none_iff {slot : Nat} :
  some id ∈ slots.set slot none ↔ ∃ i, i ≠ slot ∧ (slots[i]?).join = some id
  := by
  simp only [List.mem_iff_getElem?, ← Option.join_eq_some_iff, join_set_none_eq]
  constructor
  · rintro ⟨i, h⟩
    split at h
    · cases h
    · next hne => exact ⟨i, hne, h⟩
  · rintro ⟨i, hne, h⟩
    use i
    rw [if_neg hne, h]

/-- Emptying a slot that holds nothing changes nothing. -/
theorem set_none_of_join {slot : Nat} (h : (slots[slot]?).join = none) :
  slots.set slot none = slots
  := by
  by_cases hlt : slot < slots.length
  · rw [List.getElem?_eq_getElem hlt, Option.join_some] at h
    rw [← h, List.set_getElem_self]
  · apply List.set_eq_of_length_le (Nat.le_of_not_lt hlt)

/-- What the slots hold when those of a producer are emptied. -/
theorem join_clear_eq {i : Nat} :
  ((slots.map fun s => if s = some producer then none else s)[i]?).join
    = if (slots[i]?).join = some producer then none else (slots[i]?).join
  := by
  rw [List.getElem?_map]
  cases slots[i]? with
  | none => rfl
  | some s => rfl

/-- What is left in the slots when those of a producer are emptied. -/
theorem join_clear {i : Nat}
    (h : ((slots.map fun s => if s = some producer then none else s)[i]?).join = some id) :
  (slots[i]?).join = some id
  := by
  rw [join_clear_eq] at h
  split at h
  · cases h
  · exact h

/-- A slot that is emptied no longer counts. -/
theorem count_set_none {slot : Nat} (h : slots[slot]? = some (some producer)) (id : NodeId) :
  (slots.set slot none).count (some id)
    = slots.count (some id) - if id = producer then 1 else 0
  := by
  obtain ⟨hlt, hget⟩ := List.getElem?_eq_some_iff.1 h
  rw [List.count_set hlt, hget]
  by_cases hid : id = producer
  · simp [hid]
  · simp [hid, Ne.symm hid]

/-- A slot that was empty counts when it is filled. -/
theorem count_set_some {slot : Nat} (h : slots[slot]? = some none) (id : NodeId) :
  (slots.set slot (some producer)).count (some id)
    = slots.count (some id) + if id = producer then 1 else 0
  := by
  obtain ⟨hlt, hget⟩ := List.getElem?_eq_some_iff.1 h
  rw [List.count_set hlt, hget]
  by_cases hid : id = producer
  · simp [hid]
  · simp [hid, Ne.symm hid]

namespace Board

variable {b : Board} {n : Node}

/-- A change of payloads changes the payload of each node and nothing else. -/
theorem mem_nodes_mapKinds {f : NodeId → Kind → Kind} :
  n ∈ (b.mapKinds f).nodes ↔ ∃ m ∈ b.nodes, n = { m with kind := f m.id m.kind }
  := by
  rw [mapKinds, List.mem_map]
  constructor
  · rintro ⟨m, hm, rfl⟩
    exact ⟨m, hm, rfl⟩
  · rintro ⟨m, hm, rfl⟩
    exact ⟨m, hm, rfl⟩

/-- A node with its payload changed is on the changed board. -/
theorem mem_mapKinds (f : NodeId → Kind → Kind) (hn : n ∈ b.nodes) :
  { n with kind := f n.id n.kind } ∈ (b.mapKinds f).nodes
  := mem_nodes_mapKinds.2 ⟨n, hn, rfl⟩

/-- Two changes of payloads in a row are one. -/
theorem mapKinds_mapKinds (b : Board) (f g : NodeId → Kind → Kind) :
  (b.mapKinds f).mapKinds g = b.mapKinds fun id k => g id (f id k)
  := by
  simp [mapKinds, Function.comp_def]

/-- The change that leaves every payload as it is changes nothing. -/
theorem mapKinds_id (b : Board) :
  (b.mapKinds fun _ k => k) = b
  := by
  simp [mapKinds]

/-- Changes that do the same to every payload are the same. -/
theorem mapKinds_congr {f g : NodeId → Kind → Kind} (h : ∀ id k, f id k = g id k) :
  b.mapKinds f = b.mapKinds g
  := by
  congr
  funext id k
  apply h

/-- A change of payloads keeps kinds and adds nothing to the slots. -/
structure Shrinks (f : NodeId → Kind → Kind) : Prop where
  tag : ∀ id k, (f id k).tag = k.tag
  input : ∀ id k slot x, (f id k).input slot = some x → k.input slot = some x

/-- Changing nothing shrinks. -/
theorem shrinks_id :
  Shrinks fun _ k => k
  := ⟨fun _ _ => rfl, fun _ _ _ _ h => h⟩

end Board

end Patchboard
