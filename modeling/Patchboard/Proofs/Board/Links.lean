import Mathlib.Data.List.Basic
import Patchboard.Board.Edit
import Patchboard.Proofs.Board.Nodes

/-!
# The link relation

A board is linked when the slots and the recorded consumers tell the same story: a node that fans
out records one consumer for each slot that holds it, a node with a single consumer names the one
node with slots for it, and returns feed nothing. The check of a board goes through the slots and
through the consumers one by one; together they decide this relation.
-/

namespace Patchboard

/-- A slot of a node holds an id exactly when the id is among its inputs. -/
theorem Kind.mem_inputs_iff (k : Kind) (id : NodeId) :
  some id ∈ k.inputs ↔ ∃ slot, k.input slot = some id
  := by
  simp only [Kind.input, List.mem_iff_getElem?, Option.join_eq_some_iff]

/-- The node names a function. -/
def Kind.isReference : Kind → Bool
  | functionReference .. => true
  | _ => false

/-- The node is a call. -/
def Kind.isCall : Kind → Bool
  | callExpression .. => true
  | _ => false

/-- Every kind is of one of the four shapes of output. -/
theorem Kind.shape (k : Kind) :
  (k.isFanOut = true ∧ k.isSingleOutput = false ∧ k.isFunction = false ∧ k.isReturn = false) ∨
  (k.isFanOut = false ∧ k.isSingleOutput = true ∧ k.isFunction = false ∧ k.isReturn = false) ∨
  (k.isFanOut = false ∧ k.isSingleOutput = false ∧ k.isFunction = true ∧ k.isReturn = false) ∨
  (k.isFanOut = false ∧ k.isSingleOutput = false ∧ k.isFunction = false ∧ k.isReturn = true)
  := by
  cases k <;> simp [isFanOut, isSingleOutput, isFunction, isReturn]

/-- Only a node that fans out has a list of consumers. -/
theorem Kind.outputs_of_not_isFanOut {k : Kind} (h : k.isFanOut = false) :
  k.outputs = []
  := by
  cases k <;> first | rfl | cases h

/-- Only a node with a single consumer names one. -/
theorem Kind.output_of_not_isSingleOutput {k : Kind} (h : k.isSingleOutput = false) :
  k.output = none
  := by
  cases k <;> first | rfl | cases h

/-- A function has no slots. -/
theorem Kind.inputs_of_isFunction {k : Kind} (h : k.isFunction = true) :
  k.inputs = []
  := by
  cases k <;> first | rfl | cases h

/-- The recorded consumers of a node. -/
theorem Kind.mem_consumers_iff (k : Kind) (id : NodeId) :
  id ∈ k.consumers ↔ k.output = some id ∨ id ∈ k.outputs
  := by
  rw [consumers, List.mem_append, Option.mem_toList]

namespace Board

variable {b : Board} {n p : Node}

/-- The two ends of the wires agree. -/
structure Linked (b : Board) : Prop where
  /-- A node that fans out has an entry for each slot that it feeds. -/
  fanOut : ∀ n ∈ b.nodes, ∀ p ∈ b.nodes, p.kind.isFanOut = true →
    n.kind.inputs.count (some p.id) = p.kind.outputs.count n.id
  /-- A node with a single consumer names the node whose slots it feeds. -/
  single : ∀ n ∈ b.nodes, ∀ p ∈ b.nodes, p.kind.isSingleOutput = true →
    (some p.id ∈ n.kind.inputs ↔ p.kind.output = some n.id)
  /-- A return feeds nothing. -/
  ret : ∀ n ∈ b.nodes, ∀ p ∈ b.nodes, p.kind.isReturn = true → some p.id ∉ n.kind.inputs
  /-- The recorded consumers are on the board. -/
  consumers : ∀ p ∈ b.nodes, ∀ id ∈ p.kind.consumers, id ∈ b.ids

/-- Where the slots of a node show no fault. -/
theorem slotFaults_eq_nil_iff (b : Board) (n : Node) :
  b.slotFaults n = [] ↔ ∀ p ∈ b.nodes, some p.id ∈ n.kind.inputs → p.recordsWiresTo n = true
  := by
  simp only [slotFaults, List.filterMap_eq_nil_iff, Prod.forall, List.mk_mem_zipIdx_iff_getElem?]
  constructor
  · intro h p hp hin
    obtain ⟨slot, hslot⟩ := List.mem_iff_getElem?.1 hin
    have := h (some p.id) slot hslot
    rw [Option.bind_some, get?_of_mem hp] at this
    simpa using this
  · intro h content slot hslot
    split
    · rfl
    · next p hp =>
      obtain ⟨id, rfl, hid⟩ := Option.bind_eq_some_iff.1 hp
      obtain ⟨hmem, rfl⟩ := get?_eq_some_iff.1 hid
      rw [if_pos (h p hmem (List.mem_of_getElem? hslot))]

/-- Where the recorded consumers of a node show no fault. -/
theorem consumerFaults_eq_nil_iff (b : Board) (p : Node) :
  b.consumerFaults p = []
    ↔ ∀ id ∈ p.kind.consumers, ∃ n ∈ b.nodes, n.id = id ∧ some p.id ∈ n.kind.inputs
  := by
  simp only [consumerFaults, List.map_eq_nil_iff, List.filter_eq_nil_iff, Bool.not_eq_true',
    Bool.not_eq_false]
  constructor
  · intro h id hid
    have hback := h id hid
    rw [pointsBack] at hback
    split at hback
    · cases hback
    · next n hn =>
      obtain ⟨hn, hid⟩ := get?_eq_some_iff.1 hn
      exact ⟨n, hn, hid, List.contains_iff_mem.1 hback⟩
  · intro h id hid
    obtain ⟨n, hn, rfl, hin⟩ := h id hid
    rw [pointsBack]
    rw [get?_of_mem hn]
    apply List.contains_iff_mem.2 hin

/-- A board without faults shows none at any node. -/
theorem validate_eq_ok_iff (b : Board) :
  b.validate = .ok () ↔ ∀ n ∈ b.nodes, b.slotFaults n = [] ∧ b.consumerFaults n = []
  := by
  have hnone : b.validate = .ok () ↔ b.linkFaults = [] := by
    rw [validate, linkFault?]
    cases b.linkFaults <;> simp
  rw [hnone, linkFaults, List.flatMap_eq_nil_iff]
  simp only [List.append_eq_nil_iff]

/-- A board that passes the check is linked. -/
theorem linked_of_validate (h : b.validate = .ok ()) :
  b.Linked
  := by
  have hfaults := (validate_eq_ok_iff b).1 h
  have hslots : ∀ n ∈ b.nodes, ∀ p ∈ b.nodes, some p.id ∈ n.kind.inputs →
      p.recordsWiresTo n = true :=
    fun n hn => (slotFaults_eq_nil_iff b n).1 (hfaults n hn).1
  have hback : ∀ n ∈ b.nodes, ∀ p ∈ b.nodes, n.id ∈ p.kind.consumers →
      some p.id ∈ n.kind.inputs := by
    intro n hn p hp hid
    obtain ⟨n', hn', hsame, hin⟩ := (consumerFaults_eq_nil_iff b p).1 (hfaults p hp).2 n.id hid
    rw [eq_of_id_eq hn hn' hsame.symm]
    apply hin
  constructor
  · intro n hn p hp hfan
    by_cases hin : some p.id ∈ n.kind.inputs
    · have := hslots n hn p hp hin
      simpa [Node.recordsWiresTo, hfan] using this
    · rw [List.count_eq_zero_of_not_mem hin, List.count_eq_zero_of_not_mem]
      intro hout
      apply hin
      apply hback n hn p hp ((p.kind.mem_consumers_iff n.id).2 (.inr hout))
  · intro n hn p hp hsingle
    have hshape : p.kind.isFanOut = false := by
      have := p.kind.shape
      simp_all
    constructor
    · intro hin
      have := hslots n hn p hp hin
      simpa [Node.recordsWiresTo, hsingle, hshape] using this
    · intro hout
      apply hback n hn p hp ((p.kind.mem_consumers_iff n.id).2 (.inl hout))
  · intro n hn p hp hret hin
    have hrecords := hslots n hn p hp hin
    have hshape : p.kind.isFanOut = false ∧ p.kind.isSingleOutput = false ∧
        p.kind.isFunction = false := by
      have := p.kind.shape
      simp_all
    simp [Node.recordsWiresTo, hshape] at hrecords
  · intro p hp id hid
    obtain ⟨n, hn, rfl, -⟩ := (consumerFaults_eq_nil_iff b p).1 (hfaults p hp).2 id hid
    apply List.mem_map_of_mem hn

/-- On a linked board a recorded consumer has a slot for the node. -/
theorem Linked.mem_inputs (h : b.Linked) (hn : n ∈ b.nodes) (hp : p ∈ b.nodes)
    (hid : n.id ∈ p.kind.consumers) :
  some p.id ∈ n.kind.inputs
  := by
  rw [Kind.mem_consumers_iff] at hid
  rcases p.kind.shape with ⟨hfan, hsingle, -⟩ | ⟨hfan, hsingle, -⟩ | ⟨hfan, hsingle, -⟩ |
    ⟨hfan, hsingle, -⟩
  · rw [Kind.output_of_not_isSingleOutput hsingle] at hid
    have hout : n.id ∈ p.kind.outputs := by simpa using hid
    apply List.count_pos_iff.1
    rw [h.fanOut n hn p hp hfan]
    apply List.count_pos_iff.2 hout
  · rw [Kind.outputs_of_not_isFanOut hfan] at hid
    have hout : p.kind.output = some n.id := by simpa using hid
    apply (h.single n hn p hp hsingle).2 hout
  all_goals
    simp [Kind.outputs_of_not_isFanOut hfan, Kind.output_of_not_isSingleOutput hsingle] at hid

/-- On a linked board a node records every node that has a slot for it, unless it is a function. -/
theorem Linked.mem_consumers (h : b.Linked) (hn : n ∈ b.nodes) (hp : p ∈ b.nodes)
    (hin : some p.id ∈ n.kind.inputs) :
  p.kind.isFunction = true ∨ n.id ∈ p.kind.consumers
  := by
  rw [Kind.mem_consumers_iff]
  rcases p.kind.shape with ⟨hfan, -⟩ | ⟨-, hsingle, -⟩ | ⟨-, -, hfun, -⟩ | ⟨-, -, -, hret⟩
  · right
    right
    apply List.count_pos_iff.1
    rw [← h.fanOut n hn p hp hfan]
    apply List.count_pos_iff.2 hin
  · right
    left
    apply (h.single n hn p hp hsingle).1 hin
  · left
    exact hfun
  · apply (h.ret n hn p hp hret hin).elim

/-- A linked board passes the check. -/
theorem Linked.validate (h : b.Linked) :
  b.validate = .ok ()
  := by
  apply (validate_eq_ok_iff b).2
  intro n hn
  constructor
  · apply (slotFaults_eq_nil_iff b n).2
    intro p hp hin
    rw [Node.recordsWiresTo]
    rcases p.kind.shape with ⟨hfan, -⟩ | ⟨hfan, hsingle, -⟩ | ⟨hfan, hsingle, hfun, -⟩ | ⟨-, -, -, hret⟩
    · simp [hfan, h.fanOut n hn p hp hfan]
    · simp [hfan, hsingle, (h.single n hn p hp hsingle).1 hin]
    · simp [hfan, hsingle, hfun]
    · apply (h.ret n hn p hp hret hin).elim
  · apply (consumerFaults_eq_nil_iff b n).2
    intro id hid
    obtain ⟨c, hc, rfl⟩ := List.mem_map.1 (h.consumers n hn id hid)
    exact ⟨c, hc, rfl, h.mem_inputs hc hn hid⟩

/-- The check decides whether the ends of the wires agree, for any two nodes of the board, which may be
the same: by number for a node that fans out, by the node that is named for one with a single consumer;
no slot holds a return, and every recorded consumer is there. Slots that hold a function, or name no node
of the board, may be as they are. -/
theorem validate_eq_ok_iff_agree (b : Board) :
  b.validate = .ok () ↔
    (∀ n ∈ b.nodes, ∀ p ∈ b.nodes,
      (p.kind.isFanOut = true → n.kind.inputs.count (some p.id) = p.kind.outputs.count n.id) ∧
      (p.kind.isSingleOutput = true →
        ((∃ slot, n.kind.input slot = some p.id) ↔ p.kind.output = some n.id)) ∧
      (p.kind.isReturn = true → ∀ slot, n.kind.input slot ≠ some p.id)) ∧
    ∀ p ∈ b.nodes, ∀ id ∈ p.kind.consumers, b.contains id = true
  := by
  constructor
  · intro h
    have hlinked := linked_of_validate h
    constructor
    · intro n hn p hp
      refine ⟨hlinked.fanOut n hn p hp, ?_, ?_⟩
      · intro hsingle
        rw [← Kind.mem_inputs_iff]
        apply hlinked.single n hn p hp hsingle
      · intro hret slot hslot
        apply hlinked.ret n hn p hp hret
        apply (Kind.mem_inputs_iff _ _).2 ⟨slot, hslot⟩
    · intro p hp id hid
      apply (contains_iff b id).2
      apply hlinked.consumers p hp id hid
  · rintro ⟨hagree, hconsumers⟩
    apply Linked.validate
    constructor
    · intro n hn p hp
      apply (hagree n hn p hp).1
    · intro n hn p hp hsingle
      rw [Kind.mem_inputs_iff]
      apply (hagree n hn p hp).2.1 hsingle
    · intro n hn p hp hret hin
      obtain ⟨slot, hslot⟩ := (Kind.mem_inputs_iff _ _).1 hin
      apply (hagree n hn p hp).2.2 hret slot hslot
    · intro p hp id hid
      apply (contains_iff b id).1
      apply hconsumers p hp id hid

end Board

end Patchboard
