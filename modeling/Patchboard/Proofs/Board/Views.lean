import Patchboard.Proofs.Board.Removal
import Patchboard.Proofs.Board.Slots

/-!
# Views of a board

A board is known by its layout, which is its nodes in order without their wires, and by three views of
its wires: the slots of a node, the entries of a node that fans out, and the recipient of a node with a
single consumer. The slots of all nodes together map each slot to the node that feeds it. What an edit
does to a board is said by what it does to the views.
-/

namespace Patchboard

namespace Kind

variable {k k' : Kind}

/-- The payload with other wires. Slots that the kind has not are left out. -/
def wiredAs (inputs : List Slot) (output : Slot) (outputs : List NodeId) (k : Kind) : Kind :=
  match (k.mapInputs fun i _ => inputs[i]?.join).mapConsumers (fun _ => outputs) fun _ => output with
  | callExpression _ output => callExpression inputs output
  | k => k

/-- The payload without its wires. A call is left without slots. -/
def unwired (k : Kind) : Kind :=
  k.wiredAs [] none []

/-- A payload is what it is without its wires, and its wires. -/
theorem wiredAs_unwired (k : Kind) :
  k.unwired.wiredAs k.inputs k.output k.outputs = k
  := by
  cases k <;> rfl

/-- Payloads that are the same without their wires, and have the same wires, are the same. -/
theorem ext_of_unwired (h : k'.unwired = k.unwired) (inputs : k'.inputs = k.inputs)
    (output : k'.output = k.output) (outputs : k'.outputs = k.outputs) :
  k' = k
  := by
  rw [← wiredAs_unwired k', ← wiredAs_unwired k, h, inputs, output, outputs]

/-- Changes of the wires leave the rest of a payload alone. -/
@[simp]
theorem unwired_mapInputs (f : Nat → Slot → Slot) (k : Kind) :
  (k.mapInputs f).unwired = k.unwired
  := by
  cases k <;> rfl

@[simp]
theorem unwired_mapConsumers (many : List NodeId → List NodeId) (one : Slot → Slot) (k : Kind) :
  (k.mapConsumers many one).unwired = k.unwired
  := by
  cases k <;> rfl

@[simp]
theorem unwired_pushInput (producer : NodeId) (k : Kind) :
  (k.pushInput producer).unwired = k.unwired
  := by
  cases k <;> rfl

end Kind

/-- The node without its wires. -/
def Node.unwired (n : Node) : Node :=
  { n with kind := n.kind.unwired }

namespace Board

variable {b : Board} {n p c : Node} {id : NodeId}

/-! ## Views -/

/-- What stands on the board, in order: the nodes without their wires. -/
def layout (b : Board) : List Node :=
  b.nodes.map Node.unwired

/-- What is read of the payload of a node, or what stands for it if the node is missing. -/
def view {α : Type} (missing : α) (read : Kind → α) (b : Board) (id : NodeId) : α :=
  ((b.get? id).map fun n => read n.kind).getD missing

/-- The slots of a node; no slots if the node is missing. -/
def slots (b : Board) (id : NodeId) : List Slot :=
  b.view [] Kind.inputs id

/-- The node that feeds a slot, if there is one. -/
def feeder (b : Board) (id : NodeId) (slot : Nat) : Slot :=
  (b.slots id)[slot]?.join

/-- The recorded consumers of a node that fans out, in order. -/
def entries (b : Board) (id : NodeId) : List NodeId :=
  b.view [] Kind.outputs id

/-- The recorded consumer of a node with a single one. -/
def recipient (b : Board) (id : NodeId) : Slot :=
  b.view none Kind.output id

/-- What is read of a node on the board. -/
theorem view_of_get? {α : Type} {missing : α} {read : Kind → α} (h : b.get? id = some n) :
  b.view missing read id = read n.kind
  := by
  rw [view, h, Option.map_some, Option.getD_some]

theorem slots_of_get? (h : b.get? id = some n) :
  b.slots id = n.kind.inputs
  := view_of_get? h

theorem feeder_of_get? (h : b.get? id = some n) (slot : Nat) :
  b.feeder id slot = n.kind.input slot
  := by
  rw [feeder, slots_of_get? h, Kind.input]

theorem entries_of_get? (h : b.get? id = some n) :
  b.entries id = n.kind.outputs
  := view_of_get? h

theorem recipient_of_get? (h : b.get? id = some n) :
  b.recipient id = n.kind.output
  := view_of_get? h

/-- Only a node with a single consumer names one. -/
theorem isSingleOutput_of_recipient {consumer : NodeId} (hp : b.get? id = some p)
    (h : b.recipient id = some consumer) :
  p.kind.isSingleOutput = true
  := by
  rw [recipient_of_get? hp] at h
  by_contra hnot
  rw [Kind.output_of_not_isSingleOutput (Bool.not_eq_true _ ▸ hnot)] at h
  cases h

/-- Only a node on the board is fed. -/
theorem exists_of_feeder {slot : Nat} {producer : NodeId} (h : b.feeder id slot = some producer) :
  ∃ c, b.get? id = some c ∧ c.kind.input slot = some producer
  := by
  cases hc : b.get? id with
  | none => simp [feeder, slots, view, hc] at h
  | some c =>
    rw [feeder_of_get? hc] at h
    exact ⟨c, rfl, h⟩

/-! ## Views of a changed board -/

variable {f : NodeId → Kind → Kind}

/-- Changes of the wires leave the layout alone. -/
theorem layout_mapKinds (h : ∀ id k, (f id k).unwired = k.unwired) :
  (b.mapKinds f).layout = b.layout
  := by
  rw [layout, layout, mapKinds, List.map_map]
  apply List.map_congr_left
  intro n _
  simp only [Function.comp_apply, Node.unwired, h]

/-- A node whose payload is not changed is found as it was. -/
theorem get?_mapKinds_of_eq (h : ∀ k, f id k = k) :
  (b.mapKinds f).get? id = b.get? id
  := by
  rw [get?_mapKinds]
  simp only [h, Option.map_id']

/-- A node whose payload is changed is found with the payload changed. -/
theorem get?_mapKinds_of_get? (h : b.get? id = some n) :
  (b.mapKinds f).get? id = some { n with kind := f id n.kind }
  := by
  rw [get?_mapKinds, h, Option.map_some]

/-- What is read of a node after a change that does the same to whatever is read. -/
theorem view_mapKinds {α : Type} {missing : α} {read : Kind → α} (g : α → α)
    (found : ∀ n, b.get? id = some n → read (f id n.kind) = g (read n.kind))
    (not_found : b.get? id = none → g missing = missing) :
  (b.mapKinds f).view missing read id = g (b.view missing read id)
  := by
  rw [view, view, get?_mapKinds]
  cases hn : b.get? id with
  | none => exact (not_found hn).symm
  | some n => exact found n hn

/-! ## Views of a linked board -/

/-- A node holds a producer when some slot of it is fed by the producer. -/
theorem mem_inputs_of_feeder {slot : Nat} {producer : NodeId} (hc : b.get? id = some c)
    (h : b.feeder id slot = some producer) :
  some producer ∈ c.kind.inputs
  := by
  rw [feeder_of_get? hc] at h
  apply (Kind.mem_inputs_iff _ _).2 ⟨slot, h⟩

/-- On a linked board a node that fans out has an entry for each node that it feeds. -/
theorem Linked.mem_entries (hb : b.Linked) {consumer producer : NodeId} {slot : Nat}
    (hp : b.get? producer = some p) (hfan : p.kind.isFanOut = true)
    (h : b.feeder consumer slot = some producer) :
  consumer ∈ b.entries producer
  := by
  obtain ⟨c, hc, -⟩ := exists_of_feeder h
  have hheld := mem_inputs_of_feeder hc h
  obtain ⟨hcmem, rfl⟩ := get?_eq_some_iff.1 hc
  obtain ⟨hpmem, rfl⟩ := get?_eq_some_iff.1 hp
  rw [entries_of_get? hp]
  apply List.count_pos_iff.1
  rw [← hb.fanOut c hcmem p hpmem hfan]
  apply List.count_pos_iff.2 hheld

/-- On a linked board a node with a single consumer names the node that it feeds. -/
theorem Linked.recipient_eq_iff (hb : b.Linked) {consumer producer : NodeId}
    (hp : b.get? producer = some p) (hsingle : p.kind.isSingleOutput = true) :
  b.recipient producer = some consumer ↔ ∃ slot, b.feeder consumer slot = some producer
  := by
  obtain ⟨hpmem, rfl⟩ := get?_eq_some_iff.1 hp
  rw [recipient_of_get? hp]
  constructor
  · intro h
    obtain ⟨c, hc, rfl⟩ := List.mem_map.1
      (hb.consumers p hpmem consumer ((Kind.mem_consumers_iff _ _).2 (.inl h)))
    obtain ⟨slot, hslot⟩ := (Kind.mem_inputs_iff _ _).1 ((hb.single c hc p hpmem hsingle).2 h)
    use slot
    rw [feeder_of_get? (get?_of_mem hc), hslot]
  · rintro ⟨slot, h⟩
    obtain ⟨c, hc, -⟩ := exists_of_feeder h
    have hheld := mem_inputs_of_feeder hc h
    obtain ⟨hcmem, rfl⟩ := get?_eq_some_iff.1 hc
    apply (hb.single c hcmem p hpmem hsingle).1 hheld

end Board

end Patchboard
