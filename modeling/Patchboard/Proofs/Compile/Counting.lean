import Mathlib.Data.List.Perm.Basic
import Patchboard.Proofs.Compile.Expression

/-!
# Counting uses

While a function is written, the count of a binding that is still to be declared is the number of
live wires from it that have not been consumed. A wire is known by the slot it leads to, so that a
slot which is written again changes nothing.
-/

namespace Patchboard

/-- Slots of nodes are compared by equality. -/
instance : LawfulBEq (NodeId × Nat) :=
  inferInstance

namespace Uses

/-- The bindings still to be declared have as their counts the numbers of their wires, among these,
that have not been consumed. -/
def Counts (u : Uses) (ws : List Wire) : Prop :=
  ∀ id count, (id, count) ∈ u.outstanding →
    count = ws.countP fun w => w.producer = id ∧ (w.consumer, w.slot) ∉ u.consumed

variable {u u' : Uses} {ws : List Wire}

/-- Writing a use leaves the same bindings to be declared. -/
@[simp]
theorem undeclared_consume (u : Uses) (c : NodeId) (slot : Nat) (id : NodeId) :
  (u.consume c slot id).undeclared = u.undeclared
  := by
  unfold consume undeclared
  split
  · rfl
  · simp [List.map_map, Function.comp_def]

/-- The slots that are consumed when one use has been written. -/
theorem mem_consumed_consume (u : Uses) (c : NodeId) (slot : Nat) (id : NodeId)
    (s : NodeId × Nat) :
  s ∈ (u.consume c slot id).consumed ↔ s = (c, slot) ∨ s ∈ u.consumed
  := by
  rw [consume]
  split
  · next h =>
    constructor
    · exact .inr
    · rintro (rfl | hs)
      · exact h
      · exact hs
  · rw [List.mem_cons]

/-- Writing a use of one of the wires keeps the counts right. -/
theorem Counts.consume (h : u.Counts ws) (hnodup : ws.Nodup)
    (hslots : ∀ w ∈ ws, ∀ w' ∈ ws, w.consumer = w'.consumer → w.slot = w'.slot → w = w')
    {w : Wire} (hw : w ∈ ws) :
  (u.consume w.consumer w.slot w.producer).Counts ws
  := by
  rw [Uses.consume]
  split
  · exact h
  · next hnew =>
    intro id count hmem
    obtain ⟨⟨id', k⟩, hk, heq⟩ := List.mem_map.1 hmem
    obtain ⟨rfl, rfl⟩ := Prod.mk.inj heq
    -- The wire is one of the list, and at any other one the two conditions agree.
    have hperm := List.perm_cons_erase hw
    have hrest : ∀ x ∈ ws.erase w,
        (x.consumer, x.slot) ∈ (w.consumer, w.slot) :: u.consumed
          ↔ (x.consumer, x.slot) ∈ u.consumed := by
      intro x hx
      rw [hnodup.mem_erase_iff] at hx
      rw [List.mem_cons, Prod.mk.injEq]
      constructor
      · rintro (⟨hc, hs⟩ | hx')
        · apply (hx.1 (hslots x hx.2 w hw hc hs)).elim
        · exact hx'
      · exact .inr
    have hcount := h id' k hk
    rw [hperm.countP_eq, List.countP_cons] at hcount ⊢
    have hsame : (ws.erase w).countP (fun x => decide (x.producer = id' ∧
          (x.consumer, x.slot) ∉ (w.consumer, w.slot) :: u.consumed))
        = (ws.erase w).countP (fun x => decide (x.producer = id' ∧
          (x.consumer, x.slot) ∉ u.consumed)) := by
      apply List.countP_congr
      intro x hx
      rw [decide_eq_true_eq, decide_eq_true_eq, hrest x hx]
    rw [hsame]
    by_cases hid : id' = w.producer
    · subst hid
      simp [hnew] at hcount
      simp [hcount]
    · have hid' : w.producer ≠ id' := fun h => hid h.symm
      simp [hid'] at hcount
      simp [hid, hid', hcount]

theorem consumeAll_cons (u : Uses) (w : Wire) (ws : List Wire) :
  u.consumeAll (w :: ws) = (u.consume w.consumer w.slot w.producer).consumeAll ws
  := rfl

/-- Writing uses leaves the same bindings to be declared. -/
theorem Spends.undeclared {used : Wire → Prop} (h : u.Spends used u') :
  u'.undeclared = u.undeclared
  := by
  obtain ⟨vs, -, rfl⟩ := h
  induction vs generalizing u with
  | nil => rfl
  | cons v vs ih => rw [consumeAll_cons, ih, undeclared_consume]

/-- Writing uses consumes the slots that they lead to. -/
theorem Spends.mem_consumed_iff {used : Wire → Prop} (h : u.Spends used u') (s : NodeId × Nat) :
  s ∈ u'.consumed ↔ s ∈ u.consumed ∨ ∃ w, used w ∧ s = (w.consumer, w.slot)
  := by
  obtain ⟨vs, hvs, rfl⟩ := h
  simp only [← hvs]
  clear hvs
  induction vs generalizing u with
  | nil => simp
  | cons v vs ih =>
    rw [consumeAll_cons, ih, mem_consumed_consume]
    simp only [List.mem_cons, exists_eq_or_imp]
    tauto

/-- Writing uses of some of the wires keeps the counts right. -/
theorem Spends.counts {used : Wire → Prop} (hspends : u.Spends used u') (h : u.Counts ws)
    (hnodup : ws.Nodup)
    (hslots : ∀ w ∈ ws, ∀ w' ∈ ws, w.consumer = w'.consumer → w.slot = w'.slot → w = w')
    (hused : ∀ w, used w → w ∈ ws) :
  u'.Counts ws
  := by
  obtain ⟨vs, hvs, rfl⟩ := hspends
  have hmem : ∀ v ∈ vs, v ∈ ws := fun v hv => hused v ((hvs v).1 hv)
  clear hvs
  induction vs generalizing u with
  | nil => exact h
  | cons v vs ih =>
    obtain ⟨hv, hmem⟩ := List.forall_mem_cons.1 hmem
    rw [consumeAll_cons]
    apply ih (h.consume hnodup hslots hv) hmem

/-- When a binding has been declared, it is no longer to be declared. -/
theorem undeclared_declare (u : Uses) (binding : NodeId) :
  (u.declare binding).undeclared = u.undeclared.filter fun id => id ≠ binding
  := by
  simp only [undeclared, declare, List.filter_map, Function.comp_def]

theorem mem_undeclared_declare (u : Uses) (binding id : NodeId) :
  id ∈ (u.declare binding).undeclared ↔ id ∈ u.undeclared ∧ id ≠ binding
  := by
  rw [undeclared_declare, List.mem_filter, decide_eq_true_eq]

/-- What is not to be declared changes nothing when it is declared. -/
theorem declare_of_not_mem {binding : NodeId} (h : binding ∉ u.undeclared) :
  u.declare binding = u
  := by
  have hall : ∀ x ∈ u.outstanding, x.1 ≠ binding := by
    rintro x hx rfl
    apply h (List.mem_map_of_mem hx)
  have houtstanding : (u.outstanding.filter fun x => x.1 ≠ binding) = u.outstanding := by
    apply List.filter_eq_self.2
    intro x hx
    rw [decide_eq_true_eq]
    apply hall x hx
  rw [declare]
  rw [houtstanding]

/-- One binding less is to be declared when one has been declared. -/
theorem length_undeclared_declare (h : u.undeclared.Nodup) {binding : NodeId}
    (hmem : binding ∈ u.undeclared) :
  (u.declare binding).undeclared.length + 1 = u.undeclared.length
  := by
  have herase : (u.declare binding).undeclared = u.undeclared.erase binding := by
    rw [undeclared_declare, h.erase_eq_filter]
    apply List.filter_congr
    intro id _
    rw [bne, decide_not, beq_eq_decide]
  rw [herase, List.length_erase_of_mem hmem]
  apply Nat.sub_add_cancel (List.length_pos_of_mem hmem)

theorem Counts.declare (h : u.Counts ws) (binding : NodeId) :
  (u.declare binding).Counts ws
  := by
  intro id count hmem
  apply h id count (List.mem_filter.1 hmem).1

theorem nodup_undeclared_declare (h : u.undeclared.Nodup) (binding : NodeId) :
  (u.declare binding).undeclared.Nodup
  := by
  rw [undeclared_declare]
  apply h.filter

/-- A binding that is ready has a count, which is zero. -/
theorem mem_outstanding_of_ready? {id : NodeId} (hid : u.ready? = some id) :
  (id, 0) ∈ u.outstanding
  := by
  obtain ⟨⟨id', k⟩, hfind, rfl⟩ := Option.map_eq_some_iff.1 hid
  have hzero : k = 0 := by simpa using List.find?_some hfind
  rw [← hzero]
  exact List.mem_of_find?_eq_some hfind

/-- A binding that is ready is still to be declared. -/
theorem mem_undeclared_of_ready? {id : NodeId} (hid : u.ready? = some id) :
  id ∈ u.undeclared
  := List.mem_map_of_mem (mem_outstanding_of_ready? hid)

/-- A binding is ready exactly when it is still to be declared and all its wires are consumed. -/
theorem Counts.ready?_eq_some (h : u.Counts ws) {id : NodeId} (hid : u.ready? = some id) :
  id ∈ u.undeclared ∧ ∀ w ∈ ws, w.producer = id → (w.consumer, w.slot) ∈ u.consumed
  := by
  use mem_undeclared_of_ready? hid
  intro w hw hproducer
  have hcount := h id 0 (mem_outstanding_of_ready? hid)
  rw [eq_comm, List.countP_eq_zero] at hcount
  have := hcount w hw
  simpa [hproducer] using this

/-- No binding is ready only when each one still to be declared has a wire that is not consumed. -/
theorem Counts.ready?_eq_none (h : u.Counts ws) (hid : u.ready? = none) :
  ∀ id ∈ u.undeclared, ∃ w ∈ ws, w.producer = id ∧ (w.consumer, w.slot) ∉ u.consumed
  := by
  intro id hmem
  obtain ⟨⟨id', k⟩, hk, rfl⟩ := List.mem_map.1 hmem
  have hpos : k ≠ 0 := by
    have := List.find?_eq_none.1 (Option.map_eq_none_iff.1 hid) (id', k) hk
    simpa using this
  rw [h id' k hk] at hpos
  obtain ⟨w, hw, hprop⟩ := List.countP_pos_iff.1 (Nat.pos_of_ne_zero hpos)
  rw [decide_eq_true_eq] at hprop
  exact ⟨w, hw, hprop⟩

end Uses

end Patchboard
