import Patchboard.Proofs.Board.Runs

/-!
# Editing a checked board

A board that passes the check may have slots that name ids which are not on the board. Wiring,
emptying slots, removing, moving and changing fields keep such a board passing the check. Placing a
node does so too, unless some slot names the id that the node gets: the slot dangled before, and now it
holds a node that does not record it. A function may be placed under such an id, since it records
nobody.
-/

namespace Patchboard.Board

variable {b : Board} {n : Node}

/-- A board passes the check exactly when the two ends of its wires agree. -/
theorem validate_eq_ok_iff_linked :
  b.validate = .ok () ↔ b.Linked
  := ⟨linked_of_validate, Linked.validate⟩

/-- On a linked board no slot names a node without wires, unless it is a function. -/
theorem Linked.not_mem_inputs_of_bare (hb : b.Linked) (hn : n ∈ b.nodes) (hbare : n.kind.Bare)
    (hfun : n.kind.isFunction = false) {m : Node} (hm : m ∈ b.nodes) :
  some n.id ∉ m.kind.inputs
  := by
  intro hin
  rcases hb.mem_consumers hm hn hin with h | h
  · rw [hfun] at h
    cases h
  · rw [hbare.2] at h
    cases h

/-- Placing a node without wires on a linked board leaves it linked exactly when the node is a function
or no slot names it. -/
theorem Linked.append_iff (hb : b.Linked) (hbare : n.kind.Bare) {nextId : UInt32}
    (hnew : n.id ∉ b.ids) :
  (b.append n nextId hnew).Linked
    ↔ (n.kind.isFunction = false → ∀ m ∈ b.nodes, some n.id ∉ m.kind.inputs)
  := by
  constructor
  · intro h hfun m hm
    apply h.not_mem_inputs_of_bare _ hbare hfun
    · apply mem_nodes_append.2 (.inl hm)
    · apply mem_nodes_append.2 (.inr rfl)
  · intro hheld
    apply hb.append hbare hnew hheld

/-- An edit that places a node appends it, without wires. -/
theorem apply_of_placed? {e : Edit} (h : b.placed? e = some n) :
  n.kind.Bare ∧ ∃ nextId hnew, b.apply e = b.append n nextId hnew
  := by
  cases e with
  | add kind built x y =>
    obtain ⟨id, hid, rfl⟩ := Option.map_eq_some_iff.1 h
    refine ⟨built.bare, saturatingNext id.val, not_mem_ids_of_freshId? hid, ?_⟩
    show ((b.add kind x y).map (·.2)).getD b = _
    rw [add]
    split
    · next hnone =>
      rw [hid] at hnone
      cases hnone
    · next hsome =>
      rw [hid] at hsome
      obtain rfl := Option.some.inj hsome
      rfl
  | insert m bare =>
    have h : (if b.contains m.id then none else some m) = some n := h
    split at h
    · cases h
    · next hnew =>
      obtain rfl := Option.some.inj h
      rw [contains_iff] at hnew
      refine ⟨bare, max b.nextId (saturatingNext m.id.val), hnew, ?_⟩
      show ((b.insert m).toOption).getD b = _
      rw [insert]
      split
      · next hsome =>
        obtain ⟨hmem, hid⟩ := get?_eq_some_iff.1 hsome
        apply (hnew (hid ▸ List.mem_map_of_mem hmem)).elim
      · rfl
  | _ => cases h

/-- An edit of a checked board leaves a board that passes the check, unless it places a node under an
id that some slot names already; only a function may be placed there. -/
theorem validate_apply_iff (hb : b.validate = .ok ()) (e : Edit) :
  (b.apply e).validate = .ok ()
    ↔ ∀ n, b.placed? e = some n → n.kind.isFunction = false →
        ∀ m ∈ b.nodes, some n.id ∉ m.kind.inputs
  := by
  rw [validate_eq_ok_iff_linked] at hb ⊢
  constructor
  · intro h n hplaced
    obtain ⟨hbare, nextId, hnew, heq⟩ := apply_of_placed? hplaced
    rw [heq] at h
    apply (hb.append_iff hbare hnew).1 h
  · intro h
    apply apply_induction hb e
    · intro n hplaced hbare nextId hnew
      apply (hb.append_iff hbare hnew).2 (h n hplaced)
    · intro consumer slot producer b' hc
      apply hb.connect hc
    · intro consumer slot former b' hd
      obtain ⟨-, -, -, -, -, -, -, -, hlinked⟩ := disconnect_eq_ok hd
      apply hlinked hb
    · intro b n hn hb
      apply hb.detach hn
    · intro b' hb'
      apply hb.of_leavesWires hb'

/-- A board with a return only. Its slot names the id that the next node gets. -/
def expectant : Board where
  nodes := [⟨⟨0⟩, .ofNat 0, .ofNat 0, .returnStatement "infer" false (some ⟨1⟩)⟩]
  nextId := 1
  distinct := by decide

/-- Placing a node of a kind at the centre. -/
def placing (tag : Tag) : Edit :=
  .add (Kind.fresh tag) (.fresh tag) (.ofNat 0) (.ofNat 0)

/-- The board passes the check, and still does when a function is placed on it. -/
theorem validate_apply_expectant :
  expectant.validate = .ok ()
    ∧ (expectant.apply (placing .functionDeclaration)).validate = .ok ()
  := by
  have hvalid : expectant.validate = .ok () := by decide
  use hvalid
  apply (validate_apply_iff hvalid _).2
  intro n hplaced hfun
  obtain rfl : (⟨⟨1⟩, .ofNat 0, .ofNat 0, Kind.fresh .functionDeclaration⟩ : Node) = n :=
    Option.some.inj ((by decide : expectant.placed? (placing .functionDeclaration)
      = some ⟨⟨1⟩, .ofNat 0, .ofNat 0, Kind.fresh .functionDeclaration⟩).symm.trans hplaced)
  cases hfun

/-- The board passes the check, but not when a number is placed on it. -/
theorem validate_apply_placing_number_ne :
  expectant.validate = .ok ()
    ∧ (expectant.apply (placing .numericLiteral)).validate ≠ .ok ()
  := by
  decide

end Patchboard.Board
