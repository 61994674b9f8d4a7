import Patchboard.Proofs.Board.Removal

/-!
# What may be wired to what

No slot names a missing node, or the node itself; functions are wired to references and to the first
slots of calls only, and references to functions only. These properties stay when slots are emptied,
and a wire that is written respects them because the kinds of its ends fit.
-/

namespace Patchboard

namespace Board

variable {b b' : Board} {n p m : Node}

/-- Every slot names a node of the board. -/
def Anchored (b : Board) : Prop :=
  ∀ n ∈ b.nodes, ∀ slot id, n.kind.input slot = some id → id ∈ b.ids

/-- The kinds of the ends of every wire fit. -/
structure Placed (b : Board) : Prop where
  /-- A function is held by a reference or in the first slot of a call. -/
  functions : ∀ n ∈ b.nodes, ∀ p ∈ b.nodes, p.kind.isFunction = true →
    ∀ slot, n.kind.input slot = some p.id →
      slot = 0 ∧ (n.kind.isReference = true ∨ n.kind.isCall = true)
  /-- A reference holds nothing else. -/
  references : ∀ n ∈ b.nodes, n.kind.isReference = true → ∀ p ∈ b.nodes,
    ∀ slot, n.kind.input slot = some p.id → p.kind.isFunction = true
  /-- No node holds itself. -/
  irreflexive : ∀ n ∈ b.nodes, ∀ slot, n.kind.input slot ≠ some n.id

/-! ## Emptying slots -/

/-- Emptying slots leaves no new way to miss a node. -/
theorem Anchored.mapKinds (h : b.Anchored) {f : NodeId → Kind → Kind} (hf : Shrinks f) :
  (b.mapKinds f).Anchored
  := by
  intro n' hn' slot id hid
  obtain ⟨n, hn, rfl⟩ := mem_nodes_mapKinds.1 hn'
  rw [ids_mapKinds]
  apply h n hn slot id
  apply hf.input n.id n.kind slot id hid

/-- Emptying slots keeps the kinds of the ends of wires fitting. -/
theorem Placed.mapKinds (h : b.Placed) {f : NodeId → Kind → Kind} (hf : Shrinks f) :
  (b.mapKinds f).Placed
  := by
  constructor
  · intro n' hn' p' hp' hfun slot hslot
    obtain ⟨n, hn, rfl⟩ := mem_nodes_mapKinds.1 hn'
    obtain ⟨p, hp, rfl⟩ := mem_nodes_mapKinds.1 hp'
    rw [Kind.isFunction_congr (hf.tag p.id p.kind)] at hfun
    rw [Kind.isReference_congr (hf.tag n.id n.kind), Kind.isCall_congr (hf.tag n.id n.kind)]
    apply h.functions n hn p hp hfun slot
    apply hf.input n.id n.kind slot p.id hslot
  · intro n' hn' href p' hp' slot hslot
    obtain ⟨n, hn, rfl⟩ := mem_nodes_mapKinds.1 hn'
    obtain ⟨p, hp, rfl⟩ := mem_nodes_mapKinds.1 hp'
    rw [Kind.isReference_congr (hf.tag n.id n.kind)] at href
    rw [Kind.isFunction_congr (hf.tag p.id p.kind)]
    apply h.references n hn href p hp slot
    apply hf.input n.id n.kind slot p.id hslot
  · intro n' hn' slot hslot
    obtain ⟨n, hn, rfl⟩ := mem_nodes_mapKinds.1 hn'
    apply h.irreflexive n hn slot
    apply hf.input n.id n.kind slot n.id hslot

/-- Taking away a node leaves no slot that names it. -/
theorem Anchored.detach (h : b.Anchored) (hb : b.Linked) (hn : n ∈ b.nodes) :
  (b.detach n).Anchored
  := by
  rw [detach_eq]
  intro m' hm' slot id hid
  obtain ⟨m, hm, rfl⟩ := mem_nodes_mapKinds.1 hm'
  obtain ⟨hm, -⟩ := mem_nodes_erase.1 hm
  rw [ids_mapKinds, mem_ids_erase]
  use h m hm slot id ((shrinks_cut n).input m.id m.kind slot id hid)
  rintro rfl
  apply not_mem_inputs_cut hb hn hm ((Kind.mem_inputs_iff _ _).2 ⟨slot, hid⟩)

/-- Taking away a node keeps the kinds of the ends of the other wires fitting. -/
theorem Placed.detach (h : b.Placed) :
  (b.detach n).Placed
  := by
  have herase : (b.erase n.id).Placed := by
    constructor
    · intro m hm p hp
      apply h.functions m (mem_nodes_erase.1 hm).1 p (mem_nodes_erase.1 hp).1
    · intro m hm href p hp
      apply h.references m (mem_nodes_erase.1 hm).1 href p (mem_nodes_erase.1 hp).1
    · intro m hm
      apply h.irreflexive m (mem_nodes_erase.1 hm).1
  rw [detach_eq]
  apply herase.mapKinds (shrinks_cut n)

/-! ## Writing wires -/

/-- What a slot holds after a wire has been written: what it held before, or the wire. -/
theorem input_link {c : Node} {target : Option Nat} {previous : Slot}
    (hfree : Free c.kind target) (hsame : n.id = c.id → n = c) {slot : Nat} {id : NodeId}
    (h : (link c.id target p.id previous n.id n.kind).input slot = some id) :
  n.kind.input slot = some id ∨
    n = c ∧ id = p.id ∧ (target = some slot ∨ target = none ∧ slot = c.kind.inputs.length)
  := by
  rw [Kind.input] at h
  by_cases hnc : n.id = c.id
  · obtain rfl := hsame hnc
    rw [inputs_link_consumer hfree] at h
    cases target with
    | some slot' =>
      rw [written, List.getElem?_set] at h
      split at h
      · next heq =>
        subst heq
        split at h
        · exact .inr ⟨rfl, (Option.some.inj h).symm, .inl rfl⟩
        · cases h
      · exact .inl h
    | none =>
      rw [written, List.getElem?_append] at h
      split at h
      · exact .inl h
      · next hlt =>
        have hslot : slot = n.kind.inputs.length := by
          by_contra hne
          have : slot - n.kind.inputs.length ≠ 0 := by omega
          rw [List.getElem?_cons, if_neg this] at h
          cases h
        rw [hslot, Nat.sub_self] at h
        exact .inr ⟨rfl, (Option.some.inj h).symm, .inr ⟨rfl, hslot⟩⟩
  · rw [inputs_link_of_ne hnc] at h
    split at h
    · exact .inl (join_clear h)
    · exact .inl h

/-- A wire is written to a node of the board. -/
theorem Anchored.link (h : b.Anchored) {c : Node} (hc : c ∈ b.nodes) (hp : p ∈ b.nodes)
    {target : Option Nat} {previous : Slot} (hfree : Free c.kind target) :
  (b.mapKinds (link c.id target p.id previous)).Anchored
  := by
  intro n' hn' slot id hid
  obtain ⟨n, hn, rfl⟩ := mem_nodes_mapKinds.1 hn'
  rw [ids_mapKinds]
  rcases input_link hfree (eq_of_id_eq hn hc) hid with hold | ⟨-, rfl, -⟩
  · apply h n hn slot id hold
  · apply List.mem_map_of_mem hp

/-- Where a function is written, if its consumer accepts it. -/
theorem accepts_function {k k' : Kind} {slot slot' : Nat} (h : k.accepts slot k' = true)
    (hfun : k'.isFunction = true)
    (htarget : targetSlot k slot = some slot' ∨
      targetSlot k slot = none ∧ slot' = k.inputs.length) :
  slot' = 0 ∧ (k.isReference = true ∨ k.isCall = true)
  := by
  have hvalue : k'.producesValue = false := by
    cases k' <;> first | rfl | cases hfun
  cases k with
  | functionReference function output =>
    simp only [Kind.accepts, Bool.and_eq_true, beq_iff_eq] at h
    refine ⟨?_, .inl rfl⟩
    rcases htarget with htarget | ⟨htarget, -⟩
    · rw [← Option.some.inj htarget, h.1]
    · cases htarget
  | callExpression inputs output =>
    simp only [Kind.accepts, hfun, if_true, Bool.and_eq_true, beq_iff_eq,
      Option.isNone_iff_eq_none] at h
    obtain ⟨rfl, hempty⟩ := h
    refine ⟨?_, .inr rfl⟩
    simp only [targetSlot] at htarget
    rcases htarget with htarget | ⟨htarget, rfl⟩
    · split at htarget
      · apply (Option.some.inj htarget).symm
      · cases htarget
    · -- The call has no first slot, or else it would be filled.
      split at htarget
      · cases htarget
      · next hnone =>
        cases inputs with
        | nil => rfl
        | cons s rest =>
          obtain rfl : s = none := hempty
          apply (hnone rfl).elim
  | _ => simp [Kind.accepts, hvalue] at h

/-- A wire that is accepted keeps the kinds of the ends of wires fitting. -/
theorem Placed.link (h : b.Placed) {c : Node} (hc : c ∈ b.nodes) (hp : p ∈ b.nodes)
    (hne : c.id ≠ p.id) {target : Option Nat} {previous : Slot}
    (hfree : Free c.kind target)
    (hfun : p.kind.isFunction = true → ∀ slot, target = some slot ∨
      target = none ∧ slot = c.kind.inputs.length →
        slot = 0 ∧ (c.kind.isReference = true ∨ c.kind.isCall = true))
    (href : c.kind.isReference = true → p.kind.isFunction = true) :
  (b.mapKinds (link c.id target p.id previous)).Placed
  := by
  constructor
  · intro n' hn' q' hq' hq'fun slot hslot
    obtain ⟨n, hn, rfl⟩ := mem_nodes_mapKinds.1 hn'
    obtain ⟨q, hq, rfl⟩ := mem_nodes_mapKinds.1 hq'
    rw [Kind.isFunction_congr tag_link] at hq'fun
    rw [Kind.isReference_congr tag_link, Kind.isCall_congr tag_link]
    rcases input_link hfree (eq_of_id_eq hn hc) hslot with hold | ⟨rfl, hid, hwhere⟩
    · apply h.functions n hn q hq hq'fun slot hold
    · obtain rfl := eq_of_id_eq hq hp hid
      apply hfun hq'fun slot hwhere
  · intro n' hn' hn'ref q' hq' slot hslot
    obtain ⟨n, hn, rfl⟩ := mem_nodes_mapKinds.1 hn'
    obtain ⟨q, hq, rfl⟩ := mem_nodes_mapKinds.1 hq'
    rw [Kind.isReference_congr tag_link] at hn'ref
    rw [Kind.isFunction_congr tag_link]
    rcases input_link hfree (eq_of_id_eq hn hc) hslot with hold | ⟨rfl, hid, -⟩
    · apply h.references n hn hn'ref q hq slot hold
    · rw [eq_of_id_eq hq hp hid]
      apply href hn'ref
  · intro n' hn' slot hslot
    obtain ⟨n, hn, rfl⟩ := mem_nodes_mapKinds.1 hn'
    rcases input_link hfree (eq_of_id_eq hn hc) hslot with hold | ⟨rfl, hid, -⟩
    · apply h.irreflexive n hn slot hold
    · apply hne hid

/-- Wiring respects the kinds of the ends. -/
theorem Placed.connect (h : b.Placed) {consumer producer : NodeId} {slot : Nat}
    (hconnect : b.connect consumer slot producer = .ok (some b')) :
  b'.Placed
  := by
  obtain ⟨c, hc, p, hp, -, -, hne, hacc, f, hf, hlen, hfree, -, rfl⟩ := connect_eq_ok hconnect
  apply (h.mapKinds hf).link (mem_mapKinds f hc) (mem_mapKinds f hp) hne hfree
  · intro hfun slot' hslot'
    rw [Kind.isFunction_congr (hf.tag p.id p.kind)] at hfun
    rw [Kind.isReference_congr (hf.tag c.id c.kind), Kind.isCall_congr (hf.tag c.id c.kind)]
    rw [hlen] at hslot'
    apply accepts_function hacc hfun hslot'
  · intro href
    rw [Kind.isReference_congr (hf.tag c.id c.kind)] at href
    rw [Kind.isFunction_congr (hf.tag p.id p.kind)]
    cases hk : c.kind with
    | functionReference =>
      rw [hk, Kind.accepts, Bool.and_eq_true] at hacc
      exact hacc.2
    | _ => simp [hk, Kind.isReference] at href

/-- Wiring names nodes of the board only. -/
theorem Anchored.connect (h : b.Anchored) {consumer producer : NodeId} {slot : Nat}
    (hconnect : b.connect consumer slot producer = .ok (some b')) :
  b'.Anchored
  := by
  obtain ⟨c, hc, p, hp, -, -, -, -, f, hf, -, hfree, -, rfl⟩ := connect_eq_ok hconnect
  apply (h.mapKinds hf).link (mem_mapKinds f hc) (mem_mapKinds f hp) hfree

end Board

end Patchboard
