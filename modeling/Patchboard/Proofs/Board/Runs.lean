import Patchboard.Proofs.Board.Placement

/-!
# Runs of edits

A board that is made from the empty one by edits is consistent, whatever the edits are and whether
they succeed or not. Each edit keeps three properties: the ends of the wires agree, every slot names a
node of the board, and the kinds of the ends of wires fit.
-/

namespace Patchboard

namespace Kind

variable {k k' : Kind}

/-- A payload without wires. -/
def Bare (k : Kind) : Prop :=
  (∀ s ∈ k.inputs, s = none) ∧ k.consumers = []

/-- The payloads that come from the palette or from a builder. -/
inductive Built : Kind → Prop
  | fresh (t : Tag) : Built (Kind.fresh t)
  | function (name : String) (width height : Binary64) :
    Built (functionDeclaration name width height)
  | parameter (name type : String) : Built (freshParameter name type)
  | identifier (name type : String) : Built (freshIdentifier name type)
  | variableStatement (name type : String) : Built (freshVariable name type)
  | number (value : Binary64) : Built (freshNumber value)
  | string (value : String) : Built (freshString value)
  | binary (operator : String) : Built (freshBinary operator)
  | return (type : String) : Built (freshReturn type)
  | withArray {k : Kind} (h : Built k) (array : Bool) : Built (k.withArray array)

/-- A change of a field leaves a payload without wires as it is in this respect. -/
theorem Bare.change (h : k.Bare) {c : Change} (hc : k.change c = some k') :
  k'.Bare
  := by
  obtain ⟨hinputs, houtput, houtputs, -⟩ := wires_of_change hc
  rw [Bare, consumers]
  rw [hinputs, houtput, houtputs]
  exact h

/-- What comes from the palette or from a builder has no wires. -/
theorem Built.bare (h : k.Built) :
  k.Bare
  := by
  induction h with
  | fresh t => cases t <;> simp [Kind.fresh, Bare, inputs, consumers, output, outputs]
  | @withArray k _ array ih =>
    rw [Kind.withArray]
    cases hc : k.change (.array array) with
    | none => exact ih
    | some k' => exact ih.change hc
  | _ => simp [freshParameter, freshIdentifier, freshVariable, freshNumber, freshString, freshBinary,
      freshReturn, Bare, inputs, consumers, output, outputs]

/-- A payload without wires holds nothing. -/
theorem Bare.not_mem_inputs (h : k.Bare) (id : NodeId) :
  some id ∉ k.inputs
  := by
  intro hmem
  cases h.1 _ hmem

end Kind

/-- An edit of a board. -/
inductive Edit where
  /-- Places a payload from the palette or from a builder under a fresh id. -/
  | add (kind : Kind) (built : kind.Built) (x y : Binary64)
  /-- Places a whole node without wires under its own id. -/
  | insert (n : Node) (bare : n.kind.Bare)
  | connect (consumer : NodeId) (slot : Nat) (producer : NodeId)
  | disconnect (consumer : NodeId) (slot : Nat)
  /-- Takes away the wire to a slot, which is the same as emptying the slot. -/
  | removeConnection (consumer : NodeId) (slot : Nat)
  | remove (id : NodeId)
  | move (id : NodeId) (x y : Binary64)
  | setX (id : NodeId) (x : Binary64)
  | setY (id : NodeId) (y : Binary64)
  | change (id : NodeId) (c : Kind.Change)

namespace Board

variable {b b' : Board} {n : Node}

/-- The board after an edit. An edit that cannot be done leaves the board as it was. -/
def apply (b : Board) : Edit → Board
  | .add kind _ x y => ((b.add kind x y).map (·.2)).getD b
  | .insert n _ => ((b.insert n).toOption).getD b
  | .connect consumer slot producer => ((b.connect consumer slot producer).toOption.join).getD b
  | .disconnect consumer slot | .removeConnection consumer slot =>
    ((b.disconnect consumer slot).toOption.map (·.2)).getD b
  | .remove id => ((b.remove id).toOption.map (·.2)).getD b
  | .move id x y => ((b.move id x y).toOption).getD b
  | .setX id x => ((b.get? id).map fun n => b.place id x n.y).getD b
  | .setY id y => ((b.get? id).map fun n => b.place id n.x y).getD b
  | .change id c => ((b.change id c).toOption.join).getD b

/-- The node that an edit places, if it places one. -/
def placed? (b : Board) : Edit → Option Node
  | .add kind _ x y => b.freshId?.map fun id => ⟨id, x, y, kind⟩
  | .insert n _ => if b.contains n.id then none else some n
  | _ => none

/-! ## What every edit keeps -/

/-- The board holds together. -/
structure Consistent (b : Board) : Prop where
  linked : b.Linked
  anchored : b.Anchored
  placed : b.Placed

/-- The empty board holds together. -/
theorem consistent_empty :
  empty.Consistent
  := by
  have hnone : ∀ n, n ∉ empty.nodes := fun n hn => by cases hn
  refine ⟨⟨?_, ?_, ?_, ?_⟩, ?_, ⟨?_, ?_, ?_⟩⟩ <;>
    exact fun n hn => (hnone n hn).elim

/-- Placing a payload appends a node with a fresh id. -/
theorem add_eq_some {kind : Kind} {x y : Binary64} {id : NodeId}
    (h : b.add kind x y = some (id, b')) :
  b.freshId? = some id ∧ ∃ hnew, b' = b.append ⟨id, x, y, kind⟩ (saturatingNext id.val) hnew
  := by
  rw [add] at h
  split at h
  · cases h
  · next hid =>
    obtain ⟨rfl, rfl⟩ := Prod.mk.inj (Option.some.inj h)
    exact ⟨hid, not_mem_ids_of_freshId? hid, rfl⟩

/-- Placing a whole node appends it. -/
theorem insert_eq_ok (h : b.insert n = .ok b') :
  b.contains n.id = false ∧ ∃ hnew, b' = b.append n (max b.nextId (saturatingNext n.id.val)) hnew
  := by
  rw [insert] at h
  split at h
  · cases h
  · next hid =>
    obtain rfl := Except.ok.inj h
    exact ⟨by rw [contains, hid, Option.isSome_none], not_mem_ids_of_get? hid, rfl⟩

/-- The nodes of a board on which one more is placed. -/
theorem mem_nodes_append {m : Node} {nextId : UInt32} {hnew : n.id ∉ b.ids} :
  m ∈ (b.append n nextId hnew).nodes ↔ m ∈ b.nodes ∨ m = n
  := by
  rw [append, List.mem_append, List.mem_singleton]

theorem mem_ids_append {id : NodeId} {nextId : UInt32} {hnew : n.id ∉ b.ids} :
  id ∈ (b.append n nextId hnew).ids ↔ id ∈ b.ids ∨ id = n.id
  := by
  rw [ids, ids, append, List.map_append, List.mem_append, List.map_singleton, List.mem_singleton]

/-- Placing a node without wires keeps the ends of the wires in agreement when no slot names it. A
function may be named, since it records nobody. -/
theorem Linked.append (hb : b.Linked) (hbare : n.kind.Bare) {nextId : UInt32} (hnew : n.id ∉ b.ids)
    (hheld : n.kind.isFunction = false → ∀ m ∈ b.nodes, some n.id ∉ m.kind.inputs) :
  (b.append n nextId hnew).Linked
  := by
  have hconsumers : ∀ id, id ∉ n.kind.consumers := by
    intro id
    rw [hbare.2]
    exact List.not_mem_nil
  have hself : some n.id ∉ n.kind.inputs := hbare.not_mem_inputs n.id
  have hall : n.kind.isFunction = false → ∀ m, m ∈ b.nodes ∨ m = n → some n.id ∉ m.kind.inputs := by
    rintro hfun m (hm | rfl)
    · apply hheld hfun m hm
    · exact hself
  have hshape := n.kind.shape
  constructor
  · intro m hm' p hp' hfan
    have hm := mem_nodes_append.1 hm'
    rcases mem_nodes_append.1 hp' with hp | rfl
    · rcases hm with hm | rfl
      · apply hb.fanOut m hm p hp hfan
      · rw [List.count_eq_zero_of_not_mem (hbare.not_mem_inputs p.id), List.count_eq_zero_of_not_mem]
        intro hout
        apply hnew
        apply hb.consumers p hp
        apply (Kind.mem_consumers_iff _ _).2 (.inr hout)
    · have hfun : p.kind.isFunction = false := by simp_all
      rw [List.count_eq_zero_of_not_mem (hall hfun m hm), List.count_eq_zero_of_not_mem]
      intro hout
      apply hconsumers _ ((Kind.mem_consumers_iff _ _).2 (.inr hout))
  · intro m hm' p hp' hsingle
    have hm := mem_nodes_append.1 hm'
    rcases mem_nodes_append.1 hp' with hp | rfl
    · rcases hm with hm | rfl
      · apply hb.single m hm p hp hsingle
      · constructor
        · intro hin
          apply (hbare.not_mem_inputs p.id hin).elim
        · intro hout
          apply (hnew _).elim
          apply hb.consumers p hp
          apply (Kind.mem_consumers_iff _ _).2 (.inl hout)
    · have hfun : p.kind.isFunction = false := by simp_all
      constructor
      · intro hin
        apply (hall hfun m hm hin).elim
      · intro hout
        apply (hconsumers _ ((Kind.mem_consumers_iff _ _).2 (.inl hout))).elim
  · intro m hm' p hp' hret
    have hm := mem_nodes_append.1 hm'
    rcases mem_nodes_append.1 hp' with hp | rfl
    · rcases hm with hm | rfl
      · apply hb.ret m hm p hp hret
      · apply hbare.not_mem_inputs
    · apply hall (by simp_all) m hm
  · intro p hp' id hid
    rw [mem_ids_append]
    rcases mem_nodes_append.1 hp' with hp | rfl
    · exact .inl (hb.consumers p hp id hid)
    · apply (hconsumers id hid).elim

/-- Placing a node without wires keeps the board together. -/
theorem Consistent.append (h : b.Consistent) (hbare : n.kind.Bare) (nextId : UInt32)
    (hnew : n.id ∉ b.ids) :
  (b.append n nextId hnew).Consistent
  := by
  have hheld : ∀ m ∈ b.nodes, ∀ slot, m.kind.input slot ≠ some n.id := by
    intro m hm slot hslot
    apply hnew (h.anchored m hm slot n.id hslot)
  have hempty : ∀ slot id, n.kind.input slot ≠ some id := by
    intro slot id hslot
    apply hbare.not_mem_inputs id
    apply (n.kind.mem_inputs_iff id).2 ⟨slot, hslot⟩
  refine ⟨?_, ?_, ⟨?_, ?_, ?_⟩⟩
  · apply h.linked.append hbare hnew
    intro _ m hm hin
    obtain ⟨slot, hslot⟩ := (m.kind.mem_inputs_iff n.id).1 hin
    apply hheld m hm slot hslot
  · intro m hm' slot id hslot
    rw [mem_ids_append]
    rcases mem_nodes_append.1 hm' with hm | rfl
    · exact .inl (h.anchored m hm slot id hslot)
    · apply (hempty slot id hslot).elim
  · intro m hm' p hp' hfun slot hslot
    rcases mem_nodes_append.1 hm' with hm | rfl
    · rcases mem_nodes_append.1 hp' with hp | rfl
      · apply h.placed.functions m hm p hp hfun slot hslot
      · apply (hheld m hm slot hslot).elim
    · apply (hempty slot p.id hslot).elim
  · intro m hm' href p hp' slot hslot
    rcases mem_nodes_append.1 hm' with hm | rfl
    · rcases mem_nodes_append.1 hp' with hp | rfl
      · apply h.placed.references m hm href p hp slot hslot
      · apply (hheld m hm slot hslot).elim
    · apply (hempty slot p.id hslot).elim
  · intro m hm' slot
    rcases mem_nodes_append.1 hm' with hm | rfl
    · apply h.placed.irreflexive m hm
    · apply hempty

/-! ## Changes that leave the wires alone -/

/-- Two nodes are of one id and kind, with the same wires. -/
structure SameWires (m' m : Node) : Prop where
  id : m'.id = m.id
  tag : m'.kind.tag = m.kind.tag
  inputs : m'.kind.inputs = m.kind.inputs
  output : m'.kind.output = m.kind.output
  outputs : m'.kind.outputs = m.kind.outputs

/-- A change that leaves all wires alone. -/
structure LeavesWires (b b' : Board) : Prop where
  ids : b'.ids = b.ids
  nodes : ∀ m' ∈ b'.nodes, ∃ m ∈ b.nodes, SameWires m' m

theorem Linked.of_leavesWires (hb : b.Linked) (h : LeavesWires b b') :
  b'.Linked
  := by
  constructor
  · intro m' hm' p' hp' hfan
    obtain ⟨m, hm, hsame⟩ := h.nodes m' hm'
    obtain ⟨p, hp, hsame'⟩ := h.nodes p' hp'
    rw [hsame.inputs, hsame'.id, hsame'.outputs, hsame.id]
    apply hb.fanOut m hm p hp
    rwa [← Kind.isFanOut_congr hsame'.tag]
  · intro m' hm' p' hp' hsingle
    obtain ⟨m, hm, hsame⟩ := h.nodes m' hm'
    obtain ⟨p, hp, hsame'⟩ := h.nodes p' hp'
    rw [hsame.inputs, hsame'.id, hsame'.output, hsame.id]
    apply hb.single m hm p hp
    rwa [← Kind.isSingleOutput_congr hsame'.tag]
  · intro m' hm' p' hp' hret
    obtain ⟨m, hm, hsame⟩ := h.nodes m' hm'
    obtain ⟨p, hp, hsame'⟩ := h.nodes p' hp'
    rw [hsame.inputs, hsame'.id]
    apply hb.ret m hm p hp
    rwa [← Kind.isReturn_congr hsame'.tag]
  · intro p' hp' id hid
    obtain ⟨p, hp, hsame⟩ := h.nodes p' hp'
    rw [h.ids]
    apply hb.consumers p hp
    rwa [Kind.consumers, ← hsame.output, ← hsame.outputs]

theorem Consistent.of_leavesWires (hb : b.Consistent) (h : LeavesWires b b') :
  b'.Consistent
  := by
  have hinput : ∀ {m' m : Node}, SameWires m' m → ∀ slot, m'.kind.input slot = m.kind.input slot := by
    intro m' m hsame slot
    rw [Kind.input, Kind.input, hsame.inputs]
  refine ⟨hb.linked.of_leavesWires h, ?_, ⟨?_, ?_, ?_⟩⟩
  · intro m' hm' slot id hslot
    obtain ⟨m, hm, hsame⟩ := h.nodes m' hm'
    rw [hinput hsame] at hslot
    rw [h.ids]
    apply hb.anchored m hm slot id hslot
  · intro m' hm' p' hp' hfun slot hslot
    obtain ⟨m, hm, hsame⟩ := h.nodes m' hm'
    obtain ⟨p, hp, hsame'⟩ := h.nodes p' hp'
    rw [hinput hsame, hsame'.id] at hslot
    rw [Kind.isFunction_congr hsame'.tag] at hfun
    rw [Kind.isReference_congr hsame.tag, Kind.isCall_congr hsame.tag]
    apply hb.placed.functions m hm p hp hfun slot hslot
  · intro m' hm' href p' hp' slot hslot
    obtain ⟨m, hm, hsame⟩ := h.nodes m' hm'
    obtain ⟨p, hp, hsame'⟩ := h.nodes p' hp'
    rw [hinput hsame, hsame'.id] at hslot
    rw [Kind.isReference_congr hsame.tag] at href
    rw [Kind.isFunction_congr hsame'.tag]
    apply hb.placed.references m hm href p hp slot hslot
  · intro m' hm' slot
    obtain ⟨m, hm, hsame⟩ := h.nodes m' hm'
    rw [hinput hsame, hsame.id]
    apply hb.placed.irreflexive m hm

/-- Putting a node at another place leaves the wires alone. -/
theorem leavesWires_place (b : Board) (id : NodeId) (x y : Binary64) :
  LeavesWires b (b.place id x y)
  := by
  constructor
  · rw [ids, ids, place, List.map_map]
    apply List.map_congr_left
    intro m _
    dsimp only [Function.comp_apply]
    split <;> rfl
  · intro m' hm'
    rw [place, List.mem_map] at hm'
    obtain ⟨m, hm, rfl⟩ := hm'
    use m, hm
    split <;> exact ⟨rfl, rfl, rfl, rfl, rfl⟩

/-- Changing a field leaves the wires alone. -/
theorem leavesWires_change {id : NodeId} {c : Kind.Change} (hc : b.change id c = .ok (some b')) :
  LeavesWires b b'
  := by
  rw [change, require] at hc
  cases hget : b.get? id with
  | none => simp [hget, bind, Except.bind] at hc
  | some n =>
    obtain ⟨hn, rfl⟩ := get?_eq_some_iff.1 hget
    simp only [hget, bind, Except.bind] at hc
    cases hk : n.kind.change c with
    | none => simp [hk, pure, Except.pure] at hc
    | some k =>
      simp only [hk, pure, Except.pure, Except.ok.injEq, Option.some.injEq] at hc
      obtain ⟨hinputs, houtput, houtputs, htag⟩ := Kind.wires_of_change hk
      subst hc
      constructor
      · apply ids_mapKinds
      · intro m' hm'
        obtain ⟨m, hm, rfl⟩ := mem_nodes_mapKinds.1 hm'
        use m, hm
        dsimp only
        split
        · next hid =>
          obtain rfl := eq_of_id_eq hm hn hid
          exact ⟨rfl, htag, hinputs, houtput, houtputs⟩
        · exact ⟨rfl, rfl, rfl, rfl, rfl⟩

/-! ## Runs -/

/-- What holds of a board holds after an edit when it is kept by each of the changes that an edit may
come to: placing a node without wires, wiring, emptying a slot, taking away a node, and changes that
leave the wires alone. -/
theorem apply_induction {P : Board → Prop} (h : P b) (e : Edit)
    (append : ∀ n, b.placed? e = some n → n.kind.Bare → ∀ nextId hnew,
      P (b.append n nextId hnew))
    (connect : ∀ consumer slot producer b', b.connect consumer slot producer = .ok (some b') → P b')
    (disconnect : ∀ consumer slot former b', b.disconnect consumer slot = .ok (former, b') → P b')
    (detach : ∀ b n, n ∈ b.nodes → P b → P (b.detach n))
    (leavesWires : ∀ b', LeavesWires b b' → P b') :
  P (b.apply e)
  := by
  have hdisconnect : ∀ consumer slot,
      P (((b.disconnect consumer slot).toOption.map (·.2)).getD b) := by
    intro consumer slot
    cases hd : b.disconnect consumer slot with
    | error e => exact h
    | ok res => exact disconnect consumer slot res.1 res.2 hd
  cases e with
  | add kind built x y =>
    show P (((b.add kind x y).map (·.2)).getD b)
    cases hadd : b.add kind x y with
    | none => exact h
    | some res =>
      obtain ⟨id, b'⟩ := res
      obtain ⟨hid, hnew, rfl⟩ := add_eq_some hadd
      refine append ⟨id, x, y, kind⟩ ?_ built.bare _ hnew
      show b.freshId?.map _ = _
      rw [hid, Option.map_some]
  | insert n bare =>
    show P ((b.insert n).toOption.getD b)
    cases hinsert : b.insert n with
    | error e => exact h
    | ok b' =>
      obtain ⟨hid, hnew, rfl⟩ := insert_eq_ok hinsert
      refine append n ?_ bare _ hnew
      show (if b.contains n.id then none else some n) = _
      rw [hid, if_neg Bool.false_ne_true]
  | connect consumer slot producer =>
    show P ((b.connect consumer slot producer).toOption.join.getD b)
    cases hc : b.connect consumer slot producer with
    | error e => exact h
    | ok res =>
      cases res with
      | none => exact h
      | some b' => exact connect consumer slot producer b' hc
  | disconnect consumer slot => apply hdisconnect
  | removeConnection consumer slot => apply hdisconnect
  | remove id =>
    show P (((b.remove id).toOption.map (·.2)).getD b)
    cases hr : b.remove id with
    | error e => exact h
    | ok res => exact remove_induction detach h hr
  | move id x y =>
    show P ((b.move id x y).toOption.getD b)
    rw [Board.move, require]
    cases b.get? id with
    | none => exact h
    | some n => exact leavesWires _ (leavesWires_place b id x y)
  | setX id x =>
    show P (((b.get? id).map fun n => b.place id x n.y).getD b)
    cases b.get? id with
    | none => exact h
    | some n => exact leavesWires _ (leavesWires_place b id x n.y)
  | setY id y =>
    show P (((b.get? id).map fun n => b.place id n.x y).getD b)
    cases b.get? id with
    | none => exact h
    | some n => exact leavesWires _ (leavesWires_place b id n.x y)
  | change id c =>
    show P ((b.change id c).toOption.join.getD b)
    cases hc : b.change id c with
    | error e => exact h
    | ok res =>
      cases res with
      | none => exact h
      | some b' => exact leavesWires b' (leavesWires_change hc)

/-- Emptying a slot keeps the board together. -/
theorem Consistent.disconnect (h : b.Consistent) {consumer : NodeId} {slot : Nat} {former : Slot}
    (hd : b.disconnect consumer slot = .ok (former, b')) :
  b'.Consistent
  := by
  obtain ⟨-, -, -, -, f, hf, hb', -, hlinked⟩ := disconnect_eq_ok hd
  refine ⟨hlinked h.linked, ?_, ?_⟩
  · rw [hb']
    apply h.anchored.mapKinds hf
  · rw [hb']
    apply h.placed.mapKinds hf

/-- Every edit keeps the board together. -/
theorem Consistent.apply (h : b.Consistent) (e : Edit) :
  (b.apply e).Consistent
  := by
  apply apply_induction h e
  · intro n _ bare nextId hnew
    apply h.append bare nextId hnew
  · intro consumer slot producer b' hc
    exact ⟨h.linked.connect hc, h.anchored.connect hc, h.placed.connect hc⟩
  · intro consumer slot former b' hd
    apply h.disconnect hd
  · intro b n hn hb
    exact ⟨hb.linked.detach hn, hb.anchored.detach hb.linked hn, hb.placed.detach⟩
  · intro b' hb'
    apply h.of_leavesWires hb'

/-- A run of edits keeps the board together. -/
theorem Consistent.run (h : b.Consistent) (edits : List Edit) :
  (edits.foldl Board.apply b).Consistent
  := by
  induction edits generalizing b with
  | nil => exact h
  | cons e edits ih =>
    apply ih
    apply h.apply

/-- The two ends of every wire mirror each other. -/
structure Mirrored (b : Board) : Prop where
  /-- Every slot names a node of the board. -/
  slots : ∀ n ∈ b.nodes, ∀ slot id, n.kind.input slot = some id → id ∈ b.ids
  /-- Every recorded consumer is on the board. -/
  records : ∀ n ∈ b.nodes, ∀ id ∈ n.kind.consumers, id ∈ b.ids
  /-- A node that fans out records a consumer once for each slot. -/
  fanOut : ∀ n ∈ b.nodes, ∀ p ∈ b.nodes, p.kind.isFanOut = true →
    n.kind.inputs.count (some p.id) = p.kind.outputs.count n.id
  /-- A node with a single consumer names the node whose slots hold it. -/
  single : ∀ n ∈ b.nodes, ∀ p ∈ b.nodes, p.kind.isSingleOutput = true →
    (some p.id ∈ n.kind.inputs ↔ p.kind.output = some n.id)
  /-- A function is held by a reference or in the first slot of a call. -/
  functions : ∀ n ∈ b.nodes, ∀ p ∈ b.nodes, p.kind.isFunction = true →
    ∀ slot, n.kind.input slot = some p.id →
      slot = 0 ∧ (n.kind.isReference = true ∨ n.kind.isCall = true)
  /-- A reference holds nothing else. -/
  references : ∀ n ∈ b.nodes, n.kind.isReference = true → ∀ p ∈ b.nodes,
    ∀ slot, n.kind.input slot = some p.id → p.kind.isFunction = true
  /-- Nothing holds a return. -/
  returns : ∀ n ∈ b.nodes, ∀ p ∈ b.nodes, p.kind.isReturn = true → some p.id ∉ n.kind.inputs
  /-- No node holds itself. -/
  irreflexive : ∀ n ∈ b.nodes, ∀ slot, n.kind.input slot ≠ some n.id
  /-- Every node is found under its own id. -/
  found : ∀ n ∈ b.nodes, b.get? n.id = some n

/-- On every board that edits make from the empty one the ends of the wires mirror each other, and the
check passes. -/
theorem mirrored_foldl_apply (edits : List Edit) :
  (edits.foldl apply empty).Mirrored ∧ (edits.foldl apply empty).validate = .ok ()
  := by
  have h := consistent_empty.run edits
  constructor
  · constructor
    · exact h.anchored
    · exact h.linked.consumers
    · exact h.linked.fanOut
    · exact h.linked.single
    · exact h.placed.functions
    · exact h.placed.references
    · exact h.linked.ret
    · exact h.placed.irreflexive
    · intro n hn
      apply get?_of_mem hn
  · apply h.linked.validate

end Board

end Patchboard
