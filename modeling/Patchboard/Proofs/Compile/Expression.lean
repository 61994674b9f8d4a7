import Patchboard.Proofs.Compile.Writing

/-!
# Expressions of nodes

A node is written as one expression, by recursion through its operand slots. On the way the wires
from bindings are used that lead to the node or to a node written within it. Writing succeeds exactly
when the node can be written and no chain of nodes within each other is too long.
-/

namespace Patchboard

/-- A state becomes another by consuming certain wires, in some order. -/
def Uses.Spends (u : Uses) (used : Wire → Prop) (u' : Uses) : Prop :=
  ∃ ws : List Wire, (∀ w, w ∈ ws ↔ used w) ∧ u' = u.consumeAll ws

namespace Board

variable {b : Board} {n p : Node}

/-- A node is written as an expression: its head, with the parts that the producers of its operand
slots are written as. -/
inductive WrittenAs (b : Board) : Node → Expr → Prop
  | node {n : Node} {h : Head} {e : Expr} (feed : Nat → Node) (part : Nat → Expr)
      (head : b.head? n = some h)
      (feeds : ∀ slot ∈ b.operands n, b.producer n slot = .ok (feed slot))
      (parts : ∀ slot ∈ b.operands n, WrittenAs b (feed slot) (part slot))
      (build : h.build? ((b.operands n).map part) = some e) :
      WrittenAs b n e

/-- A slot of a node is written as an expression. -/
def SlotWrittenAs (b : Board) (n : Node) (slot : Nat) (e : Expr) : Prop :=
  ∃ p, b.producer n slot = .ok p ∧ b.WrittenAs p e

/-- The wires from bindings that are used where a slot is written: the wire to the slot itself, and
the wires to the operand slots of what is written there. -/
inductive UsesAt (b : Board) : Node → Nat → Wire → Prop
  | direct {n p : Node} {slot : Nat} (feed : b.producer n slot = .ok p)
      (binding : p.kind.isBinding = true) :
      UsesAt b n slot ⟨n.id, slot, p.id⟩
  | inner {n p : Node} {slot slot' : Nat} {w : Wire} (feed : b.producer n slot = .ok p)
      (operand : slot' ∈ b.operands p) (use : UsesAt b p slot' w) :
      UsesAt b n slot w

/-- The wires from bindings that are used where a node is written. -/
def UsesIn (b : Board) (n : Node) (w : Wire) : Prop :=
  ∃ slot ∈ b.operands n, b.UsesAt n slot w

/-! ## Nesting -/

/-- A node is written within another, as one of its parts. -/
def Inlines (b : Board) (n p : Node) : Prop :=
  ∃ slot ∈ b.operands n, b.Holds n slot p

/-- No chain of nodes, each written within the one before, has more than so many nodes when it
starts at this one. -/
def NestsWithin (b : Board) (levels : Nat) (n : Node) : Prop :=
  ∀ chain : List Node, List.IsChain b.Inlines (n :: chain) → (n :: chain).length ≤ levels

/-- A node alone is a chain. -/
theorem not_nestsWithin_zero (b : Board) (n : Node) :
  ¬ b.NestsWithin 0 n
  := by
  intro h
  have := h [] (List.isChain_singleton n)
  cases this

/-- A chain goes one level down with each node. -/
theorem nestsWithin_succ_iff (b : Board) (levels : Nat) (n : Node) :
  b.NestsWithin (levels + 1) n ↔ ∀ p, b.Inlines n p → b.NestsWithin levels p
  := by
  constructor
  · intro h p hp chain hchain
    apply Nat.le_of_succ_le_succ
    apply h (p :: chain) (List.isChain_cons_cons.2 ⟨hp, hchain⟩)
  · intro h chain hchain
    cases chain with
    | nil => exact Nat.succ_le_succ (Nat.zero_le _)
    | cons p chain =>
      obtain ⟨hp, hchain⟩ := List.isChain_cons_cons.1 hchain
      apply Nat.succ_le_succ
      apply h p hp chain hchain

/-! ## Parts -/

/-- What it takes to write a slot. -/
theorem run_inputWith_eq_ok_iff (expr : Node → Lowering Expr) (n : Node) (slot : Nat) (u : Uses)
    (r : Expr × Uses) :
  (b.inputWith expr n slot).run u = .ok r
    ↔ ∃ p, b.producer n slot = .ok p ∧
        (expr p).run (if p.kind.isBinding then u.consume n.id slot p.id else u) = .ok r
  := by
  rw [inputWith]
  rw [Lowering.run_bind_eq_ok_iff]
  constructor
  · rintro ⟨p, _, hp, h⟩
    obtain ⟨hp, rfl⟩ := (Lowering.run_lift_eq_ok_iff _ _ _).1 hp
    refine ⟨p, hp, ?_⟩
    split at h <;> simp_all
  · rintro ⟨p, hp, h⟩
    refine ⟨p, u, (Lowering.run_lift_eq_ok_iff _ _ _).2 ⟨hp, rfl⟩, ?_⟩
    split <;> simp_all

/-- A producer is no return. -/
theorem not_isReturn_of_producer {slot : Nat} (h : b.producer n slot = .ok p) :
  p.kind.isReturn = false
  := by
  obtain ⟨-, h⟩ := producer_eq_ok_iff.1 h
  unfold Kind.isReturn
  split
  · next hk => simp [hk, Kind.producesValue, Kind.isFanOut, Kind.isSingleOutput, Kind.isFunction] at h
  · rfl

/-- A slot has one producer. -/
theorem producer_unique {q : Node} {slot : Nat} (h : b.producer n slot = .ok p)
    (hq : b.Holds n slot q) :
  p = q
  := by
  apply Holds.unique (producer_eq_ok_iff.1 h).1 hq

/-- Where a slot is written, the wire to it is used if it comes from a binding, and then what the
producer uses. -/
theorem Spends.slot {u u' : Uses} {slot : Nat} (hp : b.producer n slot = .ok p)
    (h : (if p.kind.isBinding then u.consume n.id slot p.id else u).Spends (b.UsesIn p) u') :
  u.Spends (b.UsesAt n slot) u'
  := by
  obtain ⟨ws, hws, rfl⟩ := h
  have hinner : ∀ w, w ∈ ws → b.UsesAt n slot w := by
    intro w hw
    obtain ⟨slot', hslot', huse⟩ := (hws w).1 hw
    exact .inner hp hslot' huse
  split
  · next hbind =>
    refine ⟨⟨n.id, slot, p.id⟩ :: ws, ?_, rfl⟩
    intro w
    rw [List.mem_cons]
    constructor
    · rintro (rfl | hw)
      · exact .direct hp hbind
      · apply hinner w hw
    · intro h
      cases h with
      | direct feed _ =>
        obtain rfl := Except.ok.inj (hp.symm.trans feed)
        exact .inl rfl
      | inner feed operand use =>
        obtain rfl := Except.ok.inj (hp.symm.trans feed)
        exact .inr ((hws w).2 ⟨_, operand, use⟩)
  · next hbind =>
    refine ⟨ws, ?_, rfl⟩
    intro w
    constructor
    · apply hinner w
    · intro h
      cases h with
      | direct feed binding =>
        obtain rfl := Except.ok.inj (hp.symm.trans feed)
        apply (hbind binding).elim
      | inner feed operand use =>
        obtain rfl := Except.ok.inj (hp.symm.trans feed)
        apply (hws w).2 ⟨_, operand, use⟩

/-- Parts that are written one after the other use what each of them uses. -/
theorem run_mapM_ok {input : Nat → Lowering Expr} {used : Nat → Wire → Prop}
    {written : Nat → Expr → Prop} {slots : List Nat} (hslots : slots.Nodup)
    (hinput : ∀ slot ∈ slots, ∀ u e u', (input slot).run u = .ok (e, u') →
      written slot e ∧ u.Spends (used slot) u')
    {u u' : Uses} {es : List Expr} (h : (slots.mapM input).run u = .ok (es, u')) :
  ∃ part : Nat → Expr, es = slots.map part ∧ (∀ slot ∈ slots, written slot (part slot)) ∧
    u.Spends (fun w => ∃ slot ∈ slots, used slot w) u'
  := by
  induction slots generalizing u u' es with
  | nil =>
    rw [run_mapM_nil] at h
    obtain ⟨rfl, rfl⟩ := Prod.mk.inj h
    refine ⟨fun _ => default, rfl, by simp, [], by simp, rfl⟩
  | cons slot slots ih =>
    obtain ⟨hnew, hslots⟩ := List.nodup_cons.1 hslots
    obtain ⟨hfirst, hrest⟩ := List.forall_mem_cons.1 hinput
    obtain ⟨e, u₁, es', he, hes, rfl⟩ := (run_mapM_cons input slot slots u _).1 h
    obtain ⟨hwritten, ws, hws, rfl⟩ := hfirst u e u₁ he
    obtain ⟨part, rfl, hparts, ws', hws', rfl⟩ := ih hslots hrest hes
    have hsame : ∀ s ∈ slots, (if s = slot then e else part s) = part s := by
      intro s hs
      rw [if_neg]
      rintro rfl
      apply hnew hs
    use fun s => if s = slot then e else part s
    refine ⟨?_, ?_, ws ++ ws', ?_, (u.consumeAll_append ws ws').symm⟩
    · rw [List.map_cons, if_pos rfl, List.map_congr_left hsame]
    · intro s hs
      rcases List.mem_cons.1 hs with rfl | hs
      · simpa using hwritten
      · simp only [hsame s hs]
        apply hparts s hs
    · intro w
      rw [List.mem_append, hws, hws']
      simp

/-! ## Expressions -/

/-- A node whose writing succeeds is written as the result, nests as deep as it may, and spends the
wires that it uses. -/
theorem run_expr_ok {function : NodeId} {levels : Nat} (hn : n.kind.isReturn = false) {u u' : Uses}
    {e : Expr} (h : (b.expr function levels n : Lowering Expr).run u = .ok (e, u')) :
  b.WrittenAs n e ∧ b.NestsWithin levels n ∧ u.Spends (b.UsesIn n) u'
  := by
  induction levels generalizing n u u' e with
  | zero => exact (Lowering.run_throw_ne_ok _ _ _ h).elim
  | succ levels ih =>
    obtain ⟨head, es, hhead, hes, hbuild⟩ := (run_exprWith_eq_ok_iff _ hn u e u').1 h
    -- What the induction gives for each operand slot that was written.
    have slots : ∀ slot ∈ b.operands n, ∀ u e u',
        (b.inputWith (b.expr function levels) n slot : Lowering Expr).run u = .ok (e, u') →
        (∃ p, b.producer n slot = .ok p ∧ b.WrittenAs p e ∧ b.NestsWithin levels p) ∧
          u.Spends (b.UsesAt n slot) u' := by
      intro slot _ u e u' h
      obtain ⟨p, hp, h⟩ := (run_inputWith_eq_ok_iff _ n slot u _).1 h
      obtain ⟨hwritten, hnests, hspends⟩ := ih (not_isReturn_of_producer hp) h
      exact ⟨⟨p, hp, hwritten, hnests⟩, Spends.slot hp hspends⟩
    obtain ⟨part, rfl, hparts, hspends⟩ := run_mapM_ok (b.nodup_operands n) slots hes
    have : Nonempty Node := ⟨n⟩
    choose! feed hfeed hwritten hnests using hparts
    refine ⟨.node feed part hhead hfeed hwritten hbuild, ?_, hspends⟩
    apply (nestsWithin_succ_iff b levels n).2
    rintro p ⟨slot, hslot, hp⟩
    rw [← producer_unique (hfeed slot hslot) hp]
    apply hnests slot hslot

/-- The parts of a node that can be written can be written one after the other. -/
theorem run_mapM_isOk {input : Nat → Lowering Expr} {slots : List Nat}
    (hinput : ∀ slot ∈ slots, ∀ u, ∃ r, (input slot).run u = .ok r) (u : Uses) :
  ∃ r, (slots.mapM input).run u = .ok r ∧ r.1.length = slots.length
  := by
  induction slots generalizing u with
  | nil => exact ⟨([], u), (run_mapM_nil input u _).2 rfl, rfl⟩
  | cons slot slots ih =>
    obtain ⟨hfirst, hrest⟩ := List.forall_mem_cons.1 hinput
    obtain ⟨⟨e, u₁⟩, he⟩ := hfirst u
    obtain ⟨⟨es, u₂⟩, hes, hlen⟩ := ih hrest u₁
    exact ⟨(e :: es, u₂), (run_mapM_cons input slot slots u _).2 ⟨e, u₁, es, he, hes, rfl⟩,
      congrArg Nat.succ hlen⟩

/-- A node that is written as something, and does not nest too deep, is written with success. -/
theorem run_expr_isOk {function : NodeId} {levels : Nat} {e : Expr} (hn : n.kind.isReturn = false)
    (h : b.WrittenAs n e) (hnests : b.NestsWithin levels n) (u : Uses) :
  ∃ r, (b.expr function levels n : Lowering Expr).run u = .ok r
  := by
  induction levels generalizing n e u with
  | zero => exact (b.not_nestsWithin_zero n hnests).elim
  | succ levels ih =>
    obtain @⟨_, head, _, feed, part, hhead, hfeed, hparts, hbuild⟩ := h
    rw [nestsWithin_succ_iff] at hnests
    have slots : ∀ slot ∈ b.operands n, ∀ u,
        ∃ r, (b.inputWith (b.expr function levels) n slot : Lowering Expr).run u = .ok r := by
      intro slot hslot u
      have hp := hfeed slot hslot
      have hholds := (producer_eq_ok_iff.1 hp).1
      obtain ⟨r, hr⟩ := ih (not_isReturn_of_producer hp) (hparts slot hslot)
        (hnests (feed slot) ⟨slot, hslot, hholds⟩)
        (if (feed slot).kind.isBinding then u.consume n.id slot (feed slot).id else u)
      exact ⟨r, (run_inputWith_eq_ok_iff _ n slot u r).2 ⟨feed slot, hp, hr⟩⟩
    obtain ⟨⟨es, u'⟩, hes, hlen⟩ := run_mapM_isOk slots u
    have hsome := head.isSome_build?_congr (hlen.trans (List.length_map part).symm)
    rw [hbuild, Option.isSome_some] at hsome
    obtain ⟨e', he'⟩ := Option.isSome_iff_exists.1 hsome
    exact ⟨(e', u'), (run_exprWith_eq_ok_iff _ hn u e' u').2 ⟨_, es, hhead, hes, he'⟩⟩

end Board

end Patchboard
