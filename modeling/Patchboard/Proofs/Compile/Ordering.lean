import Mathlib.Data.List.Perm.Basic
import Patchboard.Proofs.Board.Links
import Patchboard.Proofs.Compile.Hoisting

/-!
# The order of declarations

The roots of a function are its return and the bindings that the return needs. When a binding is
declared all its uses have been written by then. If no other root uses the same wires, what remains to
be declared does not use the binding: the uses of a binding stand after its declaration. This is so on
a linked board, where a node that is written in place has one consumer, and therefore every wire is
used by one root only.
-/

namespace Patchboard

open Relation (ReflTransGen TransGen)

/-- The node is written on its own, and not within others. -/
def Kind.isRoot (k : Kind) : Bool :=
  k.isBinding || k.isReturn

/-- A binding is a root. -/
theorem Kind.isRoot_of_isBinding {k : Kind} (h : k.isBinding = true) :
  k.isRoot = true
  := by
  rw [isRoot, h, Bool.true_or]

/-- A return is a root. -/
theorem Kind.isRoot_of_isReturn {k : Kind} (h : k.isReturn = true) :
  k.isRoot = true
  := by
  rw [isRoot, h, Bool.or_true]

/-- A node with slots that is no root has a single consumer. -/
theorem Kind.isSingleOutput_of_not_isRoot {k : Kind} (hroot : k.isRoot = false)
    (hinputs : k.inputs ≠ []) :
  k.isSingleOutput = true
  := by
  cases k <;> first | rfl | exact (hinputs rfl).elim | cases hroot

namespace Board

variable {b : Board} {r r' n m c : Node} {w : Wire}

/-! ## Roots -/

/-- A node with a slot that holds something has slots. -/
theorem inputs_ne_nil_of_input {slot : Nat} {id : NodeId} (h : n.kind.input slot = some id) :
  n.kind.inputs ≠ []
  := by
  have hmem := (n.kind.mem_inputs_iff id).2 ⟨slot, h⟩
  apply List.ne_nil_of_mem hmem

/-- On a linked board nothing holds a return. -/
theorem Linked.not_isReturn (hb : b.Linked) (hn : n ∈ b.nodes) (h : b.Needs n c) :
  c.kind.isReturn = false
  := by
  obtain ⟨slot, hslot, hc⟩ := h
  cases hret : c.kind.isReturn with
  | false => rfl
  | true =>
    apply (hb.ret n hn c hc hret _).elim
    apply (n.kind.mem_inputs_iff c.id).2 ⟨slot, hslot⟩

/-- On a linked board what is written in place is no root. -/
theorem Linked.not_isRoot (hb : b.Linked) (hn : n ∈ b.nodes) (h : b.Inner n c) :
  c.kind.isRoot = false
  := by
  rw [Kind.isRoot, h.2, hb.not_isReturn hn h.1]
  rfl

/-- On a linked board a node with slots that is no root is held by one node. -/
theorem Linked.consumer_unique (hb : b.Linked) (hn : n ∈ b.nodes) (hm : m ∈ b.nodes)
    (hroot : c.kind.isRoot = false) (hinputs : c.kind.inputs ≠ []) (hnc : b.Needs n c)
    (hmc : b.Needs m c) :
  n = m
  := by
  have hsingle := Kind.isSingleOutput_of_not_isRoot hroot hinputs
  obtain ⟨slot, hslot, hc⟩ := hnc
  obtain ⟨slot', hslot', -⟩ := hmc
  have hout := (hb.single n hn c hc hsingle).1 ((n.kind.mem_inputs_iff _).2 ⟨slot, hslot⟩)
  have hout' := (hb.single m hm c hc hsingle).1 ((m.kind.mem_inputs_iff _).2 ⟨slot', hslot'⟩)
  rw [hout] at hout'
  apply eq_of_id_eq hn hm (Option.some.inj hout')

/-- What is written within a node of the board is on the board. -/
theorem mem_of_inner (hn : n ∈ b.nodes) (h : ReflTransGen b.Inner n c) :
  c ∈ b.nodes
  := by
  apply Live.mem hn
  apply Live.inner .refl h

/-- On a linked board a node with slots is written within one root only. -/
theorem Linked.root_unique (hb : b.Linked) (hr : r ∈ b.nodes) (hr' : r' ∈ b.nodes)
    (hroot : r.kind.isRoot = true) (hroot' : r'.kind.isRoot = true)
    (h : ReflTransGen b.Inner r c) (h' : ReflTransGen b.Inner r' c) (hinputs : c.kind.inputs ≠ []) :
  r = r'
  := by
  induction h with
  | refl =>
    rcases ReflTransGen.cases_tail h' with heq | ⟨d, hd, hdr⟩
    · exact heq
    · rw [hb.not_isRoot (mem_of_inner hr' hd) hdr] at hroot
      cases hroot
  | @tail d c hd hdc ih =>
    have hc := hb.not_isRoot (mem_of_inner hr hd) hdc
    rcases ReflTransGen.cases_tail h' with heq | ⟨d', hd', hdc'⟩
    · rw [heq, hroot'] at hc
      cases hc
    · obtain rfl := hb.consumer_unique (mem_of_inner hr hd) (mem_of_inner hr' hd') hc hinputs
        hdc.1 hdc'.1
      obtain ⟨slot, hslot, -⟩ := hdc.1
      apply ih hd' (inputs_ne_nil_of_input hslot)

/-- Where a wire that is used leads to, and where it comes from. -/
theorem UsesAt.spec {slot : Nat} (h : b.UsesAt n slot w) :
  ∃ c q, ReflTransGen b.Inner n c ∧ w.consumer = c.id ∧ b.Holds c w.slot q ∧
    w.producer = q.id ∧ q.kind.isBinding = true
  := by
  induction h with
  | @direct n p slot feed binding =>
    exact ⟨n, p, .refl, rfl, (producer_eq_ok_iff.1 feed).1, rfl, binding⟩
  | @inner n p slot slot' w feed operand use ih =>
    obtain ⟨c, q, hc, hconsumer, hq, hproducer, hbinding⟩ := ih
    -- A binding has no operands, so that the node is written in place.
    have hp : p.kind.isBinding = false := by
      cases hb : p.kind.isBinding with
      | false => rfl
      | true =>
        rw [operands_of_isBinding hb] at operand
        cases operand
    refine ⟨c, q, .head ⟨⟨slot, (producer_eq_ok_iff.1 feed).1⟩, hp⟩ hc, hconsumer, hq, hproducer,
      hbinding⟩

/-- On a linked board a wire is used by one root only. -/
theorem Linked.user_unique (hb : b.Linked) (hr : r ∈ b.nodes) (hr' : r' ∈ b.nodes)
    (hroot : r.kind.isRoot = true) (hroot' : r'.kind.isRoot = true) {slot slot' : Nat}
    (h : b.UsesAt r slot w) (h' : b.UsesAt r' slot' w) :
  r = r'
  := by
  obtain ⟨c, q, hc, hconsumer, hq, -⟩ := h.spec
  obtain ⟨c', _, hc', hconsumer', -⟩ := h'.spec
  obtain rfl := eq_of_id_eq (mem_of_inner hr hc) (mem_of_inner hr' hc')
    (hconsumer.symm.trans hconsumer')
  apply hb.root_unique hr hr' hroot hroot' hc hc' (inputs_ne_nil_of_input hq.1)

/-- No live wire from a binding is used by two roots. A root that uses a wire more than once, because
a node is written more than once within it, does no harm. -/
def WrittenOnce (b : Board) (r : Node) : Prop :=
  ∀ t t' w, b.Live r t → b.Live r t' → t.kind.isRoot = true → t'.kind.isRoot = true →
    b.UsesAt t 0 w → b.UsesAt t' 0 w → t = t'

/-- On a linked board no wire is used by two roots. -/
theorem Linked.writtenOnce (hb : b.Linked) (hr : r ∈ b.nodes) :
  b.WrittenOnce r
  := by
  intro t t' w ht ht' hroot hroot' huse huse'
  apply hb.user_unique (ht.mem hr) (ht'.mem hr) hroot hroot' huse huse'

/-! ## Declared before use -/

/-- The bindings are declared in this order, the first of them first, after certain nodes are
declared: what a binding uses is declared before it. -/
inductive Ordered (b : Board) : (Node → Prop) → List Node → Prop
  | nil {declared : Node → Prop} : Ordered b declared []
  | cons {declared : Node → Prop} {n : Node} {ns : List Node}
      (uses : ∀ w, b.UsesAt n 0 w → ∃ m, declared m ∧ m.id = w.producer)
      (rest : Ordered b (fun m => declared m ∨ m = n) ns) :
      Ordered b declared (n :: ns)

/-- One more binding may be declared at the end when everything that it uses is declared. -/
theorem Ordered.snoc {declared : Node → Prop} {ns : List Node} (h : b.Ordered declared ns)
    (uses : ∀ w, b.UsesAt n 0 w → ∃ m, (declared m ∨ m ∈ ns) ∧ m.id = w.producer) :
  b.Ordered declared (ns ++ [n])
  := by
  induction h with
  | nil =>
    apply Ordered.cons _ .nil
    intro w hw
    obtain ⟨m, hm | hm, hid⟩ := uses w hw
    · exact ⟨m, hm, hid⟩
    · cases hm
  | @cons declared n' ns' uses' _ ih =>
    apply Ordered.cons uses'
    apply ih
    intro w hw
    obtain ⟨m, hm, hid⟩ := uses w hw
    refine ⟨m, ?_, hid⟩
    rw [List.mem_cons] at hm
    tauto

/-- Bindings that are declared one by one, the last first and each when all its uses are written,
are in order. -/
theorem Settled.ordered (honce : b.WrittenOnce r) (hr : r ∈ b.nodes) {done : Node → Prop} {ns : List Node}
    (h : b.Settled r done ns) (hnodup : ns.Nodup)
    (hmem : ∀ n, n ∈ ns ↔ b.Live r n ∧ n.kind.isBinding = true ∧ ¬ done n)
    (hdone : ∀ n, done n → b.Live r n ∧ n.kind.isRoot = true)
    (hsettled : ∀ n, done n → n.kind.isBinding = true → ∀ w ∈ b.liveWires r.id, w.producer = n.id →
      ∃ m, done m ∧ b.UsesAt m 0 w) :
  b.Ordered (fun _ => False) ns
  := by
  induction h with
  | nil => exact .nil
  | @snoc done ns n used rest ih =>
    obtain ⟨hns, -, hdisjoint⟩ := List.nodup_append.1 hnodup
    obtain ⟨hn, hbinding, hnew⟩ := (hmem n).1 (by simp)
    have hroot := Kind.isRoot_of_isBinding hbinding
    -- A wire that the last one uses is used by nothing that is done.
    have hfree : ∀ w, b.UsesAt n 0 w → ¬ ∃ m, done m ∧ b.UsesAt m 0 w := by
      rintro w hw ⟨m, hm, hmw⟩
      obtain ⟨hlive, hrootm⟩ := hdone m hm
      obtain rfl := honce m n w hlive hn hrootm hroot hmw hw
      apply hnew hm
    apply Ordered.snoc
    · apply ih hns
      · intro m
        have := hmem m
        rw [List.mem_append, List.mem_singleton] at this
        have hne : m ∈ ns → m ≠ n := by
          rintro hm rfl
          apply hdisjoint m hm m (by simp) rfl
        tauto
      · rintro m (hm | rfl)
        · apply hdone m hm
        · exact ⟨hn, hroot⟩
      · rintro m (hm | rfl) hbm w hw hproducer
        · obtain ⟨m', hm', huse⟩ := hsettled m hm hbm w hw hproducer
          exact ⟨m', .inl hm', huse⟩
        · obtain ⟨m', hm', huse⟩ := used w hw hproducer
          exact ⟨m', .inl hm', huse⟩
    · intro w hw
      have hlive := mem_liveWires_of_usesAt hr hn hw
      obtain ⟨c, q, hc, -, hq, hproducer, hbq⟩ := hw.spec
      have hq' : b.Live r q := (hn.inner hc).step hq
      refine ⟨q, .inr ?_, hproducer.symm⟩
      have hqn : q ≠ n := by
        rintro rfl
        apply hfree w hw (used w hlive hproducer)
      have hqdone : ¬ done q := by
        intro h
        apply hfree w hw (hsettled q h hbq w hlive hproducer)
      have hmemq := (hmem q).2 ⟨hq', hbq, hqdone⟩
      rcases List.mem_append.1 hmemq with h | h
      · exact h
      · apply (hqn (List.mem_singleton.1 h)).elim

/-- The declarations of a function are in order when no wire is used by two roots. -/
theorem Declared.ordered_of_writtenOnce (honce : b.WrittenOnce r) (hr : r ∈ b.nodes)
    (hret : r.kind.isReturn = true) {ns : List Node} {ss : List Stmt}
    (h : b.Declared r (fun n => n = r) ns ss) :
  b.Ordered (fun _ => False) ns
  := by
  apply h.settled.ordered honce hr h.nodup h.mem_iff
  · rintro n rfl
    exact ⟨.refl, Kind.isRoot_of_isReturn hret⟩
  · rintro n rfl hbinding
    rw [Kind.not_isBinding_of_isReturn hret] at hbinding
    cases hbinding

/-- On a linked board the declarations of a function are in order. -/
theorem Declared.ordered (hb : b.Linked) (hr : r ∈ b.nodes) (hret : r.kind.isReturn = true)
    {ns : List Node} {ss : List Stmt} (h : b.Declared r (fun n => n = r) ns ss) :
  b.Ordered (fun _ => False) ns
  := h.ordered_of_writtenOnce (hb.writtenOnce hr) hr hret

/-- What the binding at a position uses is declared at a position before it, unless it was declared
before all of them. -/
theorem Ordered.declared_before {declared : Node → Prop} {ns : List Node}
    (h : b.Ordered declared ns) {j : Nat} (hn : ns[j]? = some n) (hw : b.UsesAt n 0 w) :
  (∃ m, declared m ∧ m.id = w.producer) ∨ ∃ k < j, ∃ m, ns[k]? = some m ∧ m.id = w.producer
  := by
  induction h generalizing j with
  | nil => cases hn
  | @cons declared n' ns uses _ ih =>
    cases j with
    | zero =>
      cases hn
      exact .inl (uses w hw)
    | succ j =>
      rcases ih hn with ⟨m, hm | rfl, hid⟩ | ⟨k, hk, m, hm, hid⟩
      · exact .inl ⟨m, hm, hid⟩
      · exact .inr ⟨0, Nat.succ_pos j, m, rfl, hid⟩
      · exact .inr ⟨k + 1, Nat.succ_lt_succ hk, m, hm, hid⟩

end Board

end Patchboard
