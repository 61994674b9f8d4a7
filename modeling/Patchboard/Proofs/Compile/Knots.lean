import Patchboard.Proofs.Board.Runs
import Patchboard.Proofs.Compile.Cycles

/-!
# Knots are not live

Expressions that are written within each other form a knot, and edits can tie one. On a checked board a
knot is out of reach of every return: a node that is written in place has one consumer, so that the way
from a root into a knot could only come from within the knot, and a root is written within nothing. What
is reported as a cycle are therefore bindings.
-/

namespace Patchboard

open Relation (ReflTransGen TransGen)

namespace Board

variable {b : Board} {f r t n c : Node} {g : NodeId} {ids : List NodeId}

/-! ## Ways into a knot -/

/-- On a linked board what is written within a root is not written within itself. -/
theorem Linked.not_transGen_inner (hb : b.Linked) (ht : t ∈ b.nodes) (hroot : t.kind.isRoot = true)
    (hc : ReflTransGen b.Inner t c) :
  ¬ TransGen b.Inner c c
  := by
  induction hc with
  | refl =>
    intro hloop
    obtain ⟨d, hd, hdt⟩ := TransGen.tail'_iff.1 hloop
    rw [hb.not_isRoot (mem_of_inner ht hd) hdt] at hroot
    cases hroot
  | @tail d c hd hdc ih =>
    intro hloop
    -- The node before `c` on the loop is the node before `c` on the way, since `c` has one consumer.
    obtain ⟨e, hce, hec⟩ := TransGen.tail'_iff.1 hloop
    obtain ⟨_, ⟨⟨slot, hslot, -⟩, -⟩, -⟩ := TransGen.head'_iff.1 hloop
    have hdmem := mem_of_inner ht hd
    have hemem := mem_of_inner ht ((hd.tail hdc).trans hce)
    obtain rfl := hb.consumer_unique hdmem hemem (hb.not_isRoot hdmem hdc)
      (inputs_ne_nil_of_input hslot) hdc.1 hec.1
    apply ih
    apply TransGen.head' hdc hce

/-- On a linked board nothing that a return needs is written within itself. -/
theorem Linked.not_transGen_inner_of_live (hb : b.Linked) (hr : r ∈ b.nodes)
    (hret : r.kind.isReturn = true) (hn : b.Live r n) :
  ¬ TransGen b.Inner n n
  := by
  obtain ⟨t, ht, hroot, hpath⟩ := exists_root hn
  apply hb.not_transGen_inner (ht.mem hr) _ hpath
  rcases hroot with rfl | hbinding
  · apply Kind.isRoot_of_isReturn hret
  · apply Kind.isRoot_of_isBinding hbinding

/-! ## Cycles that are reported -/

/-- A function is reported for a cycle only where its statements are. -/
theorem exists_body_eq_cycle (h : b.compileFunction f = .error (.cycle g ids)) :
  ∃ r, b.returnsOf f = [r] ∧ b.body f.id r = .error (.cycle g ids)
  := by
  rcases compileFunction_eq_error h with ⟨-, hd⟩ | hparams | hsole | ⟨r, hsole, htype | hbody⟩
  · cases hd
  · obtain ⟨p, _, type, _, _, -, -, hd, -⟩ := paramsOf_eq_error hparams
    cases hd
  · unfold soleReturn at hsole
    split at hsole <;> cases hsole
  · rw [Node.returnType] at htype
    split at htype
    · cases (ValueType.declared_eq_error htype).1
    · cases htype
  · exact ⟨r, hsole, hbody⟩

/-- On a linked board the nodes that are reported as a cycle are live bindings. -/
theorem Linked.isBinding_of_body_eq_cycle (hb : b.Linked) (hr : r ∈ b.nodes)
    (hret : r.kind.isReturn = true) (h : b.body f.id r = .error (.cycle g ids)) :
  ∀ id ∈ ids, ∃ n, b.Live r n ∧ n.kind.isBinding = true ∧ n.id = id
  := by
  intro id hid
  rcases (body_eq_cycle hr hret h).2 with hknot | ⟨declared, hstalled⟩
  · obtain ⟨n, hn, -, hloop⟩ := hknot.loops id hid
    apply (hb.not_transGen_inner_of_live hr hret hn hloop).elim
  · apply ((hstalled.mem_iff id).1 hid).2

/-! ## Knots elsewhere -/

/-- Edits that place a function with a return, two variables that name each other, one of which is
returned, and two operations that feed each other. -/
def knottedEdits : List Edit := [
  .add (.fresh .functionDeclaration) (.fresh .functionDeclaration) (.ofNat 0) (.ofNat 0),
  .add (Kind.freshVariable "v" "infer") (.variableStatement "v" "infer") (.ofNat 0) (.ofNat 0),
  .add (Kind.freshVariable "w" "infer") (.variableStatement "w" "infer") (.ofNat 0) (.ofNat 0),
  .add (.fresh .returnStatement) (.fresh .returnStatement) (.ofNat 0) (.ofNat 0),
  .add (Kind.freshBinary "+") (.binary "+") (.ofNat 0) (.ofNat 0),
  .add (Kind.freshBinary "*") (.binary "*") (.ofNat 0) (.ofNat 0),
  .connect ⟨1⟩ 0 ⟨2⟩, .connect ⟨2⟩ 0 ⟨1⟩, .connect ⟨3⟩ 0 ⟨1⟩, .connect ⟨4⟩ 0 ⟨5⟩, .connect ⟨5⟩ 0 ⟨4⟩]

/-- The node of the function. -/
def knottedFunction : Node :=
  ⟨⟨0⟩, .ofNat 0, .ofNat 0, .functionDeclaration "f1" (.ofNat 16) (.ofNat 8)⟩

/-- The return. -/
def knottedReturn : Node :=
  ⟨⟨3⟩, .ofNat 0, .ofNat 0, .returnStatement "infer" false (some ⟨1⟩)⟩

/-- The sum, one of the two operations. -/
def knottedSum : Node :=
  ⟨⟨4⟩, .ofNat 0, .ofNat 0, .binaryExpression "+" (some ⟨5⟩) none (some ⟨5⟩)⟩

/-- The product, the other one. -/
def knottedProduct : Node :=
  ⟨⟨5⟩, .ofNat 0, .ofNat 0, .binaryExpression "*" (some ⟨4⟩) none (some ⟨4⟩)⟩

/-- The board that the edits make. -/
def knotted : Board where
  nodes := [
    knottedFunction,
    ⟨⟨1⟩, .ofNat 0, .ofNat 0, .variableStatement ⟨"v", "infer", false, some ⟨2⟩, [⟨2⟩, ⟨3⟩]⟩⟩,
    ⟨⟨2⟩, .ofNat 0, .ofNat 0, .variableStatement ⟨"w", "infer", false, some ⟨1⟩, [⟨1⟩]⟩⟩,
    knottedReturn,
    knottedSum,
    knottedProduct]
  nextId := 6
  distinct := by decide

/-- The edits make the board. -/
theorem foldl_apply_knottedEdits :
  knottedEdits.foldl apply empty = knotted
  := by
  decide

/-- On the board the sum is written within itself. -/
theorem transGen_inner_knotted :
  TransGen knotted.Inner knottedSum knottedSum
  := by
  have hproduct : knotted.Inner knottedSum knottedProduct := ⟨⟨0, rfl, by decide⟩, rfl⟩
  have hsum : knotted.Inner knottedProduct knottedSum := ⟨⟨0, rfl, by decide⟩, rfl⟩
  exact .tail (.single hproduct) hsum

/-- On a checked board, where the wires that a return needs can be counted, no cycle of expressions is
found among them, and none is live; and what a function is reported for as a cycle are live bindings.
This is so although edits can make such a cycle, on a board where the wires of a return can be counted. -/
theorem no_live_knot :
  (∀ b : Board, b.validate = .ok () →
    (∀ r ∈ b.nodes, r.kind.isReturn = true → b.danglingWire? r.id = none →
      (b.dependencies r.id).firstCycle? = none ∧ ∀ n, b.Live r n → ¬ TransGen b.Inner n n) ∧
    ∀ f g ids, b.compileFunction f = .error (.cycle g ids) →
      ∃ r, b.returnsOf f = [r] ∧
        ∀ id ∈ ids, ∃ n, b.Live r n ∧ n.kind.isBinding = true ∧ n.id = id) ∧
  ∃ edits : List Edit, ∃ b : Board, b = edits.foldl apply empty ∧
    (∃ r ∈ b.nodes, r.kind.isReturn = true ∧ b.danglingWire? r.id = none) ∧
    ∃ n ∈ b.nodes, TransGen b.Inner n n
  := by
  constructor
  · intro b hb
    have hlinked := linked_of_validate hb
    constructor
    · intro r hr hret hgrounded
      have hacyclic : ∀ n, b.Live r n → ¬ TransGen b.Inner n n :=
        fun n hn => hlinked.not_transGen_inner_of_live hr hret hn
      refine ⟨?_, hacyclic⟩
      apply (firstCycle?_dependencies_eq_none_iff hr _).2 hacyclic
      apply (danglingWire?_eq_none_iff hr).1 hgrounded
    · intro f g ids h
      obtain ⟨r, hsole, hbody⟩ := exists_body_eq_cycle h
      obtain ⟨hr, hret⟩ := returnsOf_spec hsole
      exact ⟨r, hsole, hlinked.isBinding_of_body_eq_cycle hr hret hbody⟩
  · refine ⟨knottedEdits, knotted, foldl_apply_knottedEdits.symm, ?_, ?_⟩
    · refine ⟨knottedReturn, ?_, rfl, ?_⟩ <;> decide
    · exact ⟨knottedSum, by decide, transGen_inner_knotted⟩

/-- The board with two operations that feed each other is checked, no cycle is found among what its return
needs, and the function is reported for its two variables. -/
theorem no_live_knot_knotted :
  knotted.validate = .ok () ∧ TransGen knotted.Inner knottedSum knottedSum ∧
    (knotted.dependencies knottedReturn.id).firstCycle? = none ∧
    knotted.compileFunction knottedFunction = .error (.cycle ⟨0⟩ [⟨1⟩, ⟨2⟩]) ∧
    ∃ r, knotted.returnsOf knottedFunction = [r] ∧ ∀ id ∈ [(⟨1⟩ : NodeId), ⟨2⟩],
      ∃ n, knotted.Live r n ∧ n.kind.isBinding = true ∧ n.id = id
  := by
  have hvalid : knotted.validate = .ok () := by decide
  have hcompile : knotted.compileFunction knottedFunction = .error (.cycle ⟨0⟩ [⟨1⟩, ⟨2⟩]) := by
    show (((List.mergeSort [] _).filterMap _).mapM id >>= _) = _
    rw [List.mergeSort_nil]
    rfl
  obtain ⟨hfirst, hcycle⟩ := no_live_knot.1 knotted hvalid
  refine ⟨hvalid, transGen_inner_knotted, ?_, hcompile, hcycle _ _ _ hcompile⟩
  apply (hfirst knottedReturn _ rfl _).1 <;> decide

end Board

end Patchboard
