import Patchboard.Proofs.Compile.Nesting
import Patchboard.Proofs.Compile.Success

/-!
# Chains of variables

The limit on the nesting is that of one statement. A chain of variables, each of which names the one
before, compiles to as many declarations as it has variables, however many these are: none of them nests,
since a binding is written by name.
-/

namespace Patchboard

open Relation (ReflTransGen TransGen)

namespace Board

variable {n : Node}

/-- The payloads of a chain: a function, then `k` variables that each name what stands before, and a return
of the last one. -/
def chainKind (k : Nat) : Nat → Kind
  | 0 => .functionDeclaration "f" (.ofNat 16) (.ofNat 8)
  | i + 1 =>
    if i < k then .variableStatement ⟨"v", "infer", false, some ⟨.ofNat i⟩, [⟨.ofNat (i + 2)⟩]⟩
    else .returnStatement "infer" false (some ⟨.ofNat i⟩)

/-- A node of a chain. -/
def chainNode (k i : Nat) : Node :=
  ⟨⟨.ofNat i⟩, .zero, .zero, chainKind k i⟩

theorem kind_chainNode (k i : Nat) :
  (chainNode k i).kind = chainKind k i
  := rfl

variable {k i j : Nat}

/-- Small numbers are the ids of distinct nodes. -/
theorem nodeId_ofNat_inj (hi : i < UInt32.size) (hj : j < UInt32.size) :
  (⟨.ofNat i⟩ : NodeId) = ⟨.ofNat j⟩ ↔ i = j
  := by
  rw [NodeId.mk.injEq]
  constructor
  · intro h
    have hnat := congrArg UInt32.toNat h
    rwa [UInt32.toNat_ofNat_of_lt' hi, UInt32.toNat_ofNat_of_lt' hj] at hnat
  · rintro rfl
    rfl

/-- The board of a chain. -/
def chain (k : Nat) (hk : k + 2 ≤ UInt32.size) : Board where
  nodes := (List.range (k + 2)).map (chainNode k)
  nextId := .ofNat (k + 2)
  distinct := by
    rw [List.map_map]
    apply List.Nodup.map_on _ List.nodup_range
    intro i hi j hj h
    rw [List.mem_range] at hi hj
    exact (nodeId_ofNat_inj (hi.trans_le hk) (hj.trans_le hk)).1 h

theorem inputs_chainKind_succ (k i : Nat) :
  (chainKind k (i + 1)).inputs = [some ⟨.ofNat i⟩]
  := by
  rw [chainKind]
  split <;> rfl

theorem isBinding_chainKind (k i : Nat) :
  (chainKind k i).isBinding = true ↔ 0 < i ∧ i ≤ k
  := by
  cases i with
  | zero => simp [chainKind, Kind.isBinding]
  | succ i =>
    rw [chainKind]
    split <;> simp [Kind.isBinding] <;> omega

theorem isReturn_chainKind (k i : Nat) :
  (chainKind k i).isReturn = true ↔ k < i
  := by
  cases i with
  | zero => simp [chainKind, Kind.isReturn]
  | succ i =>
    rw [chainKind]
    split <;> simp [Kind.isReturn] <;> omega

/-- No node of a chain is written with parts. -/
theorem operands_chainNode (b : Board) (k i : Nat) :
  b.operands (chainNode k i) = []
  := by
  cases i with
  | zero => rfl
  | succ i =>
    rw [operands, chainNode, chainKind]
    split <;> split at * <;> simp_all

section

variable {hk : k + 2 ≤ UInt32.size}

theorem mem_chain :
  n ∈ (chain k hk).nodes ↔ ∃ i < k + 2, chainNode k i = n
  := by
  simp only [chain, List.mem_map, List.mem_range]

/-- A node of a chain is known by its place. -/
theorem chainNode_inj (hk : k + 2 ≤ UInt32.size) (hi : i < k + 2) (hj : j < k + 2) :
  chainNode k i = chainNode k j ↔ i = j
  := by
  constructor
  · intro h
    exact (nodeId_ofNat_inj (hi.trans_le hk) (hj.trans_le hk)).1 (congrArg Node.id h)
  · rintro rfl
    rfl

/-- A node of a chain holds the one before it. -/
theorem holds_chain (hi : i < k + 2) {slot : Nat} {p : Node} :
  (chain k hk).Holds (chainNode k i) slot p ↔ slot = 0 ∧ ∃ j, i = j + 1 ∧ p = chainNode k j
  := by
  rw [Holds, Kind.input]
  constructor
  · rintro ⟨hslot, hp⟩
    obtain ⟨j, hj, rfl⟩ := mem_chain.1 hp
    cases i with
    | zero => cases hslot
    | succ i =>
      rw [kind_chainNode, inputs_chainKind_succ] at hslot
      cases slot with
      | zero =>
        have hij := (nodeId_ofNat_inj (by omega) (by omega)).1 (Option.some.inj hslot)
        exact ⟨rfl, i, rfl, by rw [hij]⟩
      | succ slot => cases hslot
  · rintro ⟨rfl, j, rfl, rfl⟩
    rw [kind_chainNode, inputs_chainKind_succ]
    exact ⟨rfl, mem_chain.2 ⟨j, by omega, rfl⟩⟩

/-- A chain runs down from each of its nodes. -/
theorem needs_chain (hi : i < k + 2) (hij : j ≤ i) :
  ReflTransGen (chain k hk).Needs (chainNode k i) (chainNode k j)
  := by
  induction i, hij using Nat.le_induction with
  | base => exact .refl
  | succ i _ ih =>
    apply ReflTransGen.head _ (ih (by omega))
    exact ⟨0, (holds_chain hi).2 ⟨rfl, i, rfl, rfl⟩⟩

/-- A chain only runs down. -/
theorem lt_of_needs_chain (hi : i < k + 2) (h : TransGen (chain k hk).Needs (chainNode k i) n) :
  ∃ j < i, n = chainNode k j
  := by
  induction h with
  | single h =>
    obtain ⟨slot, hslot⟩ := h
    obtain ⟨-, j, rfl, rfl⟩ := (holds_chain hi).1 hslot
    exact ⟨j, Nat.lt_succ_self j, rfl⟩
  | tail _ h ih =>
    obtain ⟨j, hj, rfl⟩ := ih
    obtain ⟨slot, hslot⟩ := h
    obtain ⟨-, j', rfl, rfl⟩ := (holds_chain (by omega)).1 hslot
    exact ⟨j', by omega, rfl⟩

/-- In a chain no node leads to itself. -/
theorem acyclic_chain (hn : n ∈ (chain k hk).nodes) :
  ¬ TransGen (chain k hk).Needs n n
  := by
  obtain ⟨i, hi, rfl⟩ := mem_chain.1 hn
  intro h
  obtain ⟨j, hj, heq⟩ := lt_of_needs_chain hi h
  rw [chainNode_inj hk hi (by omega)] at heq
  omega

/-- Only the variables of a chain fan out, each to the next node. -/
theorem outputs_chainKind (k i : Nat) :
  (chainKind k i).outputs = if (chainKind k i).isFanOut then [⟨.ofNat (i + 1)⟩] else []
  := by
  cases i with
  | zero => rfl
  | succ i =>
    rw [chainKind]
    split <;> rfl

theorem isFanOut_chainKind (k i : Nat) :
  (chainKind k i).isFanOut = (chainKind k i).isBinding
  := by
  cases i with
  | zero => rfl
  | succ i =>
    rw [chainKind]
    split <;> rfl

/-- No node of a chain has a place for a single consumer. -/
theorem not_isSingleOutput_chainKind (k i : Nat) :
  (chainKind k i).isSingleOutput = false ∧ (chainKind k i).output = none
  := by
  cases i with
  | zero => exact ⟨rfl, rfl⟩
  | succ i =>
    rw [chainKind]
    split <;> exact ⟨rfl, rfl⟩

/-- A node of a chain feeds the next one, and no other. -/
theorem mem_inputs_chainNode (hk : k + 2 ≤ UInt32.size) (hi : i < k + 2) (hj : j < k + 2) :
  some (chainNode k j).id ∈ (chainNode k i).kind.inputs ↔ i = j + 1
  := by
  cases i with
  | zero => simp [kind_chainNode, chainKind, Kind.inputs]
  | succ i =>
    rw [kind_chainNode, inputs_chainKind_succ, List.mem_singleton, Option.some_inj, Nat.succ_inj, eq_comm]
    apply nodeId_ofNat_inj (by omega) (by omega)

/-- A node of a chain has one slot at most. -/
theorem nodup_inputs_chainNode (k i : Nat) :
  (chainNode k i).kind.inputs.Nodup
  := by
  cases i with
  | zero => exact List.nodup_nil
  | succ i =>
    rw [kind_chainNode, inputs_chainKind_succ]
    exact List.nodup_singleton _

/-- The ends of the wires in a chain agree. -/
theorem linked_chain (hk : k + 2 ≤ UInt32.size) :
  (chain k hk).Linked
  := by
  constructor
  · intro n hn p hp hfan
    obtain ⟨i, hi, rfl⟩ := mem_chain.1 hn
    obtain ⟨j, hj, rfl⟩ := mem_chain.1 hp
    have houtputs : (chainNode k j).kind.outputs = [⟨.ofNat (j + 1)⟩] :=
      (outputs_chainKind k j).trans (if_pos hfan)
    have hvariable := (isBinding_chainKind k j).1 ((isFanOut_chainKind k j).symm.trans hfan)
    rw [houtputs, (nodup_inputs_chainNode k i).count, (List.nodup_singleton _).count]
    apply if_congr _ rfl rfl
    rw [mem_inputs_chainNode hk hi hj, List.mem_singleton]
    exact (nodeId_ofNat_inj (by omega) (by omega)).symm
  · intro n hn p hp hsingle
    obtain ⟨j, hj, rfl⟩ := mem_chain.1 hp
    cases (not_isSingleOutput_chainKind k j).1.symm.trans hsingle
  · intro n hn p hp hret hin
    obtain ⟨i, hi, rfl⟩ := mem_chain.1 hn
    obtain ⟨j, hj, rfl⟩ := mem_chain.1 hp
    have hlast := (isReturn_chainKind k j).1 hret
    have hnext := (mem_inputs_chainNode hk hi hj).1 hin
    omega
  · intro p hp id hid
    obtain ⟨j, hj, rfl⟩ := mem_chain.1 hp
    rw [kind_chainNode, Kind.consumers, (not_isSingleOutput_chainKind k j).2, outputs_chainKind,
      isFanOut_chainKind] at hid
    split at hid
    · next hbinding =>
      have hvariable := (isBinding_chainKind k j).1 hbinding
      obtain rfl := List.mem_singleton.1 hid
      apply List.mem_map_of_mem (mem_chain.2 ⟨j + 1, by omega, rfl⟩)
    · cases hid

/-- Every node of a chain is complete. -/
theorem complete_chain (hn : n ∈ (chain k hk).nodes) :
  (chain k hk).Complete n
  := by
  obtain ⟨i, hi, rfl⟩ := mem_chain.1 hn
  cases i with
  | zero =>
    constructor
    · intro slot hslot
      cases hslot
    · exact trivial
  | succ i =>
    constructor
    · intro slot hslot
      rw [kind_chainNode, inputs_chainKind_succ, List.length_singleton, Nat.lt_one_iff] at hslot
      exact ⟨chainNode k i, (holds_chain hi).2 ⟨hslot, i, rfl, rfl⟩⟩
    · rw [Fits, chainNode, chainKind]
      by_cases hik : i < k
      · simp only [if_pos hik]
        exact List.mem_cons_self
      · simp only [if_neg hik]

/-- The slots of a chain hold nothing that nests. -/
theorem slotNests_chain (n : Node) (slot : Nat) :
  (chain k hk).SlotNests n slot
  := by
  intro p hp
  obtain ⟨i, -, rfl⟩ := mem_chain.1 hp.2
  apply nestsWithin_of_operands (operands_chainNode _ k i)

/-- The variables and the return of a chain belong to the function. -/
theorem belongsTo_chainNode (k i : Nat) :
  (chainNode k (i + 1)).belongsTo (chainNode k 0) = true
  := by
  have hwithin : Node.within ⟨⟨0⟩, .zero, .zero, .fresh .identifier⟩ ⟨⟨0⟩, .zero, .zero, .fresh .identifier⟩
      (.ofNat 16) (.ofNat 8) = true := by
    decide +kernel
  have hfunction : (chainKind k (i + 1)).isFunction = false := by
    rw [chainKind]
    split <;> rfl
  exact Bool.and_eq_true_iff.2 ⟨congrArg not hfunction, hwithin⟩

/-- The return is the only one that belongs to the function. -/
theorem returnsOf_chain (hk : k + 2 ≤ UInt32.size) :
  (chain k hk).returnsOf (chainNode k 0) = [chainNode k (k + 1)]
  := by
  have hreturns : ∀ i, ((chainNode k i).kind.isReturn && (chainNode k i).belongsTo (chainNode k 0))
      = decide (k < i) := by
    intro i
    rw [Bool.eq_iff_iff, Bool.and_eq_true_iff, decide_eq_true_iff, kind_chainNode, isReturn_chainKind]
    constructor
    · exact And.left
    · intro hi
      obtain ⟨j, rfl⟩ := Nat.exists_eq_succ_of_ne_zero (Nat.ne_zero_of_lt hi)
      exact ⟨hi, belongsTo_chainNode k j⟩
  have hnone : (List.range (k + 1)).filter (fun i => decide (k < i)) = [] := by
    apply List.filter_eq_nil_iff.2
    intro i hi
    rw [List.mem_range] at hi
    simp only [decide_eq_true_iff]
    omega
  rw [returnsOf, scope, List.filter_filter, chain, List.filter_map]
  simp only [Function.comp_def, hreturns]
  rw [List.range_succ, List.filter_append, hnone, List.filter_singleton]
  simp

/-- No parameter belongs to the function. -/
theorem paramsOf_chain (hk : k + 2 ≤ UInt32.size) :
  (chain k hk).paramsOf (chainNode k 0) = .ok []
  := by
  have hnone : ((chain k hk).scope (chainNode k 0)).filter (fun n => n.kind.isParameter) = [] := by
    apply List.filter_eq_nil_iff.2
    intro n hn
    obtain ⟨i, -, rfl⟩ := mem_chain.1 (mem_of_mem_scope hn)
    cases i with
    | zero => simp [kind_chainNode, chainKind, Kind.isParameter]
    | succ i =>
      rw [kind_chainNode, chainKind]
      split <;> simp [Kind.isParameter]
  rw [paramsOf, parametersOf, hnone, List.mergeSort_nil]
  rfl

/-- A chain compiles to one declaration for each of its variables, and the return. -/
theorem exists_compileFunction_chain (hk : k + 2 ≤ UInt32.size) :
  ∃ decl, (chain k hk).compileFunction (chainNode k 0) = .ok decl ∧ decl.body.length = k + 1
  := by
  have hr : chainNode k (k + 1) ∈ (chain k hk).nodes := mem_chain.2 ⟨k + 1, by omega, rfl⟩
  have hreturn : (chainNode k (k + 1)).kind.isReturn = true :=
    (isReturn_chainKind k (k + 1)).2 (Nat.lt_succ_self k)
  obtain ⟨ss, hbody⟩ : ∃ ss, (chain k hk).body (chainNode k 0).id (chainNode k (k + 1)) = .ok ss := by
    apply (isOk_body_iff (linked_chain hk) hr hreturn).2
    refine ⟨fun n hn => complete_chain (hn.mem hr), fun n hn => acyclic_chain (hn.mem hr),
      slotNests_chain _ 0, fun n _ _ => slotNests_chain n 0⟩
  have hkind : (chainNode k (k + 1)).kind = .returnStatement "infer" false (some ⟨.ofNat k⟩) :=
    if_neg (Nat.lt_irrefl k)
  have htype : (chainNode k (k + 1)).returnType = .ok none := by
    rw [Node.returnType, hkind]
    rfl
  refine ⟨⟨"f", [], none, ss⟩, ?_, ?_⟩
  · apply compileFunction_eq_ok_iff.2
    exact ⟨"f", .ofNat 16, .ofNat 8, _, rfl, paramsOf_chain hk, returnsOf_chain hk, htype, hbody, rfl⟩
  · obtain ⟨-, ns, ds, value, rfl, -, hdeclared⟩ := body_ok hr hreturn hbody
    -- The bindings that the return needs are the variables.
    have hperm : ns.Perm ((List.range k).map fun i => chainNode k (i + 1)) := by
      have hnodup : ((List.range k).map fun i => chainNode k (i + 1)).Nodup := by
        apply List.Nodup.map_on _ List.nodup_range
        intro i hi j hj h
        rw [List.mem_range] at hi hj
        have hij := (chainNode_inj hk (by omega) (by omega)).1 h
        omega
      apply (List.perm_ext_iff_of_nodup hdeclared.nodup hnodup).2
      intro n
      rw [hdeclared.mem_iff_of_isReturn hreturn, List.mem_map]
      constructor
      · rintro ⟨hn, hbinding⟩
        obtain ⟨i, hi, rfl⟩ := mem_chain.1 (hn.mem hr)
        obtain ⟨hpos, hik⟩ := (isBinding_chainKind k i).1 hbinding
        exact ⟨i - 1, List.mem_range.2 (by omega), by rw [Nat.sub_add_cancel hpos]⟩
      · rintro ⟨i, hi, rfl⟩
        rw [List.mem_range] at hi
        exact ⟨needs_chain (Nat.lt_succ_self _) (by omega),
          (isBinding_chainKind k (i + 1)).2 ⟨Nat.succ_pos i, hi⟩⟩
    rw [List.length_append, ← hdeclared.declares.length_eq, hperm.length_eq, List.length_map,
      List.length_range, List.length_singleton]

end

end Board

end Patchboard
