import Patchboard.Proofs.Compile.Dependence
import Patchboard.Proofs.Decimal.TotalOrder

/-!
# Positions instead of placement

The parameters of a function are sorted by position, and only those at one position keep the order in
which they were placed. So when the parameters of a function have positions of their own, and no two
returns compete for it, the order in which the nodes of the board were placed does not matter: nodes are
looked up by id, and what a return needs is found along the wires.
-/

namespace Patchboard

/-! ## Parameters among nodes -/

/-- The parameters among some nodes are the parameters among them. -/
theorem perm_parametersOf (ns : List Node) :
  (parametersOf ns).Perm (ns.filter fun n => n.kind.isParameter)
  := List.mergeSort_perm _ _

/-- The parameters among some nodes are sorted by position. -/
theorem pairwise_parametersOf (ns : List Node) :
  (parametersOf ns).Pairwise fun p q => p.x.totalLe q.x = true
  := by
  apply List.pairwise_mergeSort
  · intro p q r
    apply Binary64.totalLe_trans
  · intro p q
    apply Binary64.totalLe_total

/-- The parameters at one position keep their order. -/
theorem filter_parametersOf (ns : List Node) (x : Binary64) :
  (parametersOf ns).filter (fun p => p.x = x)
    = (ns.filter fun n => n.kind.isParameter).filter fun p => p.x = x
  := by
  symm
  apply List.Sublist.eq_of_length
  · -- All of these are in order already, so that sorting leaves them in order.
    have hsorted : ((ns.filter fun n => n.kind.isParameter).filter fun p => p.x = x).Pairwise
        fun p q => p.x.totalLe q.x = true := by
      apply List.pairwise_of_forall_mem_list
      intro p hp q hq
      rw [List.mem_filter, decide_eq_true_eq] at hp hq
      rw [hp.2, hq.2, Binary64.totalLe_iff]
    have hsublist := List.sublist_mergeSort (fun p q r => Binary64.totalLe_trans p.x q.x r.x)
      (fun p q => Binary64.totalLe_total p.x q.x) hsorted List.filter_sublist
    have hfiltered := hsublist.filter fun p => p.x = x
    rwa [List.filter_eq_self.2 fun p hp => (List.mem_filter.1 hp).2] at hfiltered
  · apply ((perm_parametersOf ns).symm.filter _).length_eq

/-- Parameters with positions of their own are sorted in one way. -/
theorem parametersOf_eq_of_perm {ns ns' : List Node} (h : ns'.Perm ns)
    (hx : ∀ p ∈ ns, ∀ q ∈ ns, p.kind.isParameter = true → q.kind.isParameter = true → p.x = q.x → p = q) :
  parametersOf ns' = parametersOf ns
  := by
  have hperm : (parametersOf ns').Perm (parametersOf ns) :=
    (perm_parametersOf ns').trans ((h.filter _).trans (perm_parametersOf ns).symm)
  apply hperm.eq_of_pairwise _ (pairwise_parametersOf ns') (pairwise_parametersOf ns)
  intro p q hp hq hpq hqp
  obtain ⟨hp, hparameter⟩ := List.mem_filter.1 ((perm_parametersOf ns').subset hp)
  obtain ⟨hq, hparameter'⟩ := List.mem_filter.1 ((perm_parametersOf ns).subset hq)
  apply hx p (h.subset hp) q hq hparameter hparameter'
  apply Binary64.isTotalOrder_totalLe.antisymm _ _ hpq hqp

namespace Board

variable {b b' : Board} {f : Node}

/-! ## Boards of the same nodes -/

/-- Boards of the same nodes find the same node by an id. -/
theorem get?_eq_of_perm (h : b'.nodes.Perm b.nodes) (id : NodeId) :
  b'.get? id = b.get? id
  := by
  apply Option.ext
  intro n
  rw [get?_eq_some_iff, get?_eq_some_iff, h.mem_iff]

/-- Boards of the same nodes agree below every id. -/
theorem agreesBelow_of_perm (h : b'.nodes.Perm b.nodes) (id : NodeId) :
  b.AgreesBelow b' id
  := by
  intro id' _
  rw [get?_eq_of_perm h]

/-- On boards of the same nodes the same nodes belong to a function. -/
theorem perm_scope (h : b'.nodes.Perm b.nodes) (f : Node) :
  (b'.scope f).Perm (b.scope f)
  := h.filter _

/-- On boards of the same nodes a function without two returns has the same one, or none. -/
theorem returnsOf_eq_of_perm (h : b'.nodes.Perm b.nodes) (hreturns : (b.returnsOf f).length ≤ 1) :
  b'.returnsOf f = b.returnsOf f
  := by
  have hperm : (b'.returnsOf f).Perm (b.returnsOf f) := (perm_scope h f).filter _
  cases hr : b.returnsOf f with
  | nil =>
    rw [hr] at hperm
    apply hperm.eq_nil
  | cons r rs =>
    rw [hr, List.length_cons, Nat.succ_le_succ_iff, Nat.le_zero, List.length_eq_zero_iff] at hreturns
    rw [hr, hreturns] at hperm
    rw [hreturns]
    apply List.perm_singleton.1 hperm

/-- On boards of the same nodes a return has the same statements. -/
theorem body_eq_of_perm (h : b'.nodes.Perm b.nodes) {r : Node} (hr : r ∈ b.nodes) (function : NodeId) :
  b'.body function r = b.body function r
  := (agreesBelow_of_perm h r.id).body hr rfl function

/-- On boards of the same nodes a function compiles to the same, if its parameters have positions of
their own and it has no two returns. -/
theorem compileFunction_eq_of_perm (h : b'.nodes.Perm b.nodes)
    (hx : ∀ p ∈ b.scope f, ∀ q ∈ b.scope f, p.kind.isParameter = true → q.kind.isParameter = true →
      p.x = q.x → p = q)
    (hreturns : (b.returnsOf f).length ≤ 1) :
  b'.compileFunction f = b.compileFunction f
  := by
  cases hk : f.kind with
  | functionDeclaration name width height =>
    have hparams : b'.paramsOf f = b.paramsOf f := by
      rw [paramsOf, paramsOf, parametersOf_eq_of_perm (perm_scope h f) hx]
    rw [compileFunction_eq hk, compileFunction_eq hk, hparams, returnsOf_eq_of_perm h hreturns]
    cases hsole : soleReturn f.id (b.returnsOf f) with
    | error d => simp only [bind, Except.bind]
    | ok r =>
      have hr := (returnsOf_spec ((soleReturn_eq_ok_iff f.id _ r).1 hsole)).1
      simp only [bind, Except.bind, body_eq_of_perm h hr]
  | _ => rw [compileFunction, compileFunction, hk]

/-- The parameters among some nodes are these in the IEEE total order of their positions, where those
at one position keep their order. Therefore boards of the same nodes, in whatever order, compile a
function to the same result or diagnostic, if its parameters have positions of their own and it has no
two returns. -/
theorem order_of_parameters :
  Binary64.IsTotalOrder Binary64.totalLe ∧
    (∀ ns : List Node,
      (parametersOf ns).Perm (ns.filter fun n => n.kind.isParameter) ∧
      ((parametersOf ns).Pairwise fun p q => p.x.totalLe q.x = true) ∧
      ∀ x, (parametersOf ns).filter (fun p => p.x = x)
        = (ns.filter fun n => n.kind.isParameter).filter fun p => p.x = x) ∧
    ∀ (b b' : Board) (f : Node), b'.nodes.Perm b.nodes →
      (∀ p ∈ b.scope f, ∀ q ∈ b.scope f, p.kind.isParameter = true → q.kind.isParameter = true →
        p.x = q.x → p = q) →
      (b.returnsOf f).length ≤ 1 →
      b'.compileFunction f = b.compileFunction f
  := by
  refine ⟨Binary64.isTotalOrder_totalLe, ?_, ?_⟩
  · intro ns
    exact ⟨perm_parametersOf ns, pairwise_parametersOf ns, filter_parametersOf ns⟩
  · intro b b' f
    apply compileFunction_eq_of_perm

/-- A function with the parameters `b` and `a` at the two zeros, the first of which is returned. -/
def zeros : Board where
  nodes := [
    ⟨⟨0⟩, .zero, .zero, .functionDeclaration "f" (.ofNat 16) (.ofNat 8)⟩,
    ⟨⟨2⟩, .negate .zero, .zero, .parameter "b" "number" false [⟨3⟩]⟩,
    ⟨⟨1⟩, .zero, .zero, .parameter "a" "string" false []⟩,
    ⟨⟨3⟩, .zero, .zero, .returnStatement "infer" false (some ⟨2⟩)⟩]
  nextId := 4
  distinct := by decide

/-- The same nodes, where the return and the parameter `a` were placed first. -/
def zerosRearranged : Board where
  nodes := [
    ⟨⟨3⟩, .zero, .zero, .returnStatement "infer" false (some ⟨2⟩)⟩,
    ⟨⟨1⟩, .zero, .zero, .parameter "a" "string" false []⟩,
    ⟨⟨0⟩, .zero, .zero, .functionDeclaration "f" (.ofNat 16) (.ofNat 8)⟩,
    ⟨⟨2⟩, .negate .zero, .zero, .parameter "b" "number" false [⟨3⟩]⟩]
  nextId := 4
  distinct := by decide

/-- The node of the function. -/
def zerosFunction : Node :=
  ⟨⟨0⟩, .zero, .zero, .functionDeclaration "f" (.ofNat 16) (.ofNat 8)⟩

/-- What the function compiles to. -/
def zerosCompiled : Function where
  name := "f"
  params := [⟨"b", ⟨.number, false⟩⟩, ⟨"a", ⟨.string, false⟩⟩]
  returnType := none
  body := [.ret (.ident "b")]

/-- In both orders the parameter at the negative zero is the first. -/
theorem order_of_parameters_zeros :
  zeros.compileFunction zerosFunction = .ok zerosCompiled ∧
    zerosRearranged.compileFunction zerosFunction = .ok zerosCompiled
  := by
  have hcompile : zeros.compileFunction zerosFunction = .ok zerosCompiled := by
    apply compileFunction_eq_ok_iff.2
    refine ⟨"f", .ofNat 16, .ofNat 8, ⟨⟨3⟩, .zero, .zero, .returnStatement "infer" false (some ⟨2⟩)⟩, rfl,
      ?_, ?_, rfl, rfl, rfl⟩
    · rw [paramsOf, parametersOf, List.mergeSort_of_pairwise (by decide +kernel)]
      rfl
    · decide +kernel
  use hcompile
  rw [← hcompile]
  apply order_of_parameters.2.2 <;> decide +kernel

end Board

end Patchboard
