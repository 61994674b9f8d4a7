import Patchboard.Proofs.Compile.Composition

/-!
# How deep statements nest

An expression nests no deeper than the nodes that it is written from, and what is written for a statement
is limited. So every expression of a compiled function nests within the limit.
-/

namespace Patchboard

open Relation (ReflTransGen)

mutual

/-- How deep an expression nests. The callee of a call does not count. -/
def Expr.nesting : Expr → Nat
  | .literal _ | .ident _ => 1
  | .binary left _ right => 1 + max left.nesting right.nesting
  | .conditional test consequent alternate =>
    1 + max test.nesting (max consequent.nesting alternate.nesting)
  | .call _ args => 1 + deepest args
  | .member object _ => 1 + object.nesting
  | .index object key => 1 + max object.nesting key.nesting

/-- How deep the deepest of some expressions nests. -/
def Expr.deepest : List Expr → Nat
  | [] => 0
  | e :: es => max e.nesting (deepest es)

end

/-- Expressions that do not nest deeper than a bound have their deepest below it. -/
theorem Expr.deepest_le_iff {es : List Expr} {k : Nat} :
  deepest es ≤ k ↔ ∀ e ∈ es, e.nesting ≤ k
  := by
  induction es with
  | nil => simp [deepest]
  | cons e es ih => simp [deepest, ih]

/-- An expression has one level at least. -/
theorem Expr.one_le_nesting (e : Expr) :
  1 ≤ e.nesting
  := by
  cases e <;> simp [nesting]

/-- How deep some statements nest together. -/
def Stmt.totalNesting : List Stmt → Nat
  | [] => 0
  | st :: sts => st.expr.nesting + totalNesting sts

/-- Each statement adds a level at least. -/
theorem Stmt.length_le_totalNesting (sts : List Stmt) :
  sts.length ≤ totalNesting sts
  := by
  induction sts with
  | nil => exact Nat.le_refl 0
  | cons st sts ih =>
    have hfirst := st.expr.one_le_nesting
    rw [List.length_cons, totalNesting]
    omega

/-- An expression nests one level deeper than its parts. -/
theorem Head.nesting_le_of_build? {h : Head} {es : List Expr} {e : Expr} (hbuild : h.build? es = some e)
    {k : Nat} (hparts : ∀ part ∈ es, part.nesting ≤ k) :
  e.nesting ≤ k + 1
  := by
  rw [Nat.add_comm k]
  unfold build? at hbuild
  split at hbuild <;> cases hbuild <;> simp_all [Expr.nesting, Expr.deepest_le_iff]

namespace Board

variable {b : Board} {f r n : Node} {e part : Expr}

/-! ## Statements -/

/-- What a node is written as, and what occurs in it, nests as deep as the nodes below the node may. -/
theorem WrittenAs.nesting_le (h : b.WrittenAs n e) {levels : Nat} (hnests : b.NestsWithin levels n)
    (hpart : part.Within e) :
  part.nesting ≤ levels
  := by
  induction h generalizing levels part with
  | @node n head e feed parts _ hfeed _ hbuild ih =>
    cases levels with
    | zero => exact (b.not_nestsWithin_zero n hnests).elim
    | succ levels =>
      rw [nestsWithin_succ_iff] at hnests
      have hbelow : ∀ slot ∈ b.operands n, ∀ part : Expr, part.Within (parts slot) →
          part.nesting ≤ levels := by
        intro slot hslot part
        apply ih slot hslot
        apply hnests
        exact ⟨slot, hslot, (producer_eq_ok_iff.1 (hfeed slot hslot)).1⟩
      rcases ReflTransGen.cases_head hpart with rfl | ⟨child, hchild, hpart⟩
      · apply Head.nesting_le_of_build? hbuild
        intro part hmem
        obtain ⟨slot, hslot, rfl⟩ := List.mem_map.1 hmem
        apply hbelow slot hslot _ .refl
      · rcases (Head.mem_children_of_build? hbuild child).1 hchild with hmem | ⟨name, -, rfl⟩
        · obtain ⟨slot, hslot, rfl⟩ := List.mem_map.1 hmem
          apply Nat.le_succ_of_le (hbelow slot hslot _ hpart)
        · rcases ReflTransGen.cases_head hpart with rfl | ⟨_, hnone, -⟩
          · apply Nat.le_add_left
          · cases hnone

/-- What a slot is written as nests as deep as what the slot holds may. -/
theorem SlotWrittenAs.nesting_le {slot : Nat} (h : b.SlotWrittenAs n slot e) (hnests : b.SlotNests n slot)
    (hpart : part.Within e) :
  part.nesting ≤ maxNesting
  := by
  obtain ⟨p, hp, hwritten⟩ := h
  apply hwritten.nesting_le _ hpart
  apply hnests p (producer_eq_ok_iff.1 hp).1

/-- The expressions of a compiled function nest within the limit. -/
theorem nesting_le_of_compileFunction {decl : Function} (h : b.compileFunction f = .ok decl) {st : Stmt}
    (hst : st ∈ decl.body) (he : e.Within st.expr) :
  e.nesting ≤ maxNesting
  := by
  obtain ⟨_, _, _, r, -, -, hret, -, hbody, -⟩ := compileFunction_eq_ok_iff.1 h
  obtain ⟨hr, hreturn⟩ := returnsOf_spec hret
  obtain ⟨hnests, ns, ds, value, hss, hvalue, hdeclared⟩ := body_ok hr hreturn hbody
  rw [hss, List.mem_append, List.mem_singleton] at hst
  rcases hst with hst | rfl
  · obtain ⟨i, hi, rfl⟩ := List.getElem_of_mem hst
    have hi' : i < ns.length := hdeclared.declares.length_eq ▸ hi
    obtain ⟨x, type, init, -, -, hinit, hst⟩ := hdeclared.declares.get hi' hi
    simp only [List.get_eq_getElem] at hst
    rw [hst] at he
    apply hinit.nesting_le (hdeclared.nests _ (List.getElem_mem hi')) he
  · apply hvalue.nesting_le hnests he

/-- What is written without parts nests within any limit. -/
theorem nestsWithin_of_operands (h : b.operands n = []) (levels : Nat) :
  b.NestsWithin (levels + 1) n
  := by
  rw [nestsWithin_succ_iff]
  rintro p ⟨slot, hslot, -⟩
  rw [h] at hslot
  cases hslot

end Board

end Patchboard
