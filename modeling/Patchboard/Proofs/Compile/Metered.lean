import Patchboard.Compile.Metered
import Patchboard.Proofs.Compile.Chains
import Patchboard.Proofs.Compile.Dependence
import Patchboard.Proofs.Compile.Knots
import Patchboard.Proofs.Steps

/-!
# Writing with a counter comes to an end

The steps that write a function keep pace with the recursion on the levels that are left: where the counter
stands at some depth, the levels are those between the depth and the limit. So the steps come to an end,
also where nodes are written within themselves, and come out in the same way. They leave the counter as it
was, on success and on failure, so that every statement has all the levels.
-/

namespace Patchboard

namespace Metered

variable {α β : Type} {b : Board} {function : NodeId} {depth levels : Nat}

/-! ## Steps -/

/-- The steps come out with a result from a state of the uses, with the counter at a depth, and leave the
counter there. A failure leaves the uses in some state. -/
inductive EndsAs (depth : Nat) (steps : Metered α) (u : Uses) : Except Diagnostic (α × Uses) → Prop
  | ok {a : α} {u' : Uses} (h : steps.runFrom ⟨u, depth⟩ = some (.ok a, ⟨u', depth⟩)) :
      EndsAs depth steps u (.ok (a, u'))
  | error {d : Diagnostic} {u' : Uses} (h : steps.runFrom ⟨u, depth⟩ = some (.error d, ⟨u', depth⟩)) :
      EndsAs depth steps u (.error d)

/-- At a depth the steps come out as a part of a function does, whatever the state of the uses is. -/
def Paces (depth : Nat) (steps : Metered α) (part : Lowering α) : Prop :=
  ∀ u, EndsAs depth steps u (part.run u)

/-- Steps that come out with a result do so without the last state of the uses. -/
theorem EndsAs.runFrom {steps : Metered α} {u : Uses} {result : Except Diagnostic (α × Uses)}
    (h : EndsAs depth steps u result) :
  ∃ u', steps.runFrom ⟨u, depth⟩ = some (Prod.fst <$> result, ⟨u', depth⟩)
  := by
  cases h with
  | ok h => exact ⟨_, h⟩
  | error h => exact ⟨_, h⟩

/-- Results in a row keep pace when each of them does. -/
theorem EndsAs.bind {steps : Metered α} {next : α → Metered β} {part : Lowering α} {nextPart : α → Lowering β}
    {u : Uses} (h : EndsAs depth steps u (part.run u))
    (hnext : ∀ a u', part.run u = .ok (a, u') → EndsAs depth (next a) u' ((nextPart a).run u')) :
  EndsAs depth (steps >>= next) u ((part >>= nextPart).run u)
  := by
  rw [StateT.run_bind]
  cases hpart : part.run u with
  | error d =>
    rw [hpart] at h
    obtain _ | h := h
    exact .error (run_bind_of_error h)
  | ok au =>
    obtain ⟨a, u'⟩ := au
    rw [hpart] at h
    obtain h | _ := h
    have hend := hnext a u' hpart
    show EndsAs depth (steps >>= next) u ((nextPart a).run u')
    generalize (nextPart a).run u' = result at hend ⊢
    cases hend with
    | ok hend => exact .ok ((run_bind_of_ok h).trans hend)
    | error hend => exact .error ((run_bind_of_ok h).trans hend)

/-- Steps that keep pace go on in lockstep. -/
theorem lockstep_paces (depth : Nat) :
  Lockstep fun α (steps : Metered α) (part : Lowering α) => Paces depth steps part
  where
  pure a := fun _ => .ok rfl
  throw d := fun _ => .error rfl
  bind h hnext := fun u => (h u).bind fun a u' _ => hnext a u'
  lift_bind {_ _ result _ _} hnext := by
    cases result with
    | error d => exact fun _ => .error rfl
    | ok a => exact hnext a rfl

/-! ## Expressions -/

/-- The expression in a slot keeps pace when the expressions of nodes do. -/
theorem paces_input (h : ∀ p, Paces depth (b.meteredExpr function p) (b.expr function levels p)) (n : Node)
    (slot : Nat) :
  Paces depth (b.inputWith (b.meteredExpr function) n slot) (b.inputWith (b.expr function levels) n slot)
  := by
  apply (lockstep_paces depth).inputWith
  · exact fun _ _ _ _ => .ok rfl
  · exact fun p _ => h p

/-- What comes out one level deeper comes out of the steps that are counted. -/
theorem EndsAs.within {steps : Metered Expr} {u : Uses} {result : Except Diagnostic (Expr × Uses)}
    (h : EndsAs (depth + 1) steps u result) (hdepth : depth < maxNesting) (function : NodeId) (n : Node) :
  EndsAs depth (within function n steps) u result
  := by
  cases h with
  | ok h =>
    apply EndsAs.ok
    rw [runFrom_within, if_neg (Nat.not_le.2 hdepth), h]
    rfl
  | error h =>
    apply EndsAs.error
    rw [runFrom_within, if_neg (Nat.not_le.2 hdepth), h]
    rfl

/-- At each depth the expression of a node keeps pace with the recursion on the levels that are left. -/
theorem paces_expr (b : Board) (function : NodeId) (hlevels : levels = maxNesting - depth) (n : Node) :
  Paces depth (b.meteredExpr function n) (b.expr function levels n)
  := by
  induction levels generalizing depth n with
  | zero =>
    have hdepth := Nat.sub_eq_zero_iff_le.1 hlevels.symm
    intro u
    apply EndsAs.error
    rw [Board.meteredExpr, Board.meteredExprWith, runFrom_within, if_pos hdepth]
  | succ levels ih =>
    have hparts : Paces (depth + 1) (b.exprWith (b.inputWith (b.meteredExpr function) n) n)
        (b.exprWith (b.inputWith (b.expr function levels) n) n) := by
      apply (lockstep_paces (depth + 1)).exprWith
      intro slot _
      apply paces_input
      apply ih
      omega
    intro u
    rw [Board.meteredExpr, Board.expr, Board.meteredExprWith]
    exact (hparts u).within (by omega) function n

/-! ## Statements -/

/-- The declaration of a binding keeps pace with the levels that are left. -/
theorem paces_declaration (b : Board) (function id : NodeId) (depth : Nat) :
  Paces depth (b.declarationWith function (b.meteredExpr function) id)
    (b.declarationWith function (b.expr function (maxNesting - depth)) id)
  := by
  apply (lockstep_paces depth).declarationWith
  intro n _
  apply paces_input (paces_expr b function rfl)

/-- The next declaration keeps pace where nothing else is being written. -/
theorem paces_next (b : Board) (function : NodeId) :
  Paces 0 (Board.nextWith function (b.declarationWith function (b.meteredExpr function)))
    (Board.nextWith function (b.declaration function))
  := by
  apply (lockstep_paces 0).nextWith
  · exact fun _ => .ok rfl
  · exact fun _ _ => .ok rfl
  · exact fun id => paces_declaration b function id 0

/-- Steps that go on as others come out as these. -/
theorem EndsAs.congr {steps steps' : Metered α} {u : Uses} {result : Except Diagnostic (α × Uses)}
    (hend : EndsAs depth steps' u result) (h : steps.runFrom ⟨u, depth⟩ = steps'.runFrom ⟨u, depth⟩) :
  EndsAs depth steps u result
  := by
  cases hend with
  | ok hend => exact .ok (h.trans hend)
  | error hend => exact .error (h.trans hend)

/-- What the loop does depends on whether bindings are left. -/
theorem runFrom_declarations (b : Board) (function : NodeId) (found : List Stmt) (m : Meter) :
  (b.meteredDeclarations function found).runFrom m
    = if m.uses.outstanding.isEmpty then some (.ok found, m)
      else (do
        let last ← Board.nextWith function (b.declarationWith function (b.meteredExpr function))
        b.meteredDeclarations function (last :: found) : Metered (List Stmt)).runFrom m
  := by
  rw [Board.meteredDeclarations]
  show (if m.uses.outstanding.isEmpty then pure found else _ : Metered (List Stmt)).runFrom m = _
  split <;> rfl

/-- The loop declares the bindings that are left as the recursion on their number does, in front of what
it has found. -/
theorem endsAs_declarations (b : Board) (function : NodeId) {count : Nat} {u : Uses}
    (hnodup : u.undeclared.Nodup) (hcount : u.undeclared.length = count) (found : List Stmt) :
  EndsAs 0 (b.meteredDeclarations function found) u
    ((do return (← b.declarations function count) ++ found : Lowering (List Stmt)).run u)
  := by
  induction count generalizing u found with
  | zero =>
    have hempty : u.outstanding = [] := List.map_eq_nil_iff.1 (List.length_eq_zero_iff.1 hcount)
    apply EndsAs.ok
    rw [runFrom_declarations, hempty]
    rfl
  | succ count ih =>
    have hleft : ¬ u.outstanding.isEmpty = true := by
      rw [List.isEmpty_iff_length_eq_zero, ← List.length_map Prod.fst]
      show u.undeclared.length ≠ 0
      omega
    have hsteps := runFrom_declarations b function found ⟨u, 0⟩
    rw [if_neg hleft] at hsteps
    have hend : EndsAs 0
        (Board.nextWith function (b.declarationWith function (b.meteredExpr function)) >>= fun last =>
          b.meteredDeclarations function (last :: found)) u
        ((Board.nextWith function (b.declaration function) >>= fun last => do
          return (← b.declarations function count) ++ last :: found : Lowering (List Stmt)).run u) := by
      apply (paces_next b function u).bind
      intro last u₁ hlast
      obtain ⟨id, hready, hundeclared⟩ := Board.undeclared_of_run_nextWith hlast
      have hlength := Uses.length_undeclared_declare hnodup (Uses.mem_undeclared_of_ready? hready)
      apply ih
      · rw [hundeclared]
        apply Uses.nodup_undeclared_declare hnodup
      · rw [hundeclared]
        omega
    rw [Board.declarations]
    simp only [bind_assoc, pure_bind, List.append_assoc, List.singleton_append]
    exact hend.congr hsteps

/-- What is known when nothing has been written. -/
def Meter.start : Meter :=
  ⟨⟨[], []⟩, 0⟩

/-- The return and then the declarations come out as they should from the uses that have been counted. -/
theorem endsAs_statements (b : Board) (function : NodeId) (ret : Node) :
  EndsAs 0 (b.statementsWith function (b.meteredExpr function) (b.meteredDeclarations function []) ret)
    ⟨b.uses ret.id, []⟩ ((b.statements function ret : Lowering (List Stmt)).run ⟨b.uses ret.id, []⟩)
  := by
  have hstatements : (b.statements function ret : Lowering (List Stmt)).run ⟨b.uses ret.id, []⟩
      = (b.statementsWith function (b.expr function maxNesting)
          (b.declarations function (b.uses ret.id).length) ret : Lowering (List Stmt)).run
            ⟨b.uses ret.id, []⟩ := rfl
  rw [hstatements, Board.statementsWith, Board.statementsWith]
  cases (b.dependencies ret.id).firstCycle? with
  | some ids => exact .error rfl
  | none =>
    apply (paces_input (paces_expr b function rfl) ret 0 _).bind
    intro value u hvalue
    obtain ⟨-, -, hspends⟩ := Board.run_input_ok hvalue
    have hundeclared : u.undeclared = (b.uses ret.id).map Prod.fst := hspends.undeclared
    have hnodup : u.undeclared.Nodup := by
      rw [hundeclared, Board.map_fst_uses]
      apply Board.nodup_eraseDups
    have hlength : u.undeclared.length = (b.uses ret.id).length := by
      rw [hundeclared, List.length_map]
    have hdeclarations := endsAs_declarations b function hnodup hlength []
    simp only [List.append_nil, bind_pure] at hdeclarations
    apply hdeclarations.bind
    intro ds u' _
    exact .ok rfl

/-- The statements of a function are written in a finite number of steps, in which they come out as they
should, with the counter at zero again. -/
theorem runFrom_body (b : Board) (function : NodeId) (ret : Node) :
  ∃ u, (b.meteredBody function ret).runFrom Meter.start = some (b.body function ret, ⟨u, 0⟩)
  := by
  rw [Board.meteredBody, Board.body]
  cases b.danglingWire? ret.id with
  | some w => exact ⟨_, rfl⟩
  | none => exact (endsAs_statements b function ret).runFrom

/-! ## The counter -/

/-- From every state the steps come to an end, and leave the counter as it was. -/
def Restores (steps : Metered α) : Prop :=
  ∀ m, ∃ result u, steps.runFrom m = some (result, ⟨u, m.depth⟩)

/-- Steps that keep pace with something at every depth restore the counter. -/
theorem restores_of_paces {steps : Metered α} (h : ∀ depth, ∃ part, Paces depth steps part) :
  Restores steps
  := by
  rintro ⟨u, depth⟩
  obtain ⟨part, hpart⟩ := h depth
  obtain ⟨u', hu'⟩ := (hpart u).runFrom
  exact ⟨_, u', hu'⟩

theorem restores_expr (b : Board) (function : NodeId) (n : Node) :
  Restores (b.meteredExpr function n)
  := restores_of_paces fun _ => ⟨_, paces_expr b function rfl n⟩

theorem restores_input (b : Board) (function : NodeId) (n : Node) (slot : Nat) :
  Restores (b.inputWith (b.meteredExpr function) n slot)
  := restores_of_paces fun _ => ⟨_, paces_input (paces_expr b function rfl) n slot⟩

theorem restores_declaration (b : Board) (function id : NodeId) :
  Restores (b.declarationWith function (b.meteredExpr function) id)
  := restores_of_paces fun depth => ⟨_, paces_declaration b function id depth⟩

/-- The writing of a function comes to an end on every board, and every call for a slot, a node or a
declaration leaves the counter as it was. The expressions of a compiled function nest within the limit.
The limit is that of one statement: functions may have any number of declarations, as long as there are ids
for their nodes, and nest together as deep as they have statements or deeper. -/
theorem nesting_of_statements :
  (∀ (b : Board) (function : NodeId),
    (∀ n slot, Restores (b.inputWith (b.meteredExpr function) n slot)) ∧
    (∀ n, Restores (b.meteredExpr function n)) ∧
    (∀ id, Restores (b.declarationWith function (b.meteredExpr function) id)) ∧
    ∀ ret, ∃ u, (b.meteredBody function ret).runFrom Meter.start = some (b.body function ret, ⟨u, 0⟩)) ∧
  (∀ (b : Board) (f : Node) (decl : Function), b.compileFunction f = .ok decl →
    ∀ st ∈ decl.body, ∀ e : Expr, e.Within st.expr → e.nesting ≤ maxNesting) ∧
  ∀ k, k + 2 ≤ UInt32.size → ∃ (b : Board) (f : Node) (decl : Function),
    b.compileFunction f = .ok decl ∧ decl.body.length = k + 1 ∧
      k + 1 ≤ Stmt.totalNesting decl.body
  := by
  refine ⟨?_, ?_, ?_⟩
  · intro b function
    exact ⟨restores_input b function, restores_expr b function, restores_declaration b function,
      runFrom_body b function⟩
  · intro b f decl h st hst e he
    apply Board.nesting_le_of_compileFunction h hst he
  · intro k hk
    obtain ⟨decl, hcompile, hlength⟩ := Board.exists_compileFunction_chain hk
    refine ⟨Board.chain k hk, Board.chainNode k 0, decl, hcompile, hlength, ?_⟩
    rw [← hlength]
    apply Stmt.length_le_totalNesting

/-- On a board where a sum is written within itself, writing it comes to an end; a function with a property
and a call nests within the limit; and three hundred variables are more than the limit, but compile. -/
theorem nesting_of_statements_knotted :
  (∃ result u,
    (Board.knotted.meteredExpr ⟨0⟩ Board.knottedSum).runFrom Meter.start = some (result, ⟨u, 0⟩)) ∧
    Board.sizeTwice.compileFunction Board.sizeTwiceFunction = .ok Board.sizeTwiceCompiled ∧
    (∀ st ∈ Board.sizeTwiceCompiled.body, ∀ e : Expr, e.Within st.expr → e.nesting ≤ maxNesting) ∧
    maxNesting < 300 ∧ ∃ (b : Board) (f : Node) (decl : Function),
      b.compileFunction f = .ok decl ∧ decl.body.length = 301 ∧
        301 ≤ Stmt.totalNesting decl.body
  := by
  refine ⟨?_, Board.compileFunction_sizeTwice, ?_, by decide, ?_⟩
  · exact (nesting_of_statements.1 Board.knotted ⟨0⟩).2.1 Board.knottedSum Meter.start
  · exact nesting_of_statements.2.1 _ _ _ Board.compileFunction_sizeTwice
  · exact nesting_of_statements.2.2 300 (by decide)

end Metered

end Patchboard
