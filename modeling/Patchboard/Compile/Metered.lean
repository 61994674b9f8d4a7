import Patchboard.Compile.Lowering
import Patchboard.Proofs.Compile.Lockstep
import Patchboard.Proofs.Steps

/-!
# Writing with a counter

A function as it is written, step by step, on a state that is changed while it is written. The state
counts the expressions that are being written within each other, and when too many are, the writing stops.
Nothing else would stop an expression that is written within itself.
-/

namespace Patchboard

/-- What is known while a function is written. -/
structure Meter where
  uses : Uses
  /-- The number of expressions that are being written, each within the one before. -/
  depth : Nat

/-- Steps that write a part of a function. What stops them does not undo what they have done; and they may
go on forever. -/
abbrev Metered :=
  ExceptT Diagnostic (StateT Meter Option)

namespace Metered

/-- How the steps come out from a state, and the state that they leave behind; none if they go on
forever. -/
def runFrom {α : Type} (steps : Metered α) (m : Meter) : Option (Except Diagnostic α × Meter) :=
  steps.run.run m

/-- Changes what is known of the bindings. -/
def updateUses (f : Uses → Uses) : Metered Unit :=
  modify fun m => { m with uses := f m.uses }

instance : MonadUses Metered where
  uses := return (← get).uses
  use w := updateUses fun u => u.consume w.consumer w.slot w.producer
  declare id := updateUses fun u => u.declare id

/-- Writes the expression of a node within those that are being written, unless they are too many. -/
def within (function : NodeId) (n : Node) (steps : Metered Expr) : Metered Expr :=
  (do
    if (← get).depth ≥ maxNesting then
      return .error (.nestingTooDeep function n.id maxNesting)
    else
      modify fun m => { m with depth := m.depth + 1 }
      -- What stops the steps is held back until the counter has been set back.
      let lowered ← ExceptT.run steps
      modify fun m => { m with depth := m.depth - 1 }
      return lowered : StateT Meter Option (Except Diagnostic Expr))

/-- Too many expressions within each other stop the steps. Otherwise the counter stands one higher while the
expression is written. -/
theorem runFrom_within (function : NodeId) (n : Node) (steps : Metered Expr) (m : Meter) :
  (within function n steps).runFrom m
    = if m.depth ≥ maxNesting then some (.error (.nestingTooDeep function n.id maxNesting), m)
      else (steps.runFrom ⟨m.uses, m.depth + 1⟩).map fun (result, m') => (result, ⟨m'.uses, m'.depth - 1⟩)
  := by
  rw [within]
  show (if m.depth ≥ maxNesting then _ else _ : StateT Meter Option _).run m = _
  split
  · rfl
  · show (steps.runFrom ⟨m.uses, m.depth + 1⟩ >>= fun r => _) = _
    cases steps.runFrom ⟨m.uses, m.depth + 1⟩ <;> rfl

/-! ## Steps that go on forever -/

variable {α β : Type} {steps steps' : Metered α}

/-- From every state the steps come out as others do, or go on forever. -/
def Approximates (steps steps' : Metered α) : Prop :=
  ∀ m, steps.runFrom m = none ∨ steps.runFrom m = steps'.runFrom m

/-- Steps that follow each other approximate others when each of them does. -/
theorem Approximates.bind {next next' : α → Metered β} (h : Approximates steps steps')
    (hnext : ∀ a, Approximates (next a) (next' a)) :
  Approximates (steps >>= next) (steps' >>= next')
  := by
  intro m
  rcases h m with h | h
  · exact .inl (run_bind_of_none h)
  cases hsteps : steps.runFrom m with
  | none => exact .inl (run_bind_of_none hsteps)
  | some result =>
    have hsteps' := h.symm.trans hsteps
    obtain ⟨d | a, m'⟩ := result
    · right
      exact (run_bind_of_error hsteps).trans (run_bind_of_error hsteps').symm
    · have hrun : (steps >>= next).runFrom m = (next a).runFrom m' := run_bind_of_ok hsteps
      have hrun' : (steps' >>= next').runFrom m = (next' a).runFrom m' := run_bind_of_ok hsteps'
      rw [hrun, hrun']
      apply hnext

/-- Steps go on in lockstep with those that they approximate. -/
theorem lockstep_approximates :
  Lockstep fun α (steps steps' : Metered α) => Approximates steps steps'
  where
  pure a := fun _ => .inr rfl
  throw d := fun _ => .inr rfl
  bind h hnext := h.bind hnext
  lift_bind {_ _ result _ _} hnext := by
    cases result with
    | error d => exact fun _ => .inr rfl
    | ok a => exact hnext a rfl

/-- Counting steps approximates counting what the steps approximate. -/
theorem Approximates.within {steps steps' : Metered Expr} (h : Approximates steps steps')
    (function : NodeId) (n : Node) :
  Approximates (within function n steps) (within function n steps')
  := by
  intro m
  rw [runFrom_within, runFrom_within]
  split
  · exact .inr rfl
  · rcases h ⟨m.uses, m.depth + 1⟩ with h | h
    · rw [h]
      exact .inl rfl
    · rw [h]
      exact .inr rfl

end Metered

namespace Board

open Metered

/-- The expression of a node, counted while it is written, given how the nodes that feed it are written. -/
def meteredExprWith (b : Board) (function : NodeId) (expr : Node → Metered Expr) (n : Node) : Metered Expr :=
  within function n (b.exprWith (b.inputWith expr n) n)

/-- The expression of a node approximates another one when the nodes that feed it do. -/
theorem approximates_meteredExprWith (b : Board) (function : NodeId) {expr expr' : Node → Metered Expr}
    (h : ∀ p, Approximates (expr p) (expr' p)) (n : Node) :
  Approximates (b.meteredExprWith function expr n) (b.meteredExprWith function expr' n)
  := by
  apply Approximates.within
  apply lockstep_approximates.exprWith
  intro slot _
  apply lockstep_approximates.inputWith
  · exact fun _ _ _ _ => .inr rfl
  · exact fun p _ => h p

/-- The expression of a node, counted while it is written. -/
def meteredExpr (b : Board) (function : NodeId) (n : Node) : Metered Expr :=
  b.meteredExprWith function (b |>.meteredExpr function) n
partial_fixpoint monotonicity by
  -- The order in which the recursion is a least solution is approximation from each state.
  intro expr expr' hle n m
  have hexpr : ∀ p, Approximates (expr p) (expr' p) := by
    intro p m
    have hle := hle p m
    show expr p m = none ∨ expr p m = expr' p m
    generalize expr p m = result, expr' p m = result' at hle
    cases hle with
    | bot => exact .inl rfl
    | refl => exact .inr rfl
  dsimp only
  rcases approximates_meteredExprWith b function hexpr n m with h | h
  · have h : b.meteredExprWith function expr n m = none := h
    rw [h]
    constructor
  · have h : b.meteredExprWith function expr n m = b.meteredExprWith function expr' n m := h
    rw [h]
    constructor

/-- The declarations of the bindings that are left, in front of those that have been found. -/
def meteredDeclarations (b : Board) (function : NodeId) (found : List Stmt) : Metered (List Stmt) := do
  let uses ← MonadUses.uses
  if uses.outstanding.isEmpty then return found
  else
    let last ← nextWith function (b.declarationWith function (b.meteredExpr function))
    b |>.meteredDeclarations function (last :: found)
partial_fixpoint

/-- The statements of a function that ends in a return. -/
def meteredBody (b : Board) (function : NodeId) (ret : Node) : Metered (List Stmt) := do
  if let some w := b.danglingWire? ret.id then throw (.dangling w.consumer w.slot w.producer)
  updateUses fun u => { u with outstanding := b.uses ret.id }
  b.statementsWith function (b.meteredExpr function) (b.meteredDeclarations function []) ret

end Board

end Patchboard
