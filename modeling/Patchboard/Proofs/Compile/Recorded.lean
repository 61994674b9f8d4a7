import Patchboard.Compile.Recorded
import Patchboard.Proofs.Compile.Hoisting
import Patchboard.Proofs.Compile.Lockstep
import Patchboard.Proofs.Compile.References
import Patchboard.Proofs.Steps

/-!
# Counters on record

The slots that are written for an expression do not depend on the state of the uses. So each of them is put on
record by the same steps as it is written, and what is on record are uses of live slots, one by one, and
declarations of bindings whose count is zero. From this it follows for every moment on record that the counts
are those of the slots which have not been consumed.
-/

namespace Patchboard

variable {α β : Type} {b : Board} {function : NodeId} {n r : Node} {levels : Nat} {x x' : Record} {w : Wire}

namespace Board

/-! ## Slots that are written with a node -/

/-- The wires from bindings that are used where a node is written, be it a return or not. -/
def UsesWith (b : Board) (n : Node) (w : Wire) : Prop :=
  ∃ slot ∈ b.parts n, b.UsesAt n slot w

/-- Writing a node spends the wires that are used there. -/
theorem spends_of_run_expr {u u' : Uses} {e : Expr}
    (h : (b.expr function levels n : Lowering Expr).run u = .ok (e, u')) :
  u.Spends (b.UsesWith n) u'
  := by
  cases hret : n.kind.isReturn with
  | false =>
    obtain ⟨-, -, ws, hws, rfl⟩ := run_expr_ok hret h
    refine ⟨ws, ?_, rfl⟩
    intro w
    rw [hws, UsesWith, parts, hret, if_neg Bool.false_ne_true, UsesIn]
  | true =>
    cases levels with
    | zero => exact (Lowering.run_throw_ne_ok _ _ _ h).elim
    | succ levels =>
      have hslot : (b.exprWith (b.inputWith (b.expr function levels) n) n : Lowering Expr)
          = b.inputWith (b.expr function levels) n 0 := by
        rw [exprWith]
        unfold Kind.isReturn at hret
        split at hret
        · next hk => rw [hk]
        · cases hret
      rw [expr, hslot, run_inputWith_eq_ok_iff] at h
      obtain ⟨p, hp, h⟩ := h
      obtain ⟨-, -, hspends⟩ := run_expr_ok (not_isReturn_of_producer hp) h
      obtain ⟨ws, hws, rfl⟩ := Spends.slot hp hspends
      refine ⟨ws, ?_, rfl⟩
      intro w
      rw [hws, UsesWith, parts, hret, if_pos rfl]
      simp

end Board

namespace Record

/-- Some slots are written, one after the other. -/
def useAll (x : Record) (ws : List Wire) : Record :=
  ws.foldl (fun x w => x.next (x.now.use w)) x

theorem useAll_append (x : Record) (ws ws' : List Wire) :
  x.useAll (ws ++ ws') = (x.useAll ws).useAll ws'
  := List.foldl_append

/-- Writing slots again changes no counter. -/
theorem uses_useAll {ws : List Wire} (h : ∀ w ∈ ws, (w.consumer, w.slot) ∈ x.now.uses.consumed) :
  (x.useAll ws).now.uses = x.now.uses
  := by
  induction ws generalizing x with
  | nil => rfl
  | cons w ws ih =>
    obtain ⟨hw, hws⟩ := List.forall_mem_cons.1 h
    have hsame : (x.next (x.now.use w)).now.uses = x.now.uses := if_pos hw
    exact (ih (x := x.next (x.now.use w)) (by rwa [hsame])).trans hsame

end Record

namespace Recorded

/-! ## Steps -/

/-- Steps follow steps that come to an end. -/
theorem runFrom_bind_ok {steps : Recorded α} {next : α → Recorded β} {a : α}
    (h : steps.runFrom x = (.ok a, x')) :
  (steps >>= next).runFrom x = (next a).runFrom x'
  := run_bind_of_ok h

/-- Steps do not follow steps that are stopped. -/
theorem runFrom_bind_error {steps : Recorded α} {next : α → Recorded β} {d : Diagnostic}
    (h : steps.runFrom x = (.error d, x')) :
  (steps >>= next).runFrom x = (.error d, x')
  := run_bind_of_error h

/-! ## What is put on record -/

variable {allowed allowed' : Wire → Prop}

/-- Steps put on record what a part of a function does. From whatever state, some of the allowed wires are
used, one after the other, and the result is the same. -/
def Traces (allowed : Wire → Prop) (steps : Recorded α) (part : Lowering α) : Prop :=
  ∃ (outcome : Except Diagnostic α) (ws : List Wire), (∀ w ∈ ws, allowed w) ∧
    (∀ x, steps.runFrom x = (outcome, x.useAll ws)) ∧
    ∀ u, part.run u = outcome.map fun a => (a, u.consumeAll ws)

theorem Traces.mono {steps : Recorded α} {part : Lowering α} (h : Traces allowed steps part)
    (hsub : ∀ w, allowed w → allowed' w) :
  Traces allowed' steps part
  := by
  obtain ⟨outcome, ws, hws, hsteps, hpart⟩ := h
  exact ⟨outcome, ws, fun w hw => hsub w (hws w hw), hsteps, hpart⟩

theorem Traces.bind {steps : Recorded α} {next : α → Recorded β} {part : Lowering α}
    {nextPart : α → Lowering β} (h : Traces allowed steps part)
    (hnext : ∀ a, Traces allowed (next a) (nextPart a)) :
  Traces allowed (steps >>= next) (part >>= nextPart)
  := by
  obtain ⟨outcome, ws, hws, hsteps, hpart⟩ := h
  cases outcome with
  | error d =>
    refine ⟨.error d, ws, hws, fun x => runFrom_bind_error (hsteps x), fun u => ?_⟩
    rw [StateT.run_bind, hpart]
    rfl
  | ok a =>
    obtain ⟨outcome, ws', hws', hsteps', hpart'⟩ := hnext a
    refine ⟨outcome, ws ++ ws', List.forall_mem_append.2 ⟨hws, hws'⟩, fun x => ?_, fun u => ?_⟩
    · rw [runFrom_bind_ok (hsteps x), hsteps', Record.useAll_append]
    · rw [StateT.run_bind, hpart, Uses.consumeAll_append, ← hpart']
      rfl

theorem traces_throw (d : Diagnostic) :
  Traces allowed (throw d : Recorded α) (throw d)
  := ⟨.error d, [], by simp, fun _ => rfl, fun _ => rfl⟩

/-- A use is put on record. -/
theorem traces_use (hw : allowed w) :
  Traces allowed (MonadUses.use w) (MonadUses.use w)
  := ⟨.ok (), [w], by simpa using hw, fun _ => rfl, fun _ => rfl⟩

/-- Steps and what they put on record go on in lockstep. -/
theorem lockstep_traces (allowed : Wire → Prop) :
  Lockstep fun α (steps : Recorded α) (part : Lowering α) => Traces allowed steps part
  where
  pure a := ⟨.ok a, [], by simp, fun _ => rfl, fun _ => rfl⟩
  throw d := traces_throw d
  bind h hnext := h.bind hnext
  lift_bind {_ _ result _ _} hnext := by
    cases result with
    | error d => exact traces_throw d
    | ok a => exact hnext a rfl

/-! ## Expressions -/

/-- A slot is put on record when what is written in it is. -/
theorem traces_inputWith {expr : Node → Recorded Expr} {exprPart : Node → Lowering Expr}
    (h : ∀ p, Traces (b.UsesWith p) (expr p) (exprPart p)) (n : Node) (slot : Nat) :
  Traces (b.UsesAt n slot) (b.inputWith expr n slot) (b.inputWith exprPart n slot)
  := by
  apply (lockstep_traces _).inputWith
  · intro p hp hbinding
    exact traces_use (.direct hp hbinding)
  · intro p hp
    apply (h p).mono
    rintro w ⟨slot', hslot', hw⟩
    rw [Board.parts_of_producer hp] at hslot'
    exact .inner hp hslot' hw

/-- The expression of a node is put on record. -/
theorem traces_expr (b : Board) (function : NodeId) (levels : Nat) (n : Node) :
  Traces (b.UsesWith n) (b.expr function levels n) (b.expr function levels n)
  := by
  induction levels generalizing n with
  | zero => apply traces_throw
  | succ levels ih =>
    rw [Board.expr, Board.expr]
    apply (lockstep_traces _).exprWith
    intro slot hslot
    apply (traces_inputWith ih n slot).mono
    intro w hw
    exact ⟨slot, hslot, hw⟩

end Recorded

end Patchboard
