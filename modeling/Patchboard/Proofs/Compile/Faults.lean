import Patchboard.Proofs.Compile.Completeness

/-!
# Faults of nodes

Where the expression of a node cannot be written, some node that it leads to has the fault that the
diagnostic names: a slot that is empty, names no node or holds a return, an operator that does not
exist, or a callee that is no function. If no node is at fault, then the expressions are nested too
deep, and the diagnostic names the first node below the limit.
-/

namespace Patchboard

open Relation (ReflTransGen)

/-! ## Failing steps -/

/-- Two steps in a row fail when the first fails, or the second after it. -/
theorem Lowering.run_bind_eq_error_iff {α β : Type} {x : Lowering α} {f : α → Lowering β} {u : Uses}
    {d : Diagnostic} :
  (x >>= f).run u = .error d
    ↔ x.run u = .error d ∨ ∃ a u', x.run u = .ok (a, u') ∧ (f a).run u' = .error d
  := by
  rw [StateT.run_bind]
  cases h : x.run u with
  | error d' => simp [bind, Except.bind]
  | ok au =>
    obtain ⟨a, u'⟩ := au
    simp [bind, Except.bind]

/-- A step that cannot fail does not. -/
theorem Lowering.run_pure_ne_error {α : Type} (a : α) (u : Uses) (d : Diagnostic) :
  (pure a : Lowering α).run u ≠ .error d
  := by
  rw [StateT.run_pure]
  simp [pure, Except.pure]

/-- A step that looks at the board only fails as it does without the state. -/
theorem Lowering.run_lift_eq_error_iff {α : Type} {x : Except Diagnostic α} {u : Uses}
    {d : Diagnostic} :
  (liftM x : Lowering α).run u = .error d ↔ x = .error d
  := by
  cases x with
  | error d' => simp [liftM, monadLift, MonadLift.monadLift, StateT.lift, StateT.run, bind, Except.bind]
  | ok a =>
    simp [liftM, monadLift, MonadLift.monadLift, StateT.lift, StateT.run, bind, Except.bind, pure,
      Except.pure]

/-- A step that fails gives its diagnostic. -/
theorem Lowering.run_throw_eq_error_iff {α : Type} {d d' : Diagnostic} {u : Uses} :
  (throw d : Lowering α).run u = .error d' ↔ d = d'
  := by
  simp [throw, throwThe, MonadExceptOf.throw, StateT.lift, StateT.run, bind, Except.bind]

/-- Dropping the last state changes no failure. -/
theorem Lowering.run'_eq_error_iff {α : Type} {x : Lowering α} {u : Uses} {d : Diagnostic} :
  x.run' u = .error d ↔ x.run u = .error d
  := by
  rw [StateT.run', StateT.run]
  cases x u <;> simp [Functor.map, Except.map]

/-- Several parts cannot be written when one of them cannot. -/
theorem Lowering.run_mapM_eq_error {input : Nat → Lowering Expr} {slots : List Nat} {u : Uses}
    {d : Diagnostic} (h : (slots.mapM input).run u = .error d) :
  ∃ slot ∈ slots, ∃ u', (input slot).run u' = .error d
  := by
  induction slots generalizing u with
  | nil =>
    rw [List.mapM_nil] at h
    apply (run_pure_ne_error _ u d h).elim
  | cons slot slots ih =>
    rw [List.mapM_cons, run_bind_eq_error_iff] at h
    rcases h with h | ⟨e, u', -, h⟩
    · exact ⟨slot, List.mem_cons_self, u, h⟩
    · rcases run_bind_eq_error_iff.1 h with h | ⟨es, u'', -, h⟩
      · obtain ⟨slot', hslot', hfails⟩ := ih h
        exact ⟨slot', List.mem_cons_of_mem slot hslot', hfails⟩
      · apply (run_pure_ne_error _ _ d h).elim

namespace Board

variable {b : Board} {n p : Node} {slot : Nat} {d : Diagnostic} {u : Uses}

/-! ## Faults -/

/-- A diagnostic names a fault that a node has. -/
inductive NodeFault (b : Board) (n : Node) : Diagnostic → Prop
  /-- A slot is empty, or not there. -/
  | incomplete (slot : Nat) (empty : n.kind.input slot = none) :
    NodeFault b n (.incomplete n.id n.kind.tag slot)
  /-- A slot names a node that is not on the board. -/
  | dangling (slot : Nat) (target : NodeId) (names : n.kind.input slot = some target)
    (missing : target ∉ b.ids) :
    NodeFault b n (.dangling n.id slot target)
  /-- A slot holds a return. -/
  | invalidConnection (slot : Nat) (p : Node) (holds : b.Holds n slot p)
    (valueless : p.kind.isReturn = true) :
    NodeFault b n (.invalidConnection n.id slot p.id)
  /-- The node is an operation, and its operator does not exist. -/
  | unknownOperator (operator : String) (left right output : Slot)
    (operation : n.kind = .binaryExpression operator left right output)
    (unknown : ∀ op : Operator, op.token ≠ operator) :
    NodeFault b n (.unknownOperator n.id operator)
  /-- The node is a call, and what it calls is neither a function nor a reference. -/
  | unresolvedCall (p : Node) (call : n.kind.isCall = true) (holds : b.Holds n 0 p)
    (function : p.kind.isFunction = false) (reference : p.kind.isReference = false) :
    NodeFault b n (.unresolvedCallee n.id p.id)
  /-- The node is a reference, and what it refers to is no function. -/
  | unresolvedReference (p : Node) (reference : n.kind.isReference = true) (holds : b.Holds n 0 p)
    (function : p.kind.isFunction = false) :
    NodeFault b n (.unresolvedCallee n.id p.id)
  /-- The node is a binding, and its type may not be declared. -/
  | undeclarable (x : Binding) (binding : n.kind.binding? = some x)
    (unknown : x.type ∉ declarableTokens) :
    NodeFault b n (.unknownType n.id x.type)

/-- A diagnostic names a fault of some node that a node leads to. -/
def FaultBelow (b : Board) (n : Node) (d : Diagnostic) : Prop :=
  ∃ m, b.Live n m ∧ b.NodeFault m d

/-- A fault of a node is below the node. -/
theorem NodeFault.below (h : b.NodeFault n d) :
  b.FaultBelow n d
  := ⟨n, .refl, h⟩

/-- What is below a node is below the nodes that lead to it. -/
theorem FaultBelow.of_live (h : b.FaultBelow p d) (hp : b.Live n p) :
  b.FaultBelow n d
  := by
  obtain ⟨m, hm, hfault⟩ := h
  exact ⟨m, hp.trans hm, hfault⟩

/-- A diagnostic names the last node of a chain of nodes, each written within the one before, that
starts at a node and has more than so many. -/
def TooDeepFrom (b : Board) (function : NodeId) (levels : Nat) (n : Node) (d : Diagnostic) : Prop :=
  ∃ chain last, List.IsChain b.Inlines (n :: chain) ∧ (n :: chain).length = levels + 1 ∧
    (n :: chain).getLast? = some last ∧ d = .nestingTooDeep function last.id maxNesting

/-! ## Slots and callees -/

/-- A slot has no producer when it is empty, names no node or holds a return. -/
theorem nodeFault_of_producer (h : b.producer n slot = .error d) :
  b.NodeFault n d
  := by
  rw [producer] at h
  split at h
  · next hempty =>
    obtain rfl := Except.error.inj h
    exact .incomplete slot hempty
  · next target hnames =>
    split at h
    · next hmissing =>
      obtain rfl := Except.error.inj h
      exact .dangling slot target hnames (not_mem_ids_of_get? hmissing)
    · next p hp =>
      split at h
      · cases h
      · next hvalue =>
        obtain rfl := Except.error.inj h
        obtain ⟨hmem, rfl⟩ := get?_eq_some_iff.1 hp
        refine .invalidConnection slot p ⟨hnames, hmem⟩ ?_
        cases hk : p.kind with
        | returnStatement => rfl
        | _ => simp [hk, Kind.producesValue, Kind.isFanOut, Kind.isSingleOutput, Kind.isFunction] at hvalue

/-- A reference names no function when it has no producer, or one that is no function. -/
theorem nodeFault_of_referencedFunction (hn : n.kind.isReference = true)
    (h : b.referencedFunction n = .error d) :
  b.NodeFault n d
  := by
  rw [referencedFunction] at h
  cases hp : b.producer n 0 with
  | error d' =>
    rw [hp] at h
    obtain rfl := Except.error.inj h
    apply nodeFault_of_producer hp
  | ok p =>
    rw [hp] at h
    simp only [bind, Except.bind] at h
    split at h
    · cases h
    · next hk =>
      obtain rfl := Except.error.inj h
      refine .unresolvedReference p hn (producer_eq_ok_iff.1 hp).1 ?_
      cases hkind : p.kind with
      | functionDeclaration name width height => exact (hk name width height hkind).elim
      | _ => rfl

/-- A call names no function when it has no callee, one that cannot be called, or a reference that names
no function. -/
theorem faultBelow_of_callee (hn : n.kind.isCall = true) (h : b.callee n = .error d) :
  b.FaultBelow n d
  := by
  rw [callee] at h
  cases hp : b.producer n 0 with
  | error d' =>
    rw [hp] at h
    obtain rfl := Except.error.inj h
    apply (nodeFault_of_producer hp).below
  | ok p =>
    have hholds := (producer_eq_ok_iff.1 hp).1
    rw [hp] at h
    simp only [bind, Except.bind] at h
    split at h
    · cases h
    · next hk =>
      have href : p.kind.isReference = true := by rw [hk]; rfl
      apply (nodeFault_of_referencedFunction href h).below.of_live
      exact .single ⟨0, hholds⟩
    · next hfun href =>
      obtain rfl := Except.error.inj h
      refine NodeFault.below (.unresolvedCall p hn hholds ?_ ?_)
      · cases hkind : p.kind with
        | functionDeclaration name width height => exact (hfun name width height hkind).elim
        | _ => rfl
      · cases hkind : p.kind with
        | functionReference function output => exact (href function output hkind).elim
        | _ => rfl

/-! ## Expressions -/

/-- An access cannot be written when it has no key, or one of its parts cannot be written. -/
theorem run_access_eq_error {input : Nat → Lowering Expr}
    (hk : ∃ access, n.kind = .elementAccess access ∨ n.kind = .propertyAccess access)
    (h : (do
      let object ← input 0
      match propertyName? (← b.producer n 1) with
      | some name => return .member object name
      | none => return .index object (← input 1) : Lowering Expr).run u = .error d) :
  b.NodeFault n d ∨ ∃ slot ∈ b.operands n, ∃ u', (input slot).run u' = .error d
  := by
  have hzero : 0 ∈ b.operands n := by
    rw [operands_of_isAccess hk]
    split <;> simp
  rcases Lowering.run_bind_eq_error_iff.1 h with h | ⟨object, u₁, -, h⟩
  · exact .inr ⟨0, hzero, u, h⟩
  rcases Lowering.run_bind_eq_error_iff.1 h with h | ⟨key, u₂, hkey, h⟩
  · exact .inl (nodeFault_of_producer (Lowering.run_lift_eq_error_iff.1 h))
  obtain ⟨hkey, rfl⟩ := (Lowering.run_lift_eq_ok_iff _ _ _).1 hkey
  cases hname : propertyName? key with
  | some name =>
    rw [hname] at h
    apply (Lowering.run_pure_ne_error _ _ d h).elim
  | none =>
    rw [hname] at h
    rcases Lowering.run_bind_eq_error_iff.1 h with h | ⟨value, u₃, -, h⟩
    · refine .inr ⟨1, ?_, u₁, h⟩
      rw [operands_of_isAccess hk, keyName?_of_producer hkey, hname]
      simp
    · apply (Lowering.run_pure_ne_error _ _ d h).elim

/-- A node cannot be written when it or a node below it is at fault, or one of its parts cannot be
written. -/
theorem run_exprWith_eq_error {input : Nat → Lowering Expr} (hn : n.kind.isReturn = false)
    (h : (b.exprWith input n).run u = .error d) :
  b.FaultBelow n d ∨ ∃ slot ∈ b.operands n, ∃ u', (input slot).run u' = .error d
  := by
  rw [exprWith] at h
  cases hk : n.kind with
  | functionReference function output =>
    rw [hk] at h
    rcases Lowering.run_bind_eq_error_iff.1 h with h | ⟨name, u', -, h⟩
    · have href : n.kind.isReference = true := by rw [hk]; rfl
      rw [Lowering.run_lift_eq_error_iff] at h
      exact .inl (nodeFault_of_referencedFunction href h).below
    · apply (Lowering.run_pure_ne_error _ _ d h).elim
  | binaryExpression operator left right output =>
    have hops : b.operands n = [0, 1] := by simp only [operands, hk]
    rw [hk] at h
    dsimp only at h
    cases hop : Operator.ofToken? operator with
    | none =>
      rw [hop, Lowering.run_throw_eq_error_iff] at h
      subst h
      refine .inl (NodeFault.below (.unknownOperator operator left right output hk ?_))
      intro op hop'
      have := (Operator.exists_token_iff operator).1 ⟨op, hop'⟩
      rw [hop] at this
      cases this
    | some op =>
      rw [hop] at h
      right
      rw [hops]
      rcases Lowering.run_bind_eq_error_iff.1 h with h | ⟨_, u₁, -, h⟩
      · exact ⟨0, by simp, u, h⟩
      rcases Lowering.run_bind_eq_error_iff.1 h with h | ⟨_, u₂, -, h⟩
      · exact ⟨1, by simp, u₁, h⟩
      · apply (Lowering.run_pure_ne_error _ _ d h).elim
  | conditionalExpression test consequent alternate output =>
    have hops : b.operands n = [0, 1, 2] := by simp only [operands, hk]
    rw [hk] at h
    right
    rw [hops]
    rcases Lowering.run_bind_eq_error_iff.1 h with h | ⟨_, u₁, -, h⟩
    · exact ⟨0, by simp, u, h⟩
    rcases Lowering.run_bind_eq_error_iff.1 h with h | ⟨_, u₂, -, h⟩
    · exact ⟨1, by simp, u₁, h⟩
    rcases Lowering.run_bind_eq_error_iff.1 h with h | ⟨_, u₃, -, h⟩
    · exact ⟨2, by simp, u₂, h⟩
    · apply (Lowering.run_pure_ne_error _ _ d h).elim
  | callExpression inputs output =>
    have hops : b.operands n = List.range' 1 (inputs.length - 1) := by simp only [operands, hk]
    rw [hk] at h
    rcases Lowering.run_bind_eq_error_iff.1 h with h | ⟨name, u₁, -, h⟩
    · have hcall : n.kind.isCall = true := by rw [hk]; rfl
      rw [Lowering.run_lift_eq_error_iff] at h
      exact .inl (faultBelow_of_callee hcall h)
    rcases Lowering.run_bind_eq_error_iff.1 h with h | ⟨args, u₂, -, h⟩
    · rw [hops]
      exact .inr (Lowering.run_mapM_eq_error h)
    · apply (Lowering.run_pure_ne_error _ _ d h).elim
  | elementAccess access =>
    rw [hk] at h
    exact (run_access_eq_error ⟨access, .inl hk⟩ h).imp_left NodeFault.below
  | propertyAccess access =>
    rw [hk] at h
    exact (run_access_eq_error ⟨access, .inr hk⟩ h).imp_left NodeFault.below
  | returnStatement => simp [hk, Kind.isReturn] at hn
  | _ =>
    rw [hk] at h
    apply (Lowering.run_pure_ne_error _ _ d h).elim

/-- A slot cannot be written when it has no producer, or its producer cannot be written. -/
theorem run_inputWith_eq_error {expr : Node → Lowering Expr}
    (h : (b.inputWith expr n slot).run u = .error d) :
  b.NodeFault n d ∨ ∃ p u', b.producer n slot = .ok p ∧ (expr p).run u' = .error d
  := by
  rw [inputWith] at h
  rcases Lowering.run_bind_eq_error_iff.1 h with h | ⟨p, u', hp, h⟩
  · exact .inl (nodeFault_of_producer (Lowering.run_lift_eq_error_iff.1 h))
  obtain ⟨hp, rfl⟩ := (Lowering.run_lift_eq_ok_iff _ _ _).1 hp
  right
  split at h
  · exact ⟨p, u.consume n.id slot p.id, hp, h⟩
  · exact ⟨p, u, hp, h⟩

/-- An expression cannot be written when a node below is at fault, or the nodes are nested too
deep. -/
theorem run_expr_eq_error {function : NodeId} {levels : Nat} (hn : n.kind.isReturn = false)
    (h : (b.expr function levels n : Lowering Expr).run u = .error d) :
  b.FaultBelow n d ∨ b.TooDeepFrom function levels n d
  := by
  -- The chain of nodes grows at its front, from the node at which the limit is met.
  induction levels generalizing n u with
  | zero =>
    rw [expr, Lowering.run_throw_eq_error_iff] at h
    exact .inr ⟨[], n, List.isChain_singleton n, rfl, rfl, h.symm⟩
  | succ levels ih =>
    rcases run_exprWith_eq_error hn h with hbelow | ⟨slot, hslot, u', h⟩
    · exact .inl hbelow
    rcases run_inputWith_eq_error h with hfault | ⟨p, u'', hp, h⟩
    · exact .inl hfault.below
    have hholds := (producer_eq_ok_iff.1 hp).1
    rcases ih (not_isReturn_of_producer hp) h with hbelow | ⟨chain, last, hchain, hlen, hlast, hd⟩
    · exact .inl (hbelow.of_live (.single ⟨slot, hholds⟩))
    · right
      refine ⟨p :: chain, last, List.isChain_cons_cons.2 ⟨⟨slot, hslot, hholds⟩, hchain⟩, ?_, ?_, hd⟩
      · rw [List.length_cons, hlen]
      · rw [List.getLast?_cons_cons, hlast]

/-- A slot of a return or a binding cannot be written when a node below is at fault, or the nodes are
nested too deep from the producer on. -/
theorem run_input_eq_error {function : NodeId}
    (h : (b.input function n slot : Lowering Expr).run u = .error d) :
  b.FaultBelow n d ∨ ∃ p, b.Holds n slot p ∧ b.TooDeepFrom function maxNesting p d
  := by
  rcases run_inputWith_eq_error h with hfault | ⟨p, u', hp, h⟩
  · exact .inl hfault.below
  have hholds := (producer_eq_ok_iff.1 hp).1
  rcases run_expr_eq_error (not_isReturn_of_producer hp) h with hbelow | hdeep
  · exact .inl (hbelow.of_live (.single ⟨slot, hholds⟩))
  · exact .inr ⟨p, hholds, hdeep⟩

end Board

end Patchboard
