import Patchboard.Proofs.Compile.Expression

/-!
# Writing in two ways

The definitions that write a part of a function do so in steps of any kind. A relation between steps of two
kinds that holds of what is not written, and that is kept when steps follow each other, holds of what a
definition writes in the two ways, when it holds of what the definition is given.
-/

namespace Patchboard

namespace Board

variable {b : Board} {n p : Node}

/-- The slots that are written with a node: its operand slots, and the only one of a return. -/
def parts (b : Board) (n : Node) : List Nat :=
  if n.kind.isReturn then [0] else b.operands n

/-- What is written in a slot is no return. -/
theorem parts_of_producer {slot : Nat} (h : b.producer n slot = .ok p) :
  b.parts p = b.operands p
  := by
  rw [parts, not_isReturn_of_producer h, if_neg Bool.false_ne_true]

end Board

variable {m m' : Type → Type}
  [Monad m] [MonadExceptOf Diagnostic m] [MonadLiftT (Except Diagnostic) m]
  [Monad m'] [MonadExceptOf Diagnostic m'] [MonadLiftT (Except Diagnostic) m']

/-- A relation between steps of two kinds that is kept while they go on side by side. -/
structure Lockstep (R : (α : Type) → m α → m' α → Prop) : Prop where
  pure {α : Type} (a : α) : R α (Pure.pure a) (Pure.pure a)
  throw {α : Type} (d : Diagnostic) : R α (MonadExcept.throw d) (MonadExcept.throw d)
  bind {α β : Type} {steps : m α} {steps' : m' α} {next : α → m β} {next' : α → m' β}
    (h : R α steps steps') (hnext : ∀ a, R β (next a) (next' a)) :
    R β (steps >>= next) (steps' >>= next')
  /-- What is looked up on the board is the same. -/
  lift_bind {α β : Type} {result : Except Diagnostic α} {next : α → m β} {next' : α → m' β}
    (hnext : ∀ a, result = .ok a → R β (next a) (next' a)) :
    R β (liftM result >>= next) (liftM result >>= next')

namespace Lockstep

variable {R : (α : Type) → m α → m' α → Prop} {b : Board} {n : Node} {function : NodeId}

/-! ## Expressions -/

/-- Parts in a row are in lockstep when each of them is. -/
theorem mapM [LawfulMonad m] [LawfulMonad m'] (h : Lockstep R) {input : Nat → m Expr} {input' : Nat → m' Expr}
    {slots : List Nat} (hinput : ∀ slot ∈ slots, R Expr (input slot) (input' slot)) :
  R (List Expr) (slots.mapM input) (slots.mapM input')
  := by
  induction slots with
  | nil =>
    rw [List.mapM_nil, List.mapM_nil]
    apply h.pure
  | cons slot slots ih =>
    obtain ⟨hslot, hslots⟩ := List.forall_mem_cons.1 hinput
    rw [List.mapM_cons, List.mapM_cons]
    apply h.bind hslot
    intro e
    apply h.bind (ih hslots)
    intro es
    apply h.pure

/-- An access is in lockstep when what is written with it is. -/
theorem access (h : Lockstep R) {input : Nat → m Expr} {input' : Nat → m' Expr}
    (hinput : ∀ slot ∈ if (b.keyName? n).isSome then [0] else [0, 1], R Expr (input slot) (input' slot)) :
  R Expr
    (do
      let object ← input 0
      match Board.propertyName? (← b.producer n 1) with
      | some name => return .member object name
      | none => return .index object (← input 1))
    (do
      let object ← input' 0
      match Board.propertyName? (← b.producer n 1) with
      | some name => return .member object name
      | none => return .index object (← input' 1))
  := by
  apply h.bind (hinput 0 (by split <;> simp))
  intro object
  apply h.lift_bind
  intro key hkey
  rw [Board.keyName?_of_producer hkey] at hinput
  cases hname : Board.propertyName? key with
  | some name => apply h.pure
  | none =>
    apply h.bind (hinput 1 (by simp [hname]))
    intro value
    apply h.pure

/-- The expression of a node is in lockstep when what is written with it is. -/
theorem exprWith [LawfulMonad m] [LawfulMonad m'] (h : Lockstep R) {input : Nat → m Expr}
    {input' : Nat → m' Expr}
    (hinput : ∀ slot ∈ b.parts n, R Expr (input slot) (input' slot)) :
  R Expr (b.exprWith input n) (b.exprWith input' n)
  := by
  rw [Board.parts, Board.operands] at hinput
  rw [Board.exprWith, Board.exprWith]
  cases hk : n.kind with
  | functionReference _ _ => exact h.lift_bind fun _ _ => h.pure _
  | binaryExpression operator _ _ _ =>
    rw [hk] at hinput
    dsimp only
    cases Operator.ofToken? operator with
    | none => apply h.throw
    | some op =>
      have hleft := hinput 0 (by simp [Kind.isReturn])
      have hright := hinput 1 (by simp [Kind.isReturn])
      exact h.bind hleft fun _ => h.bind hright fun _ => h.pure _
  | conditionalExpression _ _ _ _ =>
    rw [hk] at hinput
    have htest := hinput 0 (by simp [Kind.isReturn])
    have hyes := hinput 1 (by simp [Kind.isReturn])
    have hno := hinput 2 (by simp [Kind.isReturn])
    exact h.bind htest fun _ => h.bind hyes fun _ => h.bind hno fun _ => h.pure _
  | callExpression inputs _ =>
    rw [hk] at hinput
    exact h.lift_bind fun _ _ => h.bind (h.mapM hinput) fun _ => h.pure _
  | elementAccess _ | propertyAccess _ =>
    rw [hk] at hinput
    exact h.access hinput
  | returnStatement _ _ _ =>
    rw [hk] at hinput
    exact hinput 0 (by simp [Kind.isReturn])
  | _ => exact h.pure _

variable [MonadUses m] [MonadUses m']

/-- A slot is in lockstep when the use of what feeds it is, and what is written in it. -/
theorem inputWith (h : Lockstep R) {slot : Nat} {expr : Node → m Expr} {expr' : Node → m' Expr}
    (huse : ∀ p, b.producer n slot = .ok p → p.kind.isBinding = true →
      R Unit (MonadUses.use ⟨n.id, slot, p.id⟩) (MonadUses.use ⟨n.id, slot, p.id⟩))
    (hexpr : ∀ p, b.producer n slot = .ok p → R Expr (expr p) (expr' p)) :
  R Expr (b.inputWith expr n slot) (b.inputWith expr' n slot)
  := by
  rw [Board.inputWith, Board.inputWith]
  apply h.lift_bind
  intro p hp
  dsimp only
  split
  · next hbinding =>
    apply h.bind (huse p hp hbinding)
    intro _
    apply hexpr p hp
  · apply hexpr p hp

/-! ## Statements -/

/-- A declaration is in lockstep when what is written in its slot is. -/
theorem declarationWith (h : Lockstep R) {id : NodeId} {expr : Node → m Expr} {expr' : Node → m' Expr}
    (hinput : ∀ n, b.get? id = some n → R Expr (b.inputWith expr n 0) (b.inputWith expr' n 0)) :
  R Stmt (b.declarationWith function expr id) (b.declarationWith function expr' id)
  := by
  rw [Board.declarationWith, Board.declarationWith]
  cases hn : b.get? id with
  | none => apply h.throw
  | some n =>
    dsimp only
    cases n.kind with
    | identifier x | variableStatement x =>
      exact h.lift_bind fun _ _ => h.bind (hinput n hn) fun _ => h.pure _
    | _ => apply h.throw

/-- The next declaration is in lockstep when the uses are, and each declaration. -/
theorem nextWith (h : Lockstep R) {declaration : NodeId → m Stmt} {declaration' : NodeId → m' Stmt}
    (huses : R Uses MonadUses.uses MonadUses.uses)
    (hdeclare : ∀ id, R Unit (MonadUses.declare id) (MonadUses.declare id))
    (hdeclaration : ∀ id, R Stmt (declaration id) (declaration' id)) :
  R Stmt (Board.nextWith function declaration) (Board.nextWith function declaration')
  := by
  apply h.bind huses
  intro u
  cases u.ready? with
  | none => apply h.throw
  | some id =>
    apply h.bind (hdeclare id)
    intro _
    apply hdeclaration

end Lockstep

end Patchboard
