import Mathlib.Data.List.Chain
import Patchboard.Compile.Lowering
import Patchboard.Proofs.Compile.Liveness

/-!
# What is written for a node

The expression of a node has a head, which the node itself decides, and parts, which are written
from its operand slots. The expression does not depend on the state of the uses, and what happens to
the state does not depend on the state either: the wires from bindings that are met on the way are
consumed, one after the other.
-/

namespace Patchboard

open Relation (ReflTransGen TransGen)

/-- What is left of an expression when the parts that are written from operand slots are cut out. -/
inductive Head where
  | name (name : String)
  | literal (literal : Literal)
  | binary (op : Operator)
  | conditional
  /-- A call; the name of the called function is no part. -/
  | call (function : String)
  /-- The property of an object, by a name; the name is no part. -/
  | member (property : String)
  | index

/-- The expression with a head and parts; none if the number of parts is wrong. -/
def Head.build? : Head → List Expr → Option Expr
  | name s, [] => some (.ident s)
  | literal l, [] => some (.literal l)
  | binary op, [left, right] => some (.binary left op right)
  | conditional, [test, consequent, alternate] => some (.conditional test consequent alternate)
  | call function, args => some (.call (.ident function) args)
  | member property, [object] => some (.member object property)
  | index, [object, key] => some (.index object key)
  | _, _ => none

/-- Whether a head can be completed depends on the number of parts only. -/
theorem Head.isSome_build?_congr (h : Head) {es es' : List Expr} (hlen : es.length = es'.length) :
  (h.build? es).isSome = (h.build? es').isSome
  := by
  match es, es', hlen with
  | [], [], _ => rfl
  | [_], [_], _ => cases h <;> rfl
  | [_, _], [_, _], _ => cases h <;> rfl
  | [_, _, _], [_, _, _], _ => cases h <;> rfl
  | _ :: _ :: _ :: _ :: _, _ :: _ :: _ :: _ :: _, _ => cases h <;> rfl

/-- A result that is taken as an option succeeded. -/
theorem toOption_eq_some_iff {ε α : Type} {x : Except ε α} {a : α} :
  x.toOption = some a ↔ x = .ok a
  := by
  cases x <;> simp [Except.toOption]

/-- An option that is taken from a result has a value when the result succeeded. -/
theorem isSome_toOption_iff {ε α : Type} {x : Except ε α} :
  x.toOption.isSome ↔ ∃ a, x = .ok a
  := by
  cases x <;> simp [Except.toOption]

/-! ## States -/

/-- Some wires from bindings have been written, one after the other. -/
def Uses.consumeAll (u : Uses) (ws : List Wire) : Uses :=
  ws.foldl (fun u w => u.consume w.consumer w.slot w.producer) u

@[simp]
theorem Uses.consumeAll_nil (u : Uses) :
  u.consumeAll [] = u
  := rfl

theorem Uses.consumeAll_append (u : Uses) (ws ws' : List Wire) :
  u.consumeAll (ws ++ ws') = (u.consumeAll ws).consumeAll ws'
  := List.foldl_append

/-- What it takes for two steps in a row to succeed. -/
theorem Lowering.run_bind_eq_ok_iff {α β : Type} (x : Lowering α) (f : α → Lowering β) (u : Uses)
    (r : β × Uses) :
  (x >>= f).run u = .ok r ↔ ∃ a u', x.run u = .ok (a, u') ∧ (f a).run u' = .ok r
  := by
  rw [StateT.run_bind]
  cases h : x.run u with
  | error d => simp [bind, Except.bind]
  | ok au =>
    obtain ⟨a, u'⟩ := au
    simp [bind, Except.bind]

/-- A step that leaves the state alone and cannot fail. -/
theorem Lowering.run_pure_eq_ok_iff {α : Type} (a : α) (u : Uses) (r : α × Uses) :
  (pure a : Lowering α).run u = .ok r ↔ (a, u) = r
  := by
  rw [StateT.run_pure]
  simp [pure, Except.pure]

/-- A step that looks at the board only. -/
theorem Lowering.run_lift_eq_ok_iff {α : Type} (x : Except Diagnostic α) (u : Uses)
    (r : α × Uses) :
  (liftM x : Lowering α).run u = .ok r ↔ x = .ok r.1 ∧ u = r.2
  := by
  obtain ⟨a, u'⟩ := r
  cases x with
  | error d => simp [liftM, monadLift, MonadLift.monadLift, StateT.lift, StateT.run, bind, Except.bind]
  | ok a' =>
    simp [liftM, monadLift, MonadLift.monadLift, StateT.lift, StateT.run, bind, Except.bind, pure,
      Except.pure]

/-- What it takes to succeed when the last state is dropped. -/
theorem Lowering.run'_eq_ok_iff {α : Type} (x : Lowering α) (u : Uses) (a : α) :
  x.run' u = .ok a ↔ ∃ u', x.run u = .ok (a, u')
  := by
  rw [StateT.run', StateT.run]
  cases x u with
  | error d => simp [Functor.map, Except.map]
  | ok r =>
    obtain ⟨a', u'⟩ := r
    simp [Functor.map, Except.map]

/-- A step that fails does not succeed. -/
theorem Lowering.run_throw_ne_ok {α : Type} (d : Diagnostic) (u : Uses) (r : α × Uses) :
  (throw d : Lowering α).run u ≠ .ok r
  := by
  simp [throw, throwThe, MonadExceptOf.throw, StateT.lift, StateT.run, bind, Except.bind]

namespace Board

variable {b : Board} {n p : Node}

/-! ## Heads and operands -/

/-- The name by which an access takes a property, if its key is a text that is a name. -/
def keyName? (b : Board) (n : Node) : Option String :=
  ((n.kind.input 1).bind b.get?).bind propertyName?

/-- The slots of a node whose producers are written as parts of its expression. The first slot of a
call and the key of a property are not among them, and a binding has none. -/
def operands (b : Board) (n : Node) : List Nat :=
  match n.kind with
  | .binaryExpression .. => [0, 1]
  | .conditionalExpression .. => [0, 1, 2]
  | .callExpression inputs _ => List.range' 1 (inputs.length - 1)
  | .elementAccess _ | .propertyAccess _ => if (b.keyName? n).isSome then [0] else [0, 1]
  | _ => []

/-- The head of the expression of a node, if the node can be written. -/
def head? (b : Board) (n : Node) : Option Head :=
  match n.kind with
  | .functionDeclaration name _ _ => some (.name name)
  | .parameter name _ _ _ => some (.name name)
  | .identifier binding => some (.name binding.name)
  | .variableStatement binding => some (.name binding.name)
  | .functionReference _ _ => (b.referencedFunction n).toOption.map .name
  | .numericLiteral value _ => some (.literal (.number value))
  | .stringLiteral value _ => some (.literal (.string value))
  | .binaryExpression operator _ _ _ => (Operator.ofToken? operator).map .binary
  | .conditionalExpression _ _ _ _ => some .conditional
  | .callExpression _ _ => (b.callee n).toOption.map .call
  | .elementAccess _ | .propertyAccess _ =>
    (b.producer n 1).toOption.map fun key => ((propertyName? key).map .member).getD .index
  | .returnStatement _ _ _ => none

/-- The operand slots of a node are distinct. -/
theorem nodup_operands (b : Board) (n : Node) :
  (b.operands n).Nodup
  := by
  rw [operands]
  split
  · simp
  · simp
  · exact List.nodup_range'
  · split <;> simp
  · split <;> simp
  · simp

/-- The operands of an access are its slots, apart from a key that is a name. -/
theorem operands_of_isAccess
    (hk : ∃ access, n.kind = .elementAccess access ∨ n.kind = .propertyAccess access) :
  b.operands n = if (b.keyName? n).isSome then [0] else [0, 1]
  := by
  obtain ⟨access, hk | hk⟩ := hk <;> rw [operands, hk]

/-- A binding is written as its name. -/
theorem operands_of_isBinding (h : n.kind.isBinding = true) :
  b.operands n = []
  := by
  rw [operands]
  split <;> simp_all [Kind.isBinding]

/-! ## Producers -/

/-- A slot has a producer when it holds a node of the board that has a value or is a function. -/
theorem producer_eq_ok_iff {slot : Nat} :
  b.producer n slot = .ok p
    ↔ b.Holds n slot p ∧ (p.kind.producesValue || p.kind.isFunction) = true
  := by
  rw [producer, Holds]
  split
  · next h => simp [h]
  · next target h =>
    rw [h]
    split
    · next hnone =>
      constructor
      · intro h
        cases h
      · rintro ⟨⟨hid, hp⟩, -⟩
        obtain rfl := Option.some.inj hid
        rw [get?_of_mem hp] at hnone
        cases hnone
    · next q hq =>
      obtain ⟨hmem, rfl⟩ := get?_eq_some_iff.1 hq
      split
      · next hvalue =>
        constructor
        · intro h
          obtain rfl := Except.ok.inj h
          exact ⟨⟨rfl, hmem⟩, hvalue⟩
        · rintro ⟨⟨hid, hp⟩, -⟩
          rw [eq_of_id_eq hp hmem (Option.some.inj hid).symm]
      · next hvalue =>
        constructor
        · intro h
          cases h
        · rintro ⟨⟨hid, hp⟩, hgood⟩
          obtain rfl := eq_of_id_eq hp hmem (Option.some.inj hid).symm
          apply (hvalue hgood).elim

/-- The function that a reference names. -/
theorem referencedFunction_eq_ok_iff {name : String} :
  b.referencedFunction n = .ok name
    ↔ ∃ p width height, b.Holds n 0 p ∧ p.kind = .functionDeclaration name width height
  := by
  rw [referencedFunction]
  cases hp : b.producer n 0 with
  | error d =>
    constructor
    · intro h
      cases h
    · rintro ⟨p, width, height, hslot, hk⟩
      rw [producer_eq_ok_iff.2 ⟨hslot, by rw [hk]; rfl⟩] at hp
      cases hp
  | ok p =>
    obtain ⟨hslot, -⟩ := producer_eq_ok_iff.1 hp
    simp only [bind, Except.bind]
    split
    · next name' width height hk =>
      constructor
      · intro h
        obtain rfl := Except.ok.inj h
        exact ⟨p, width, height, hslot, hk⟩
      · rintro ⟨q, _, _, hq, hqk⟩
        rw [hq.unique hslot, hk] at hqk
        obtain ⟨rfl, -, -⟩ := Kind.functionDeclaration.inj hqk
        rfl
    · next hk =>
      constructor
      · intro h
        cases h
      · rintro ⟨q, width, height, hq, hqk⟩
        rw [hq.unique hslot] at hqk
        apply (hk name width height hqk).elim

/-- The function that a call names: the one in its first slot, or the one that a reference there
names. -/
theorem callee_eq_ok_iff {name : String} :
  b.callee n = .ok name
    ↔ ∃ p, b.Holds n 0 p ∧
        ((∃ width height, p.kind = .functionDeclaration name width height) ∨
          (∃ function output, p.kind = .functionReference function output) ∧
            b.referencedFunction p = .ok name)
  := by
  rw [callee]
  cases hp : b.producer n 0 with
  | error d =>
    constructor
    · intro h
      cases h
    · rintro ⟨p, hslot, hk⟩
      rw [producer_eq_ok_iff.2 ⟨hslot, by rcases hk with ⟨_, _, hk⟩ | ⟨⟨_, _, hk⟩, -⟩ <;> rw [hk] <;> rfl⟩]
        at hp
      cases hp
  | ok p =>
    obtain ⟨hslot, -⟩ := producer_eq_ok_iff.1 hp
    simp only [bind, Except.bind]
    split
    · next name' width height hk =>
      constructor
      · intro h
        obtain rfl := Except.ok.inj h
        exact ⟨p, hslot, .inl ⟨width, height, hk⟩⟩
      · rintro ⟨q, hq, ⟨_, _, hqk⟩ | ⟨⟨_, _, hqk⟩, -⟩⟩
        · rw [hq.unique hslot, hk] at hqk
          obtain ⟨rfl, -, -⟩ := Kind.functionDeclaration.inj hqk
          rfl
        · rw [hq.unique hslot, hk] at hqk
          cases hqk
    · next function output hk =>
      constructor
      · intro h
        exact ⟨p, hslot, .inr ⟨⟨function, output, hk⟩, h⟩⟩
      · rintro ⟨q, hq, ⟨_, _, hqk⟩ | ⟨-, h⟩⟩
        · rw [hq.unique hslot, hk] at hqk
          cases hqk
        · rw [← hq.unique hslot]
          exact h
    · next hk hk' =>
      constructor
      · intro h
        cases h
      · rintro ⟨q, hq, ⟨width, height, hqk⟩ | ⟨⟨function, output, hqk⟩, -⟩⟩
        · rw [hq.unique hslot] at hqk
          apply (hk name width height hqk).elim
        · rw [hq.unique hslot] at hqk
          apply (hk' function output hqk).elim

/-- The key of an access that has a producer for it. -/
theorem keyName?_of_producer (h : b.producer n 1 = .ok p) :
  b.keyName? n = propertyName? p
  := by
  obtain ⟨⟨hslot, hp⟩, -⟩ := producer_eq_ok_iff.1 h
  rw [keyName?, hslot, Option.bind_some, get?_of_mem hp, Option.bind_some]

/-! ## One level of an expression -/

/-- Writing no parts changes nothing. -/
theorem run_mapM_nil (input : Nat → Lowering Expr) (u : Uses) (r : List Expr × Uses) :
  (([] : List Nat).mapM input).run u = .ok r ↔ r = ([], u)
  := by
  rw [List.mapM_nil, Lowering.run_pure_eq_ok_iff, eq_comm]

/-- Writing several parts is writing the first and then the others. -/
theorem run_mapM_cons (input : Nat → Lowering Expr) (i : Nat) (is : List Nat) (u : Uses)
    (r : List Expr × Uses) :
  ((i :: is).mapM input).run u = .ok r
    ↔ ∃ e u' es, (input i).run u = .ok (e, u') ∧ (is.mapM input).run u' = .ok (es, r.2) ∧
        r.1 = e :: es
  := by
  obtain ⟨es, u'⟩ := r
  simp only [List.mapM_cons, Lowering.run_bind_eq_ok_iff, Lowering.run_pure_eq_ok_iff,
    Prod.mk.injEq]
  constructor
  · rintro ⟨e, u₁, he, es', _, hes, rfl, rfl⟩
    exact ⟨e, u₁, es', he, hes, rfl⟩
  · rintro ⟨e, u₁, es', he, hes, rfl⟩
    exact ⟨e, u₁, he, es', _, hes, rfl, rfl⟩

/-- An expression without parts is its head. -/
theorem run_pure_eq_ok_iff_of_build? {input : Nat → Lowering Expr} {h : Head} {e₀ : Expr}
    (hbuild : h.build? [] = some e₀) (u : Uses) (e : Expr) (u' : Uses) :
  (pure e₀ : Lowering Expr).run u = .ok (e, u')
    ↔ ∃ h' es, some h = some h' ∧ (([] : List Nat).mapM input).run u = .ok (es, u') ∧
        h'.build? es = some e
  := by
  simp only [run_mapM_nil, Lowering.run_pure_eq_ok_iff, Prod.mk.injEq]
  constructor
  · rintro ⟨rfl, rfl⟩
    exact ⟨h, [], rfl, ⟨rfl, rfl⟩, hbuild⟩
  · rintro ⟨_, _, h', ⟨rfl, rfl⟩, hb⟩
    obtain rfl := Option.some.inj h'
    exact ⟨Option.some.inj (hbuild.symm.trans hb), rfl⟩

/-- Writing an access succeeds exactly when its key can be found and its parts can be written. -/
theorem run_access_eq_ok_iff (input : Nat → Lowering Expr) (n : Node) (u : Uses) (e : Expr)
    (u' : Uses) :
  (do
    let object ← input 0
    match propertyName? (← b.producer n 1) with
    | some name => return .member object name
    | none => return .index object (← input 1) : Lowering Expr).run u = .ok (e, u')
    ↔ ∃ h es, ((b.producer n 1).toOption.map fun key =>
          ((propertyName? key).map Head.member).getD .index) = some h ∧
        ((if (b.keyName? n).isSome then [0] else [0, 1]).mapM input).run u = .ok (es, u') ∧
        h.build? es = some e
  := by
  simp only [Lowering.run_bind_eq_ok_iff, Lowering.run_lift_eq_ok_iff]
  cases hkey : b.producer n 1 with
  | error d => simp [Except.toOption]
  | ok key =>
    rw [keyName?_of_producer hkey]
    cases hname : propertyName? key with
    | some name =>
      simp only [Except.toOption, Option.map_some, hname, Option.getD_some, Option.isSome_some,
        if_true, run_mapM_cons, run_mapM_nil]
      constructor
      · rintro ⟨object, u₁, hobject, key', _, ⟨hk, rfl⟩, h⟩
        obtain rfl := Except.ok.inj hk
        rw [hname, Lowering.run_pure_eq_ok_iff] at h
        obtain ⟨rfl, rfl⟩ := Prod.mk.inj h
        exact ⟨_, _, rfl, ⟨object, u₁, [], hobject, rfl, rfl⟩, rfl⟩
      · rintro ⟨_, _, ⟨⟩, ⟨object, u₁, _, hobject, hnil, rfl⟩, he⟩
        obtain ⟨rfl, rfl⟩ := Prod.mk.inj hnil
        obtain rfl := Option.some.inj he
        refine ⟨object, u', hobject, key, u', ⟨rfl, rfl⟩, ?_⟩
        rw [hname, Lowering.run_pure_eq_ok_iff]
    | none =>
      simp only [Except.toOption, Option.map_some, Option.map_none, hname, Option.getD_none,
        Option.isSome_none, Bool.false_eq_true, if_false, run_mapM_cons, run_mapM_nil]
      constructor
      · rintro ⟨object, u₁, hobject, key', _, ⟨hk, rfl⟩, h⟩
        obtain rfl := Except.ok.inj hk
        rw [hname, Lowering.run_bind_eq_ok_iff] at h
        obtain ⟨value, u₂, hvalue, h⟩ := h
        obtain ⟨rfl, rfl⟩ := Prod.mk.inj ((Lowering.run_pure_eq_ok_iff _ _ _).1 h)
        exact ⟨_, _, rfl, ⟨object, u₁, _, hobject, ⟨value, u₂, [], hvalue, rfl, rfl⟩, rfl⟩, rfl⟩
      · rintro ⟨_, _, ⟨⟩, ⟨object, u₁, _, hobject, ⟨value, u₂, _, hvalue, hnil, rfl⟩, rfl⟩, he⟩
        obtain ⟨rfl, rfl⟩ := Prod.mk.inj hnil
        obtain rfl := Option.some.inj he
        refine ⟨object, u₁, hobject, key, u₁, ⟨rfl, rfl⟩, ?_⟩
        rw [hname, Lowering.run_bind_eq_ok_iff]
        exact ⟨value, u', hvalue, rfl⟩

/-- Writing an expression succeeds exactly when the node has a head and its parts can be written,
in this order. -/
theorem run_exprWith_eq_ok_iff (input : Nat → Lowering Expr) (hn : n.kind.isReturn = false)
    (u : Uses) (e : Expr) (u' : Uses) :
  (b.exprWith input n).run u = .ok (e, u')
    ↔ ∃ h es, b.head? n = some h ∧ ((b.operands n).mapM input).run u = .ok (es, u') ∧
        h.build? es = some e
  := by
  rw [exprWith, head?, operands]
  cases hk : n.kind with
  | functionDeclaration name _ _ => exact run_pure_eq_ok_iff_of_build? rfl u e u'
  | parameter name _ _ _ => exact run_pure_eq_ok_iff_of_build? rfl u e u'
  | identifier binding => exact run_pure_eq_ok_iff_of_build? rfl u e u'
  | variableStatement binding => exact run_pure_eq_ok_iff_of_build? rfl u e u'
  | numericLiteral value _ => exact run_pure_eq_ok_iff_of_build? rfl u e u'
  | stringLiteral value _ => exact run_pure_eq_ok_iff_of_build? rfl u e u'
  | functionReference _ _ =>
    simp only [Lowering.run_bind_eq_ok_iff, Lowering.run_lift_eq_ok_iff]
    cases b.referencedFunction n with
    | error d => simp [Except.toOption]
    | ok name =>
      rw [Except.toOption, Option.map_some, ← run_pure_eq_ok_iff_of_build? rfl]
      constructor
      · rintro ⟨_, _, ⟨hname, rfl⟩, h⟩
        obtain rfl := Except.ok.inj hname
        exact h
      · intro h
        exact ⟨name, u, ⟨rfl, rfl⟩, h⟩
  | binaryExpression operator _ _ _ =>
    simp only [run_mapM_cons, run_mapM_nil]
    cases Operator.ofToken? operator with
    | none =>
      simp only [Lowering.run_throw_ne_ok, Option.map_none, reduceCtorEq, false_and, exists_false]
    | some op =>
      simp only [Lowering.run_bind_eq_ok_iff, Lowering.run_pure_eq_ok_iff, Option.map_some]
      constructor
      · rintro ⟨left, u₁, hleft, right, u₂, hright, h⟩
        obtain ⟨rfl, rfl⟩ := Prod.mk.inj h
        exact ⟨_, _, rfl, ⟨left, u₁, _, hleft, ⟨right, u₂, [], hright, rfl, rfl⟩, rfl⟩, rfl⟩
      · rintro ⟨_, _, ⟨⟩, ⟨left, u₁, _, hleft, ⟨right, u₂, _, hright, hnil, rfl⟩, rfl⟩, he⟩
        obtain ⟨rfl, rfl⟩ := Prod.mk.inj hnil
        obtain rfl := Option.some.inj he
        exact ⟨left, u₁, hleft, right, u', hright, rfl⟩
  | conditionalExpression _ _ _ _ =>
    simp only [run_mapM_cons, run_mapM_nil, Lowering.run_bind_eq_ok_iff,
      Lowering.run_pure_eq_ok_iff]
    constructor
    · rintro ⟨test, u₁, htest, yes, u₂, hyes, no, u₃, hno, h⟩
      obtain ⟨rfl, rfl⟩ := Prod.mk.inj h
      exact ⟨_, _, rfl, ⟨test, u₁, _, htest, ⟨yes, u₂, _, hyes,
        ⟨no, u₃, [], hno, rfl, rfl⟩, rfl⟩, rfl⟩, rfl⟩
    · rintro ⟨_, _, ⟨⟩, ⟨test, u₁, _, htest, ⟨yes, u₂, _, hyes,
        ⟨no, u₃, _, hno, hnil, rfl⟩, rfl⟩, rfl⟩, he⟩
      obtain ⟨rfl, rfl⟩ := Prod.mk.inj hnil
      obtain rfl := Option.some.inj he
      exact ⟨test, u₁, htest, yes, u₂, hyes, no, u', hno, rfl⟩
  | callExpression inputs _ =>
    simp only [Lowering.run_bind_eq_ok_iff, Lowering.run_lift_eq_ok_iff,
      Lowering.run_pure_eq_ok_iff]
    cases b.callee n with
    | error d => simp [Except.toOption]
    | ok name =>
      simp only [Except.toOption, Option.map_some]
      constructor
      · rintro ⟨_, _, ⟨hname, rfl⟩, args, u₁, hargs, h⟩
        obtain rfl := Except.ok.inj hname
        obtain ⟨rfl, rfl⟩ := Prod.mk.inj h
        exact ⟨_, args, rfl, hargs, rfl⟩
      · rintro ⟨_, args, ⟨⟩, hargs, he⟩
        obtain rfl := Option.some.inj he
        exact ⟨name, u, ⟨rfl, rfl⟩, args, u', hargs, rfl⟩
  | elementAccess _ => exact run_access_eq_ok_iff input n u e u'
  | propertyAccess _ => exact run_access_eq_ok_iff input n u e u'
  | returnStatement _ _ _ => simp [hk, Kind.isReturn] at hn

end Board

end Patchboard
