import Patchboard.Proofs.Compile.Functions

/-!
# What a function depends on

What a function compiles to depends on its id, its name, its parameters, its returns and the nodes
that the returns lead to from slot to slot. Of these nodes it does not matter where they are, who is
recorded to consume them and how large they are when they are functions; and nothing else on the
board matters. Two boards that agree on all this are compiled in step: the searches take the same
course, and whatever one board writes or reports, so does the other.
-/

namespace Patchboard

open Relation (ReflTransGen)

/-! ## What is read of a node -/

/-- The payload without the recorded consumers and without the size of a rectangle. -/
def Kind.bare (k : Kind) : Kind :=
  match k.mapConsumers (fun _ => []) (fun _ => none) with
  | functionDeclaration name _ _ => functionDeclaration name .zero .zero
  | k => k

/-- What is read of a node when it is compiled: its id and its bare payload, not its position. -/
def Node.bare (n : Node) : Node :=
  ⟨n.id, .zero, .zero, n.kind.bare⟩

@[simp]
theorem Kind.inputs_bare (k : Kind) :
  k.bare.inputs = k.inputs
  := by
  cases k <;> rfl

@[simp]
theorem Kind.tag_bare (k : Kind) :
  k.bare.tag = k.tag
  := by
  cases k <;> rfl

@[simp]
theorem Kind.isBinding_bare (k : Kind) :
  k.bare.isBinding = k.isBinding
  := by
  cases k <;> rfl

/-- A bare node gives a value, or is a function, exactly when the node is. -/
theorem Kind.hasOutput_bare (k : Kind) :
  (k.bare.producesValue || k.bare.isFunction) = (k.producesValue || k.isFunction)
  := by
  cases k <;> rfl

/-- A bare node has the wires of the node. -/
theorem Node.wires_bare (n : Node) :
  n.bare.wires = n.wires
  := by
  simp only [wires, bare, Kind.inputs_bare]

/-- A bare parameter declares what the parameter declares. -/
theorem Node.param?_bare (n : Node) :
  n.bare.param? = n.param?
  := by
  obtain ⟨id, x, y, k⟩ := n
  cases k <;> rfl

/-- A bare return declares the type that the return declares. -/
theorem Node.returnType_bare (n : Node) :
  n.bare.returnType = n.returnType
  := by
  obtain ⟨id, x, y, k⟩ := n
  cases k <;> rfl

/-- What is read of bare nodes only is the same for nodes that agree when they are bare. -/
theorem Node.congr_bare {α : Type} (read : Node → α) (hread : ∀ n : Node, read n.bare = read n)
    {n n' : Node} (h : n'.bare = n.bare) :
  read n' = read n
  := by
  rw [← hread, h, hread]

/-- Nodes that agree when they are bare have one id. -/
theorem Node.id_eq_of_bare {n n' : Node} (h : n'.bare = n.bare) :
  n'.id = n.id
  := congr_bare Node.id (fun _ => rfl) h

/-- Two steps in a row come to the same when the first do, and the second after them. -/
theorem Lowering.run_bind_congr {α β : Type} {x x' : Lowering α} {f f' : α → Lowering β}
    {u : Uses} (hx : x'.run u = x.run u)
    (hf : ∀ a u', x.run u = .ok (a, u') → (f' a).run u' = (f a).run u') :
  (x' >>= f').run u = (x >>= f).run u
  := by
  rw [StateT.run_bind, StateT.run_bind, hx]
  cases h : x.run u with
  | error d => rfl
  | ok r => exact hf r.1 r.2 h

namespace Board

variable {b b' : Board} {n n' r p : Node} {id id' function : NodeId} {slot : Nat}

theorem producer_bare (b : Board) (n : Node) (slot : Nat) :
  b.producer n.bare slot = b.producer n slot
  := by
  simp only [producer, Node.bare, Kind.input, Kind.inputs_bare, Kind.tag_bare]

theorem referencedFunction_bare (b : Board) (n : Node) :
  b.referencedFunction n.bare = b.referencedFunction n
  := by
  simp only [referencedFunction, producer_bare]
  rfl

theorem callee_bare (b : Board) (n : Node) :
  b.callee n.bare = b.callee n
  := by
  simp only [callee, producer_bare]
  rfl

theorem inputWith_bare (b : Board) (expr : Node → Lowering Expr) (n : Node) (slot : Nat) :
  b.inputWith expr n.bare slot = b.inputWith expr n slot
  := by
  simp only [inputWith, producer_bare]
  rfl

theorem propertyName?_bare (n : Node) :
  propertyName? n.bare = propertyName? n
  := by
  obtain ⟨id, x, y, k⟩ := n
  cases k <;> rfl

theorem exprWith_bare (b : Board) (input : Nat → Lowering Expr) (n : Node) :
  b.exprWith input n.bare = b.exprWith input n
  := by
  rw [exprWith, referencedFunction_bare, callee_bare, producer_bare, exprWith]
  obtain ⟨nid, x, y, k⟩ := n
  cases k <;> rfl

/-! ## Boards that agree below an id -/

/-- The node of an id holds another id in some slot. The other id may be missing from the board. -/
def Reads (b : Board) (id id' : NodeId) : Prop :=
  ∃ n, b.get? id = some n ∧ ∃ slot, n.kind.input slot = some id'

/-- Two boards agree on what an id leads to from slot to slot, itself included: each id is missing
from both boards or has nodes on both that are the same when they are bare. -/
def AgreesBelow (b b' : Board) (id : NodeId) : Prop :=
  ∀ id', ReflTransGen b.Reads id id' → (b'.get? id').map Node.bare = (b.get? id').map Node.bare

namespace AgreesBelow

/-- Boards that agree below an id agree on the id. -/
theorem get? (h : b.AgreesBelow b' id) :
  (b'.get? id).map Node.bare = (b.get? id).map Node.bare
  := h id .refl

/-- Boards that agree below a node agree below what its slots hold. -/
theorem input (h : b.AgreesBelow b' n.id) (hn : n ∈ b.nodes)
    (hslot : n.kind.input slot = some id) :
  b.AgreesBelow b' id
  := by
  intro id' hid'
  apply h id'
  exact .head ⟨n, get?_of_mem hn, slot, hslot⟩ hid'

/-- Boards that agree below a return agree below all that it needs. -/
theorem live (h : b.AgreesBelow b' r.id) (hr : r ∈ b.nodes) (hn : b.Live r n) :
  b.AgreesBelow b' n.id
  := by
  induction hn with
  | refl => exact h
  | tail hlive hneeds ih =>
    obtain ⟨slot, hslot, -⟩ := hneeds
    exact ih.input (Live.mem hr hlive) hslot

/-- Where boards agree, an id is missing from both or on both. -/
theorem contains (h : b.AgreesBelow b' id) :
  b'.contains id = b.contains id
  := by
  rw [Board.contains, ← Option.isSome_map (f := Node.bare), h.get?, Option.isSome_map,
    Board.contains]

/-- Where boards agree, an id is a binding on both or on none. -/
theorem isBinding (h : b.AgreesBelow b' id) :
  b'.isBinding id = b.isBinding id
  := by
  have hbare : ∀ b : Board,
      b.isBinding id = ((b.get? id).map Node.bare).any fun n => n.kind.isBinding := by
    intro b
    rw [Board.isBinding, Option.any_map]
    simp [Node.bare]
  rw [hbare, hbare, h.get?]

/-- Where boards agree, the same wires lead into a node. -/
theorem wiresInto (h : b.AgreesBelow b' id) :
  b'.wiresInto id = b.wiresInto id
  := by
  have hbare : ∀ b : Board,
      b.wiresInto id = (((b.get? id).map Node.bare).map Node.wires).getD [] := by
    intro b
    rw [Board.wiresInto, Option.map_map]
    simp [Node.wires_bare, Function.comp_def]
  rw [hbare, hbare, h.get?]

/-- Where a board has a node, so has a board that agrees. -/
theorem exists_node (h : b.AgreesBelow b' id) (hn : b.get? id = some n) :
  ∃ n', b'.get? id = some n' ∧ n'.bare = n.bare
  := by
  apply Option.map_eq_some_iff.1
  rw [h.get?, hn, Option.map_some]

/-! ## What is live -/

/-- Boards that agree below a return have the same live ids. -/
theorem live_eq (h : b.AgreesBelow b' r.id) (hr : r ∈ b.nodes) :
  b'.live r.id = b.live r.id
  := by
  have hlive : ∀ id ∈ b.live r.id, b.AgreesBelow b' id ∧ b.contains id = true := by
    intro id hid
    obtain ⟨n, hn, rfl⟩ := (mem_live_iff hr id).1 hid
    exact ⟨h.live hr hn, contains_iff_exists.2 ⟨n, hn.mem hr, rfl⟩⟩
  apply Graph.reach_congr b.closed_wiring (List.mem_map_of_mem hr)
  · intro id hid
    obtain ⟨hagree, hcontains⟩ := hlive id hid
    rw [← hagree.contains] at hcontains
    exact (b'.contains_iff id).1 hcontains
  · intro id hid
    obtain ⟨n, hn, rfl⟩ := (mem_live_iff hr id).1 hid
    have hagree := h.live hr hn
    simp only [wiring, hagree.wiresInto, wiresInto_id (hn.mem hr)]
    congr 1
    apply List.filter_congr
    intro id' hid'
    obtain ⟨w, hw, rfl⟩ := List.mem_map.1 hid'
    apply (hagree.input (hn.mem hr) ((n.mem_wires_iff w).1 hw).2).contains

/-- Boards that agree below a return have the same live wires. -/
theorem liveWires_eq (h : b.AgreesBelow b' r.id) (hr : r ∈ b.nodes) :
  b'.liveWires r.id = b.liveWires r.id
  := by
  rw [liveWires, liveWires, h.live_eq hr, List.flatMap_def, List.flatMap_def]
  congr 1
  apply List.map_congr_left
  intro id hid
  obtain ⟨n, hn, rfl⟩ := (mem_live_iff hr id).1 hid
  apply (h.live hr hn).wiresInto

/-- Boards that agree below a return agree below the producers of live wires. -/
theorem liveWire (h : b.AgreesBelow b' r.id) (hr : r ∈ b.nodes) {w : Wire}
    (hw : w ∈ b.liveWires r.id) :
  b.AgreesBelow b' w.producer
  := by
  obtain ⟨n, hn, -, hslot⟩ := (mem_liveWires_iff hr w).1 hw
  apply (h.live hr hn).input (hn.mem hr) hslot

/-- Boards that agree below a return report the same live wire as dangling. -/
theorem danglingWire?_eq (h : b.AgreesBelow b' r.id) (hr : r ∈ b.nodes) :
  b'.danglingWire? r.id = b.danglingWire? r.id
  := by
  rw [danglingWire?, danglingWire?, h.liveWires_eq hr]
  rw [← List.head?_filter, ← List.head?_filter]
  congr 1
  apply List.filter_congr
  intro w hw
  rw [(h.liveWire hr hw).contains]

/-- Boards that agree below a return count the same uses of bindings, in the same order. -/
theorem uses_eq (h : b.AgreesBelow b' r.id) (hr : r ∈ b.nodes) :
  b'.uses r.id = b.uses r.id
  := by
  have hused : ((b'.liveWires r.id).map Wire.producer).filter b'.isBinding
      = ((b.liveWires r.id).map Wire.producer).filter b.isBinding := by
    rw [h.liveWires_eq hr]
    apply List.filter_congr
    intro id hid
    obtain ⟨w, hw, rfl⟩ := List.mem_map.1 hid
    apply (h.liveWire hr hw).isBinding
  rw [uses, uses, hused]

/-- Boards that agree below a return have the same dependencies, in the same order. -/
theorem dependencies_eq (h : b.AgreesBelow b' r.id) (hr : r ∈ b.nodes) :
  b'.dependencies r.id = b.dependencies r.id
  := by
  have hinner : (b'.liveWires r.id).filter (fun w => !b'.isBinding w.producer)
      = (b.liveWires r.id).filter fun w => !b.isBinding w.producer := by
    rw [h.liveWires_eq hr]
    apply List.filter_congr
    intro w hw
    rw [(h.liveWire hr hw).isBinding]
  rw [dependencies, dependencies, hinner, h.live_eq hr]

/-! ## What is written -/

/-- A slot has no producer on both boards, for one reason, or it has producers that are the same
when they are bare and below which the boards agree. -/
theorem producer (h : b.AgreesBelow b' n.id) (hn : n ∈ b.nodes) (slot : Nat) :
  (∃ d, b.producer n slot = .error d ∧ b'.producer n slot = .error d) ∨
    ∃ p p', b.producer n slot = .ok p ∧ b'.producer n slot = .ok p' ∧ p'.bare = p.bare ∧
      p ∈ b.nodes ∧ b.AgreesBelow b' p.id
  := by
  rw [Board.producer, Board.producer]
  cases hslot : n.kind.input slot with
  | none => exact .inl ⟨_, rfl, rfl⟩
  | some id =>
    have hagree := h.input hn hslot
    cases hp : b.get? id with
    | none =>
      have hp' := hagree.get?
      rw [hp, Option.map_none, Option.map_eq_none_iff] at hp'
      simp only [hp, hp']
      exact .inl ⟨_, rfl, rfl⟩
    | some p =>
      obtain ⟨p', hp', hbare⟩ := hagree.exists_node hp
      obtain ⟨hmem, rfl⟩ := get?_eq_some_iff.1 hp
      have hvalue := Node.congr_bare (fun n => n.kind.producesValue || n.kind.isFunction)
        (fun n => n.kind.hasOutput_bare) hbare
      simp only [hp, hp', hvalue]
      split
      · exact .inr ⟨p, p', rfl, rfl, hbare, hmem, hagree⟩
      · exact .inl ⟨_, rfl, rfl⟩

/-- What is done with the producer of a slot is the same on both boards when it is the same for
producers that are the same when they are bare. -/
theorem producer_bind {α : Type} (h : b.AgreesBelow b' n.id) (hn : n ∈ b.nodes) (slot : Nat)
    {use use' : Node → Except Diagnostic α}
    (huse : ∀ p p', p'.bare = p.bare → p ∈ b.nodes → b.AgreesBelow b' p.id →
      use' p' = use p) :
  b'.producer n slot >>= use' = b.producer n slot >>= use
  := by
  rcases h.producer hn slot with ⟨d, hp, hp'⟩ | ⟨p, p', hp, hp', hbare, hmem, hagree⟩
  · rw [hp, hp']
    rfl
  · rw [hp, hp']
    exact huse p p' hbare hmem hagree

/-- The same holds of what is written for the producer. -/
theorem producer_bind_lift {α : Type} (h : b.AgreesBelow b' n.id) (hn : n ∈ b.nodes) (slot : Nat)
    {use use' : Node → Lowering α}
    (huse : ∀ p p', p'.bare = p.bare → p ∈ b.nodes → b.AgreesBelow b' p.id →
      use' p' = use p) :
  (liftM (b'.producer n slot) >>= use' : Lowering α) = liftM (b.producer n slot) >>= use
  := by
  rcases h.producer hn slot with ⟨d, hp, hp'⟩ | ⟨p, p', hp, hp', hbare, hmem, hagree⟩
  · rw [hp, hp']
    rfl
  · rw [hp, hp']
    exact huse p p' hbare hmem hagree

/-- A reference names the same function on both boards. -/
theorem referencedFunction (h : b.AgreesBelow b' n.id) (hn : n ∈ b.nodes) :
  b'.referencedFunction n = b.referencedFunction n
  := by
  apply h.producer_bind hn
  intro p p' hbare _ _
  apply Node.congr_bare _ _ hbare
  rintro ⟨_, _, _, k⟩
  cases k <;> rfl

/-- A call names the same function on both boards. -/
theorem callee (h : b.AgreesBelow b' n.id) (hn : n ∈ b.nodes) :
  b'.callee n = b.callee n
  := by
  apply h.producer_bind hn
  intro p p' hbare hp hagree
  rw [← hagree.referencedFunction hp]
  apply Node.congr_bare _ _ hbare
  rintro ⟨_, _, _, k⟩
  cases k with
  | functionReference => apply b'.referencedFunction_bare
  | _ => rfl

/-- An expression is the same on both boards when its slots are written in the same way. -/
theorem exprWith (h : b.AgreesBelow b' n.id) (hn : n ∈ b.nodes) (input : Nat → Lowering Expr) :
  b'.exprWith input n = b.exprWith input n
  := by
  rw [Board.exprWith, Board.exprWith]
  cases n.kind with
  | functionReference => rw [h.referencedFunction hn]
  | callExpression => rw [h.callee hn]
  | elementAccess | propertyAccess =>
    apply congrArg (input 0 >>= ·)
    funext object
    apply h.producer_bind_lift hn
    intro p p' hbare _ _
    rw [Node.congr_bare _ propertyName?_bare hbare]
  | _ => rfl

/-- A slot is written in the same way on both boards when its producers are. -/
theorem inputWith (h : b.AgreesBelow b' n.id) (hn : n ∈ b.nodes) (slot : Nat)
    {expr expr' : Node → Lowering Expr}
    (hexpr : ∀ p p', p'.bare = p.bare → p ∈ b.nodes → b.AgreesBelow b' p.id →
      expr' p' = expr p) :
  b'.inputWith expr' n slot = b.inputWith expr n slot
  := by
  apply h.producer_bind_lift hn
  intro p p' hbare hp hagree
  have hbinding : p'.kind.isBinding = p.kind.isBinding :=
    Node.congr_bare (fun n => n.kind.isBinding) (fun n => n.kind.isBinding_bare) hbare
  rw [hbinding, Node.id_eq_of_bare hbare, hexpr p p' hbare hp hagree]

/-- Nodes that are the same when they are bare, and below which the boards agree, are written in the
same way. -/
theorem expr (h : b.AgreesBelow b' n.id) (hn : n ∈ b.nodes) (hbare : n'.bare = n.bare)
    (function : NodeId) (levels : Nat) :
  (b'.expr function levels n' : Lowering Expr) = b.expr function levels n
  := by
  induction levels generalizing n n' with
  | zero => rw [Board.expr, Board.expr, Node.id_eq_of_bare hbare]
  | succ levels ih =>
    let read (q : Node) : Lowering Expr := b'.exprWith (b'.inputWith (b'.expr function levels) q) q
    have hread : read n' = read n := by
      apply Node.congr_bare read _ hbare
      intro q
      simp only [read, exprWith_bare]
      congr 1
      funext slot
      apply inputWith_bare
    have hslots : (b'.inputWith (b'.expr function levels) n : Nat → Lowering Expr)
        = b.inputWith (b.expr function levels) n := by
      funext slot
      apply h.inputWith hn
      intro p p' hbare hp hagree
      apply ih hagree hp hbare
    rw [Board.expr, Board.expr]
    apply hread.trans
    simp only [read]
    rw [hslots, h.exprWith hn]

/-- The slots of such nodes are written in the same way. -/
theorem run_input (h : b.AgreesBelow b' n.id) (hn : n ∈ b.nodes) (hbare : n'.bare = n.bare)
    (function : NodeId) (slot : Nat) :
  (b'.input function n' slot : Lowering Expr) = b.input function n slot
  := by
  rw [Board.input,
    Node.congr_bare (fun q => b'.inputWith _ q slot) (fun q => b'.inputWith_bare _ q slot) hbare]
  apply h.inputWith hn
  intro p p' hbare hp hagree
  apply hagree.expr hp hbare

/-- A binding below which the boards agree is declared in the same way. -/
theorem declaration (h : b.AgreesBelow b' id) (function : NodeId) :
  (b'.declaration function id : Lowering Stmt) = b.declaration function id
  := by
  rw [Board.declaration, Board.declaration, declarationWith, declarationWith]
  cases hn : b.get? id with
  | none =>
    have hn' := h.get?
    rw [hn, Option.map_none, Option.map_eq_none_iff] at hn'
    rw [hn']
  | some n =>
    obtain ⟨n', hn', hbare⟩ := h.exists_node hn
    obtain ⟨hmem, rfl⟩ := get?_eq_some_iff.1 hn
    rw [hn']
    dsimp only
    have hinput : (b'.inputWith (b'.expr function maxNesting) n 0 : Lowering Expr)
        = b.inputWith (b.expr function maxNesting) n 0 := h.run_input hmem rfl function 0
    rw [← hinput]
    apply Node.congr_bare _ _ hbare
    rintro ⟨_, _, _, k⟩
    cases k <;> rfl

end AgreesBelow

/-- Boards agree below an id when they agree on some ids, itself among them, from which no slot
leads out. -/
theorem agreesBelow_of_closed {ids : List NodeId} (hid : id ∈ ids)
    (hclosed : ∀ id ∈ ids, ∀ w ∈ b.wiresInto id, w.producer ∈ ids)
    (hsame : ∀ id ∈ ids, (b'.get? id).map Node.bare = (b.get? id).map Node.bare) :
  b.AgreesBelow b' id
  := by
  intro id' hid'
  apply hsame
  induction hid' with
  | refl => exact hid
  | tail _ hreads ih =>
    obtain ⟨n, hn, slot, hslot⟩ := hreads
    apply hclosed _ ih ⟨n.id, slot, _⟩
    rw [wiresInto, hn, Option.map_some, Option.getD_some]
    exact (n.mem_wires_iff _).2 ⟨rfl, hslot⟩

/-- The declaration of a binding declares no other. -/
theorem undeclared_of_run_declaration {u u' : Uses} {s : Stmt}
    (h : (b.declaration function id : Lowering Stmt).run u = .ok (s, u')) :
  u'.undeclared = u.undeclared
  := by
  cases hn : b.get? id with
  | none =>
    rw [declaration, declarationWith, hn] at h
    apply (Lowering.run_throw_ne_ok _ _ _ h).elim
  | some n =>
    obtain ⟨hmem, rfl⟩ := get?_eq_some_iff.1 hn
    obtain ⟨-, -, hspends⟩ := run_declaration_ok hmem h
    exact hspends.undeclared

/-- What is declared next is a binding that is ready, and no other. -/
theorem undeclared_of_run_nextWith {u u' : Uses} {s : Stmt}
    (h : (nextWith function (b.declaration function) : Lowering Stmt).run u = .ok (s, u')) :
  ∃ id, u.ready? = some id ∧ u'.undeclared = (u.declare id).undeclared
  := by
  rw [run_nextWith] at h
  cases hready : u.ready? with
  | none =>
    rw [hready] at h
    cases h
  | some id =>
    rw [hready] at h
    exact ⟨id, rfl, undeclared_of_run_declaration h⟩

/-- The bindings are declared in the same way when the boards agree below all of them. -/
theorem run_declarations_congr {u : Uses} (h : ∀ id ∈ u.undeclared, b.AgreesBelow b' id)
    (count : Nat) :
  (b'.declarations function count : Lowering (List Stmt)).run u
    = (b.declarations function count : Lowering (List Stmt)).run u
  := by
  induction count generalizing u with
  | zero => rfl
  | succ count ih =>
    rw [declarations, declarations]
    have hnext : (nextWith function (b'.declaration function) : Lowering Stmt).run u
        = (nextWith function (b.declaration function) : Lowering Stmt).run u := by
      rw [run_nextWith, run_nextWith]
      cases hready : u.ready? with
      | none => rfl
      | some id =>
        dsimp only
        rw [(h id (Uses.mem_undeclared_of_ready? hready)).declaration]
    apply Lowering.run_bind_congr hnext
    intro last u₁ hlast
    apply Lowering.run_bind_congr _ fun _ _ _ => rfl
    apply ih
    intro id hid
    obtain ⟨id', -, hundeclared⟩ := undeclared_of_run_nextWith hlast
    rw [hundeclared, Uses.mem_undeclared_declare] at hid
    apply h id hid.1

/-- Returns that are the same when they are bare, and below which the boards agree, have the same
statements. -/
theorem AgreesBelow.body {r' : Node} (h : b.AgreesBelow b' r.id) (hr : r ∈ b.nodes)
    (hbare : r'.bare = r.bare) (function : NodeId) :
  b'.body function r' = b.body function r
  := by
  have hdeclarations : ∀ value u₁,
      (b.input function r 0 : Lowering Expr).run ⟨b.uses r.id, []⟩ = .ok (value, u₁) →
      (b'.declarations function (b.uses r.id).length : Lowering (List Stmt)).run u₁
        = (b.declarations function (b.uses r.id).length : Lowering (List Stmt)).run u₁ := by
    intro value u₁ hvalue
    obtain ⟨-, -, hspends⟩ := run_input_ok hvalue
    apply run_declarations_congr
    intro id hid
    rw [hspends.undeclared] at hid
    obtain ⟨n, slot, p, hn, hp, -, rfl⟩ := (mem_map_fst_uses_iff hr id).1 hid
    apply h.live hr (hn.step hp)
  have hid := Node.id_eq_of_bare hbare
  have hdangling' : b'.danglingWire? r'.id = b.danglingWire? r.id := by
    rw [hid, h.danglingWire?_eq hr]
  have hcycle' : (b'.dependencies r'.id).firstCycle? = (b.dependencies r.id).firstCycle? := by
    rw [hid, h.dependencies_eq hr]
  cases hdangling : b.danglingWire? r.id with
  | some w =>
    rw [hdangling] at hdangling'
    rw [body_of_danglingWire? hdangling', body_of_danglingWire? hdangling]
  | none =>
    rw [hdangling] at hdangling'
    cases hcycle : (b.dependencies r.id).firstCycle? with
    | some ids =>
      rw [hcycle] at hcycle'
      rw [body_of_firstCycle? hdangling' hcycle', body_of_firstCycle? hdangling hcycle]
    | none =>
      rw [hcycle] at hcycle'
      rw [body_eq hdangling' hcycle', body_eq hdangling hcycle, hid, h.uses_eq hr, h.run_input hr hbare]
      apply congrArg (Prod.fst <$> ·)
      apply Lowering.run_bind_congr rfl
      intro value u₁ hvalue
      apply Lowering.run_bind_congr (hdeclarations value u₁ hvalue) fun _ _ _ => rfl

/-- Lists of returns with the same ids have no sole return, for one reason, or each has one. -/
theorem soleReturn_congr (function : NodeId) {ns ns' : List Node}
    (h : ns'.map Node.id = ns.map Node.id) :
  (∃ d, soleReturn function ns = .error d ∧ soleReturn function ns' = .error d) ∨
    ∃ r r', ns = [r] ∧ ns' = [r']
  := by
  have hlength : ns'.length = ns.length := by simpa using congrArg List.length h
  match ns, ns', hlength with
  | [], [], _ => exact .inl ⟨_, rfl, rfl⟩
  | [r], [r'], _ => exact .inr ⟨r, r', rfl, rfl⟩
  | r :: s :: rs, r' :: s' :: rs', _ =>
    left
    refine ⟨.multipleReturns function ((r :: s :: rs).map Node.id), rfl, ?_⟩
    rw [← h]
    rfl

/-- What a function compiles to depends on its id, its name, its parameters, its returns and what
these lead to from slot to slot. Wherever the nodes are, however large the functions are, in whatever
order the nodes were placed and whoever is recorded to consume them, and whatever else is on the
boards, the result and the diagnostic are the same. -/
theorem compileFunction_congr {b b' : Board} {f f' : Node} {name : String}
    {width height width' height' : Binary64}
    (hf : f.kind = .functionDeclaration name width height)
    (hf' : f'.kind = .functionDeclaration name width' height') (hid : f'.id = f.id)
    (hparams :
      (parametersOf (b'.scope f')).map Node.bare = (parametersOf (b.scope f)).map Node.bare)
    (hreturns : (b'.returnsOf f').map Node.id = (b.returnsOf f).map Node.id)
    (hagree : ∀ r ∈ b.returnsOf f, b.AgreesBelow b' r.id) :
  b'.compileFunction f' = b.compileFunction f
  := by
  have hparamsOf : b'.paramsOf f' = b.paramsOf f := by
    have hread : ∀ ns : List Node,
        (ns.map Node.bare).filterMap Node.param? = ns.filterMap Node.param? := by
      intro ns
      rw [List.filterMap_map]
      congr 1
      funext n
      apply n.param?_bare
    rw [paramsOf, paramsOf, ← hread, hparams, hread]
  rw [compileFunction_eq hf, compileFunction_eq hf', hparamsOf, hid]
  rcases soleReturn_congr f.id hreturns with ⟨d, hsole, hsole'⟩ | ⟨r, r', hrs, hrs'⟩
  · simp only [hsole, hsole', bind, Except.bind]
  · rw [hrs] at hagree
    have h := hagree r (List.mem_singleton_self r)
    have hr := (returnsOf_spec hrs).1
    have hr' := (returnsOf_spec hrs').1
    rw [hrs, hrs', List.map_singleton, List.map_singleton, List.singleton_inj] at hreturns
    have hbare : r'.bare = r.bare := by
      have hget := h.get?
      rw [get?_of_mem hr, ← hreturns, get?_of_mem hr'] at hget
      exact Option.some.inj hget
    rw [(soleReturn_eq_ok_iff f.id _ r).2 hrs, (soleReturn_eq_ok_iff f.id _ r').2 hrs']
    simp only [bind, Except.bind]
    rw [h.body hr hbare, Node.congr_bare _ Node.returnType_bare hbare]

/-- A function of two parameters that returns their sum. -/
def sumBoard : Board where
  nodes := [
    ⟨⟨0⟩, .ofNat 0, .ofNat 0, .functionDeclaration "f" (.ofNat 16) (.ofNat 8)⟩,
    ⟨⟨1⟩, .ofNat 1, .ofNat 0, .parameter "x" "number" false [⟨3⟩]⟩,
    ⟨⟨2⟩, .ofNat 2, .ofNat 0, .parameter "y" "number" false [⟨3⟩]⟩,
    ⟨⟨3⟩, .ofNat 3, .ofNat 0, .binaryExpression "+" (some ⟨1⟩) (some ⟨2⟩) (some ⟨4⟩)⟩,
    ⟨⟨4⟩, .ofNat 4, .ofNat 0, .returnStatement "infer" false (some ⟨3⟩)⟩]
  nextId := 5
  distinct := by decide

/-- The same function with a larger rectangle on a board in another order: the nodes are at other
places, no consumers are recorded, and there is a variable without a use. -/
def rearrangedSumBoard : Board where
  nodes := [
    ⟨⟨4⟩, .ofNat 0, .ofNat 0, .returnStatement "infer" false (some ⟨3⟩)⟩,
    ⟨⟨7⟩, .ofNat 1, .ofNat 1, .variableStatement ⟨"v", "number", false, some ⟨9⟩, [⟨4⟩]⟩⟩,
    ⟨⟨1⟩, .ofNat 3, .ofNat 2, .parameter "x" "number" false []⟩,
    ⟨⟨2⟩, .ofNat 9, .ofNat 1, .parameter "y" "number" false []⟩,
    ⟨⟨3⟩, .ofNat 0, .ofNat 0, .binaryExpression "+" (some ⟨1⟩) (some ⟨2⟩) none⟩,
    ⟨⟨0⟩, .ofNat 5, .ofNat 0, .functionDeclaration "f" (.ofNat 32) (.ofNat 8)⟩]
  nextId := 100
  distinct := by decide

/-- The function on the first board. -/
def sumFunction : Node :=
  ⟨⟨0⟩, .ofNat 0, .ofNat 0, .functionDeclaration "f" (.ofNat 16) (.ofNat 8)⟩

/-- The function on the second board. -/
def rearrangedSumFunction : Node :=
  ⟨⟨0⟩, .ofNat 5, .ofNat 0, .functionDeclaration "f" (.ofNat 32) (.ofNat 8)⟩

/-- Both functions compile to the same. -/
theorem compileFunction_sumBoard :
  sumBoard.compileFunction sumFunction
      = .ok ⟨"f", [⟨"x", ⟨.number, false⟩⟩, ⟨"y", ⟨.number, false⟩⟩], none,
          [.ret (.binary (.ident "x") .add (.ident "y"))]⟩ ∧
    rearrangedSumBoard.compileFunction rearrangedSumFunction = sumBoard.compileFunction sumFunction
  := by
  have hparameters : parametersOf (sumBoard.scope sumFunction)
      = [⟨⟨1⟩, .ofNat 1, .ofNat 0, .parameter "x" "number" false [⟨3⟩]⟩,
        ⟨⟨2⟩, .ofNat 2, .ofNat 0, .parameter "y" "number" false [⟨3⟩]⟩] := by
    rw [parametersOf, List.mergeSort_of_pairwise (by decide +kernel)]
    decide +kernel
  have hparameters' : parametersOf (rearrangedSumBoard.scope rearrangedSumFunction)
      = [⟨⟨1⟩, .ofNat 3, .ofNat 2, .parameter "x" "number" false []⟩,
        ⟨⟨2⟩, .ofNat 9, .ofNat 1, .parameter "y" "number" false []⟩] := by
    rw [parametersOf, List.mergeSort_of_pairwise (by decide +kernel)]
    decide +kernel
  have hreturns : sumBoard.returnsOf sumFunction
      = [⟨⟨4⟩, .ofNat 4, .ofNat 0, .returnStatement "infer" false (some ⟨3⟩)⟩] := by
    decide +kernel
  have hids : (rearrangedSumBoard.returnsOf rearrangedSumFunction).map Node.id
      = (sumBoard.returnsOf sumFunction).map Node.id := by
    decide +kernel
  have hagree : ∀ r ∈ sumBoard.returnsOf sumFunction,
      sumBoard.AgreesBelow rearrangedSumBoard r.id := by
    intro r hr
    rw [hreturns] at hr
    obtain rfl := List.mem_singleton.1 hr
    have hid : (⟨4⟩ : NodeId) ∈ ([⟨4⟩, ⟨3⟩, ⟨1⟩, ⟨2⟩] : List NodeId) := by decide
    apply agreesBelow_of_closed hid <;> decide +kernel
  have hf : sumFunction.kind = .functionDeclaration "f" (.ofNat 16) (.ofNat 8) := rfl
  have hf' : rearrangedSumFunction.kind = .functionDeclaration "f" (.ofNat 32) (.ofNat 8) := rfl
  constructor
  · rw [compileFunction_eq hf, paramsOf, hparameters, hreturns]
    rfl
  · have hparams : (parametersOf (rearrangedSumBoard.scope rearrangedSumFunction)).map Node.bare
        = (parametersOf (sumBoard.scope sumFunction)).map Node.bare := by
      rw [hparameters, hparameters']
      decide +kernel
    exact compileFunction_congr hf hf' rfl hparams hids hagree

end Board

end Patchboard
