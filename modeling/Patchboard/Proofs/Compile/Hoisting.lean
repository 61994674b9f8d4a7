import Patchboard.Proofs.Compile.Counting

/-!
# Declaring bindings

A binding is declared when all live wires from it have been consumed. Here is what the statements of
a function consist of when writing them succeeds, and when the declarations cannot get stuck.
-/

namespace Patchboard

/-- The value that a binding names, with its name and type. -/
def Kind.binding? : Kind → Option Binding
  | identifier binding | variableStatement binding => some binding
  | _ => none

/-- A node is a binding exactly when it names a value. -/
theorem Kind.isSome_binding? (k : Kind) :
  k.binding?.isSome = k.isBinding
  := by
  cases k <;> rfl

/-- What names a value is a binding. -/
theorem Kind.isBinding_of_binding? {k : Kind} {x : Binding} (h : k.binding? = some x) :
  k.isBinding = true
  := by
  rw [← isSome_binding?, h, Option.isSome_some]

/-- A return is no binding. -/
theorem Kind.not_isBinding_of_isReturn {k : Kind} (h : k.isReturn = true) :
  k.isBinding = false
  := by
  cases k <;> first | rfl | cases h

namespace Board

open Relation (ReflTransGen TransGen)

variable {b : Board} {r n p : Node} {function : NodeId} {u u' : Uses}

/-- A statement declares a binding. -/
def Declares (b : Board) (n : Node) (s : Stmt) : Prop :=
  ∃ binding type init, n.kind.binding? = some binding ∧
    ValueType.declared n.id binding.type binding.array = .ok type ∧
    b.SlotWrittenAs n 0 init ∧ s = .const binding.name type init

/-- What a slot holds does not nest too deep to be written. -/
def SlotNests (b : Board) (n : Node) (slot : Nat) : Prop :=
  ∀ p, b.Holds n slot p → b.NestsWithin maxNesting p

/-! ## Slots of bindings and returns -/

/-- What has been written for a slot. -/
theorem run_input_ok {slot : Nat} {e : Expr}
    (h : (b.input function n slot : Lowering Expr).run u = .ok (e, u')) :
  b.SlotWrittenAs n slot e ∧ b.SlotNests n slot ∧ u.Spends (b.UsesAt n slot) u'
  := by
  obtain ⟨p, hp, h⟩ := (run_inputWith_eq_ok_iff _ n slot u _).1 h
  obtain ⟨hwritten, hnests, hspends⟩ := run_expr_ok (not_isReturn_of_producer hp) h
  refine ⟨⟨p, hp, hwritten⟩, ?_, Spends.slot hp hspends⟩
  intro q hq
  rw [← producer_unique hp hq]
  apply hnests

/-- A slot that can be written, and does not nest too deep, is written with success. -/
theorem run_input_isOk {slot : Nat} {e : Expr} (h : b.SlotWrittenAs n slot e)
    (hnests : b.SlotNests n slot) (u : Uses) :
  ∃ e' u', (b.input function n slot : Lowering Expr).run u = .ok (e', u')
  := by
  obtain ⟨p, hp, hwritten⟩ := h
  obtain ⟨⟨e', u'⟩, hr⟩ := run_expr_isOk (not_isReturn_of_producer hp) hwritten
    (hnests p (producer_eq_ok_iff.1 hp).1)
    (if p.kind.isBinding then u.consume n.id slot p.id else u)
  exact ⟨e', u', (run_inputWith_eq_ok_iff _ n slot u _).2 ⟨p, hp, hr⟩⟩

/-- How a binding is declared, whatever the steps are. -/
theorem declarationWith_of_binding? {m : Type → Type} [Monad m] [MonadExceptOf Diagnostic m]
    [MonadLiftT (Except Diagnostic) m] [MonadUses m] {x : Binding} (hn : n ∈ b.nodes)
    (hx : n.kind.binding? = some x) (function : NodeId) (expr : Node → m Expr) :
  b.declarationWith function expr n.id = do
    let type ← ValueType.declared n.id x.type x.array
    return .const x.name type (← b.inputWith expr n 0)
  := by
  rw [declarationWith, get?_of_mem hn]
  dsimp only
  cases hk : n.kind with
  | identifier y | variableStatement y =>
    rw [hk] at hx
    obtain rfl := Option.some.inj hx
    rfl
  | _ =>
    rw [hk] at hx
    cases hx

/-- No other node is declared. -/
theorem declarationWith_of_binding?_eq_none {m : Type → Type} [Monad m] [MonadExceptOf Diagnostic m]
    [MonadLiftT (Except Diagnostic) m] [MonadUses m] (hn : n ∈ b.nodes) (hx : n.kind.binding? = none)
    (function : NodeId) (expr : Node → m Expr) :
  b.declarationWith function expr n.id = throw (.invalidConnection n.id 0 n.id)
  := by
  rw [declarationWith, get?_of_mem hn]
  dsimp only
  cases hk : n.kind with
  | identifier y | variableStatement y =>
    rw [hk] at hx
    cases hx
  | _ => rfl

/-- What has been written for a binding. -/
theorem run_declaration_ok {s : Stmt} (hn : n ∈ b.nodes)
    (h : (b.declaration function n.id : Lowering Stmt).run u = .ok (s, u')) :
  b.Declares n s ∧ b.SlotNests n 0 ∧ u.Spends (b.UsesAt n 0) u'
  := by
  rw [declaration] at h
  cases hx : n.kind.binding? with
  | none =>
    rw [declarationWith_of_binding?_eq_none hn hx] at h
    apply (Lowering.run_throw_ne_ok _ _ _ h).elim
  | some x =>
    simp only [declarationWith_of_binding? hn hx, Lowering.run_bind_eq_ok_iff,
      Lowering.run_lift_eq_ok_iff, Lowering.run_pure_eq_ok_iff] at h
    obtain ⟨type, _, ⟨htype, rfl⟩, init, u₁, hinit, h⟩ := h
    obtain ⟨rfl, rfl⟩ := Prod.mk.inj h
    obtain ⟨hwritten, hnests, hspends⟩ := run_input_ok hinit
    exact ⟨⟨x, type, init, hx, htype, hwritten, rfl⟩, hnests, hspends⟩

/-- A binding that can be declared, and does not nest too deep, is declared with success. -/
theorem run_declaration_isOk {s : Stmt} (hn : n ∈ b.nodes) (h : b.Declares n s)
    (hnests : b.SlotNests n 0) (u : Uses) :
  ∃ s' u', (b.declaration function n.id : Lowering Stmt).run u = .ok (s', u')
  := by
  obtain ⟨x, type, init, hx, htype, hwritten, -⟩ := h
  obtain ⟨e, u', he⟩ : ∃ e u', (b.input function n 0 : Lowering Expr).run u = .ok (e, u') :=
    run_input_isOk hwritten hnests u
  use .const x.name type e, u'
  simp only [declaration, declarationWith_of_binding? hn hx, Lowering.run_bind_eq_ok_iff,
    Lowering.run_lift_eq_ok_iff, Lowering.run_pure_eq_ok_iff]
  exact ⟨type, u, ⟨htype, rfl⟩, e, u', he, rfl⟩

/-- The wires that are used at a live node are live. -/
theorem mem_liveWires_of_usesAt (hr : r ∈ b.nodes) (hn : b.Live r n) {slot : Nat} {w : Wire}
    (h : b.UsesAt n slot w) :
  w ∈ b.liveWires r.id
  := by
  induction h with
  | direct feed _ =>
    obtain ⟨⟨hslot, -⟩, -⟩ := producer_eq_ok_iff.1 feed
    apply (mem_liveWires_iff hr _).2 ⟨_, hn, rfl, hslot⟩
  | inner feed _ _ ih =>
    apply ih
    apply hn.step (producer_eq_ok_iff.1 feed).1

/-- Where writing the bindings that a return needs has got to, when certain nodes are done. -/
structure Progress (b : Board) (r : Node) (done : Node → Prop) (u : Uses) : Prop where
  nodup : u.undeclared.Nodup
  counts : u.Counts (b.liveWires r.id)
  /-- A live wire has been consumed when a node that is done uses it. -/
  consumed : ∀ w ∈ b.liveWires r.id,
    (w.consumer, w.slot) ∈ u.consumed ↔ ∃ n, done n ∧ b.UsesAt n 0 w
  /-- What is to be declared are live bindings. -/
  live : ∀ id ∈ u.undeclared, ∃ n, b.Live r n ∧ n.kind.isBinding = true ∧ n.id = id
  /-- Every live binding is done or is to be declared, -/
  covered : ∀ n, b.Live r n → n.kind.isBinding = true → n.id ∈ u.undeclared ∨ done n
  /-- and not both. -/
  fresh : ∀ n, done n → n.id ∉ u.undeclared

/-- At the start nothing is done, and all live bindings are to be declared. -/
theorem Progress.start (hr : r ∈ b.nodes) (hret : r.kind.isReturn = true) :
  b.Progress r (fun _ => False) ⟨b.uses r.id, []⟩
  := by
  have hundeclared : Uses.undeclared ⟨b.uses r.id, []⟩ = (b.uses r.id).map Prod.fst := rfl
  constructor
  · rw [hundeclared, map_fst_uses]
    apply nodup_eraseDups
  · intro id count h
    simpa using ((mem_uses_iff b r.id id count).1 h).2
  · intro w _
    simp
  · intro id hid
    rw [hundeclared, mem_map_fst_uses_iff hr] at hid
    obtain ⟨n, slot, p, hn, hp, hbinding, hid⟩ := hid
    exact ⟨p, hn.step hp, hbinding, hid⟩
  · intro n hn hbinding
    left
    rw [hundeclared, mem_map_fst_uses_iff hr]
    -- The return is no binding, so that a live binding feeds a live node.
    rcases Relation.ReflTransGen.cases_tail hn with rfl | ⟨c, hc, slot, hslot⟩
    · rw [Kind.not_isBinding_of_isReturn hret] at hbinding
      cases hbinding
    · exact ⟨c, slot, n, hc, hslot, hbinding, rfl⟩
  · intro n h
    exact h.elim

/-- One more node is done: it is no longer to be declared, and the wires that it uses are
consumed. -/
theorem Progress.step {done : Node → Prop} (h : b.Progress r done u) (hr : r ∈ b.nodes)
    (hn : b.Live r n) (hspends : (u.declare n.id).Spends (b.UsesAt n 0) u') :
  b.Progress r (fun m => done m ∨ m = n) u'
  := by
  have hundeclared := hspends.undeclared
  constructor
  · rw [hundeclared]
    apply Uses.nodup_undeclared_declare h.nodup
  · apply hspends.counts (h.counts.declare n.id) (nodup_liveWires hr)
    · intro w hw w' hw'
      apply eq_of_mem_liveWires hr hw hw'
    · intro w hw
      apply mem_liveWires_of_usesAt hr hn hw
  · intro w hw
    rw [hspends.mem_consumed_iff, show (u.declare n.id).consumed = u.consumed from rfl, h.consumed w hw]
    constructor
    · rintro (⟨m, hm, huse⟩ | ⟨w', huse, hsame⟩)
      · exact ⟨m, .inl hm, huse⟩
      · obtain ⟨hc, hs⟩ := Prod.mk.inj hsame
        obtain rfl := eq_of_mem_liveWires hr hw (mem_liveWires_of_usesAt hr hn huse) hc hs
        exact ⟨n, .inr rfl, huse⟩
    · rintro ⟨m, hm | rfl, huse⟩
      · exact .inl ⟨m, hm, huse⟩
      · exact .inr ⟨w, huse, rfl⟩
  · intro id hid
    rw [hundeclared, Uses.mem_undeclared_declare] at hid
    apply h.live id hid.1
  · intro m hm hbinding
    rw [hundeclared, Uses.mem_undeclared_declare]
    rcases h.covered m hm hbinding with hmem | hdone
    · by_cases hid : m.id = n.id
      · exact .inr (.inr (eq_of_id_eq (hm.mem hr) (hn.mem hr) hid))
      · exact .inl ⟨hmem, hid⟩
    · exact .inr (.inl hdone)
  · rintro m (hdone | rfl) hmem
    · rw [hundeclared, Uses.mem_undeclared_declare] at hmem
      apply h.fresh m hdone hmem.1
    · rw [hundeclared, Uses.mem_undeclared_declare] at hmem
      apply hmem.2 rfl

/-- When the return has been written, it alone is done, and all live bindings are to be declared. -/
theorem Progress.of_return (hr : r ∈ b.nodes) (hret : r.kind.isReturn = true)
    (h : Uses.Spends ⟨b.uses r.id, []⟩ (b.UsesAt r 0) u) :
  b.Progress r (fun n => n = r) u ∧ u.undeclared.length = (b.uses r.id).length
  := by
  have hstart := Progress.start hr hret
  have hnew : r.id ∉ Uses.undeclared ⟨b.uses r.id, []⟩ := by
    intro hmem
    obtain ⟨n, hn, hbinding, hid⟩ := hstart.live r.id hmem
    obtain rfl := eq_of_id_eq (hn.mem hr) hr hid
    rw [Kind.not_isBinding_of_isReturn hret] at hbinding
    cases hbinding
  constructor
  · have hstep := hstart.step hr .refl ((Uses.declare_of_not_mem hnew).symm ▸ h)
    simpa only [false_or] using hstep
  · rw [h.undeclared]
    apply List.length_map

/-- The bindings are declared in this order, the last of them first, after certain nodes are done:
when a binding is declared, every live wire from it is used by what is done. -/
inductive Settled (b : Board) (r : Node) : (Node → Prop) → List Node → Prop
  | nil {done : Node → Prop} : Settled b r done []
  | snoc {done : Node → Prop} {ns : List Node} {n : Node}
      (used : ∀ w ∈ b.liveWires r.id, w.producer = n.id → ∃ m, done m ∧ b.UsesAt m 0 w)
      (rest : Settled b r (fun m => done m ∨ m = n) ns) :
      Settled b r done (ns ++ [n])

/-- What the declarations consist of when writing them succeeds. -/
structure Declared (b : Board) (r : Node) (done : Node → Prop) (ns : List Node) (ss : List Stmt) :
    Prop where
  declares : List.Forall₂ b.Declares ns ss
  nests : ∀ n ∈ ns, b.SlotNests n 0
  settled : b.Settled r done ns
  nodup : ns.Nodup
  /-- The bindings are the live ones that are not done. -/
  mem_iff : ∀ n, n ∈ ns ↔ b.Live r n ∧ n.kind.isBinding = true ∧ ¬ done n

/-- When the return alone is done, all live bindings are declared. -/
theorem Declared.mem_iff_of_isReturn (hret : r.kind.isReturn = true) {ns : List Node}
    {ss : List Stmt} (h : b.Declared r (fun n => n = r) ns ss) (n : Node) :
  n ∈ ns ↔ b.Live r n ∧ n.kind.isBinding = true
  := by
  rw [h.mem_iff]
  constructor
  · rintro ⟨hn, hbinding, -⟩
    exact ⟨hn, hbinding⟩
  · rintro ⟨hn, hbinding⟩
    refine ⟨hn, hbinding, ?_⟩
    rintro rfl
    rw [Kind.not_isBinding_of_isReturn hret] at hbinding
    cases hbinding

/-- A binding that has been declared has its declaration. -/
theorem Declared.exists_declares {done : Node → Prop} {ns : List Node} {ss : List Stmt}
    (h : b.Declared r done ns ss) (hn : n ∈ ns) :
  ∃ s, b.Declares n s
  := by
  obtain ⟨i, hi, rfl⟩ := List.getElem_of_mem hn
  exact ⟨_, h.declares.get hi (h.declares.length_eq ▸ hi)⟩

/-- What is declared next depends on which binding is ready. -/
theorem run_nextWith (function : NodeId) (declaration : NodeId → Lowering Stmt) (u : Uses) :
  (nextWith function declaration).run u
    = match u.ready? with
      | none => .error (.cycle function u.undeclared)
      | some id => (declaration id).run (u.declare id)
  := by
  rw [nextWith, StateT.run_bind, Lowering.run_uses, pure_bind]
  dsimp only
  cases u.ready? <;> rfl

/-- What it takes to declare one binding more: one that is ready is declared, and then the others,
which come before it. -/
theorem run_declarations_succ_eq_ok_iff {count : Nat} {r : List Stmt × Uses} :
  (b.declarations function (count + 1) : Lowering (List Stmt)).run u = .ok r
    ↔ ∃ id last u₁ rest, u.ready? = some id ∧
        (b.declaration function id : Lowering Stmt).run (u.declare id) = .ok (last, u₁) ∧
        (b.declarations function count : Lowering (List Stmt)).run u₁ = .ok (rest, r.2) ∧
        r.1 = rest ++ [last]
  := by
  obtain ⟨ss, u'⟩ := r
  rw [declarations]
  simp only [Lowering.run_bind_eq_ok_iff, Lowering.run_pure_eq_ok_iff, run_nextWith]
  cases u.ready? with
  | none => simp
  | some id =>
    constructor
    · rintro ⟨last, u₁, hlast, rest, u₂, hrest, h⟩
      obtain ⟨rfl, rfl⟩ := Prod.mk.inj h
      exact ⟨id, last, u₁, rest, rfl, hlast, hrest, rfl⟩
    · rintro ⟨_, last, u₁, rest, ⟨⟩, hlast, hrest, rfl⟩
      exact ⟨last, u₁, hlast, rest, u', hrest, rfl⟩

/-- What has been declared when as many bindings are declared as there are to declare. -/
theorem run_declarations_ok (hr : r ∈ b.nodes) {count : Nat} {done : Node → Prop} {ss : List Stmt}
    (hp : b.Progress r done u) (hcount : u.undeclared.length = count)
    (h : (b.declarations function count : Lowering (List Stmt)).run u = .ok (ss, u')) :
  ∃ ns, b.Declared r done ns ss
  := by
  induction count generalizing u u' done ss with
  | zero =>
    obtain ⟨rfl, -⟩ := Prod.mk.inj ((Lowering.run_pure_eq_ok_iff _ _ _).1 h)
    use []
    constructor
    · apply List.Forall₂.nil
    · simp
    · apply Settled.nil
    · apply List.nodup_nil
    · intro n
      constructor
      · intro hn
        cases hn
      · rintro ⟨hn, hbinding, hnew⟩
        rcases hp.covered n hn hbinding with hmem | hdone
        · rw [List.eq_nil_of_length_eq_zero hcount] at hmem
          cases hmem
        · apply (hnew hdone).elim
  | succ count ih =>
    obtain ⟨id, last, u₁, rest, hready, hlast, hrest, rfl⟩ := run_declarations_succ_eq_ok_iff.1 h
    obtain ⟨hmem, hwires⟩ := hp.counts.ready?_eq_some hready
    obtain ⟨n, hn, hbinding, rfl⟩ := hp.live id hmem
    obtain ⟨hdeclares, hnests, hspends⟩ := run_declaration_ok (hn.mem hr) hlast
    have hstep := hp.step hr hn hspends
    have hlen : u₁.undeclared.length = count := by
      have := Uses.length_undeclared_declare hp.nodup hmem
      rw [hspends.undeclared]
      omega
    obtain ⟨ns, hns⟩ := ih hstep hlen hrest
    have hnew : n ∉ ns := by
      intro h
      apply ((hns.mem_iff n).1 h).2.2
      exact .inr rfl
    use ns ++ [n]
    constructor
    · apply List.rel_append hns.declares
      exact .cons hdeclares .nil
    · intro m hm
      rcases List.mem_append.1 hm with hm | hm
      · apply hns.nests m hm
      · rw [List.mem_singleton.1 hm]
        exact hnests
    · apply Settled.snoc _ hns.settled
      intro w hw hproducer
      apply (hp.consumed w hw).1 (hwires w hw hproducer)
    · apply List.nodup_append.2
      refine ⟨hns.nodup, by simp, ?_⟩
      rintro m hm m' hm' rfl
      rw [List.mem_singleton.1 hm'] at hm
      apply hnew hm
    · intro m
      rw [List.mem_append, hns.mem_iff, List.mem_singleton, not_or]
      constructor
      · rintro (⟨hm, hb, hdone, -⟩ | rfl)
        · exact ⟨hm, hb, hdone⟩
        · exact ⟨hn, hbinding, fun hdone => hp.fresh m hdone hmem⟩
      · rintro ⟨hm, hb, hdone⟩
        by_cases heq : m = n
        · exact .inr heq
        · exact .inl ⟨hm, hb, hdone, heq⟩

/-! ## Statements -/

/-- The statements of a function are not written when something that its return needs is missing. -/
theorem body_of_danglingWire? {w : Wire} (hdangling : b.danglingWire? r.id = some w) :
  b.body function r = .error (.dangling w.consumer w.slot w.producer)
  := by
  rw [body, hdangling]
  rfl

/-- The statements of a function are not written when something that its return needs runs in a circle. -/
theorem body_of_firstCycle? {ids : List NodeId} (hdangling : b.danglingWire? r.id = none)
    (hcycle : (b.dependencies r.id).firstCycle? = some ids) :
  b.body function r = .error (.cycle function ids)
  := by
  rw [body, hdangling]
  show StateT.run' (b.statements function r : Lowering (List Stmt)) _ = _
  rw [statements]
  simp only [statementsWith, hcycle]
  rfl

/-- How the statements of a function are written when nothing that its return needs is missing or runs in a
circle. -/
theorem body_eq (hdangling : b.danglingWire? r.id = none)
    (hcycle : (b.dependencies r.id).firstCycle? = none) :
  b.body function r
    = (do
      let value ← b.input function r 0
      return (← b.declarations function (b.uses r.id).length) ++ [.ret value]
        : Lowering (List Stmt)).run' ⟨b.uses r.id, []⟩
  := by
  rw [body, hdangling]
  show StateT.run' (b.statements function r : Lowering (List Stmt)) _ = _
  rw [statements]
  show StateT.run' (b.statementsWith function (b.expr function maxNesting)
    (b.declarations function (b.uses r.id).length) r : Lowering (List Stmt)) _ = _
  rw [statementsWith, hcycle]
  rfl

/-- What it takes to write the statements of a function. -/
theorem body_eq_ok_iff (hr : r ∈ b.nodes) (ss : List Stmt) :
  b.body function r = .ok ss
    ↔ b.Grounded r ∧ (∀ n, b.Live r n → ¬ TransGen b.Inner n n) ∧
      ∃ value u₁ ds u₂,
        (b.input function r 0 : Lowering Expr).run ⟨b.uses r.id, []⟩ = .ok (value, u₁) ∧
        (b.declarations function (b.uses r.id).length : Lowering (List Stmt)).run u₁ = .ok (ds, u₂) ∧
        ss = ds ++ [.ret value]
  := by
  rw [← danglingWire?_eq_none_iff hr]
  cases hdangling : b.danglingWire? r.id with
  | some w =>
    rw [body_of_danglingWire? hdangling]
    simp
  | none =>
    have hg := (danglingWire?_eq_none_iff hr).1 hdangling
    rw [← firstCycle?_dependencies_eq_none_iff hr hg]
    cases hcycle : (b.dependencies r.id).firstCycle? with
    | some nodes =>
      rw [body_of_firstCycle? hdangling hcycle]
      simp
    | none =>
      rw [body_eq hdangling hcycle]
      simp only [true_and, Lowering.run'_eq_ok_iff, Lowering.run_bind_eq_ok_iff,
        Lowering.run_pure_eq_ok_iff]
      constructor
      · rintro ⟨u', value, u₁, hvalue, ds, u₂, hds, h⟩
        obtain ⟨rfl, rfl⟩ := Prod.mk.inj h
        exact ⟨value, u₁, ds, u₂, hvalue, hds, rfl⟩
      · rintro ⟨value, u₁, ds, u₂, hvalue, hds, rfl⟩
        exact ⟨u₂, value, u₁, hvalue, ds, u₂, hds, rfl⟩

/-- What the statements of a function consist of. -/
theorem body_ok (hr : r ∈ b.nodes) (hret : r.kind.isReturn = true) {ss : List Stmt}
    (h : b.body function r = .ok ss) :
  b.SlotNests r 0 ∧ ∃ ns ds value, ss = ds ++ [.ret value] ∧ b.SlotWrittenAs r 0 value ∧
    b.Declared r (fun n => n = r) ns ds
  := by
  obtain ⟨-, -, value, u₁, ds, u₂, hvalue, hds, rfl⟩ := (body_eq_ok_iff hr ss).1 h
  obtain ⟨hwritten, hnests, hspends⟩ := run_input_ok hvalue
  obtain ⟨hprogress, hlen⟩ := Progress.of_return hr hret hspends
  obtain ⟨ns, hns⟩ := run_declarations_ok hr hprogress hlen hds
  exact ⟨hnests, ns, ds, value, rfl, hwritten, hns⟩

end Board

end Patchboard
