import Patchboard.Proofs.Compile.Diagnosis

/-!
# Cycles are reported truly

A function is reported for a cycle in two cases. Either the live nodes that are written in place are
written within each other: then the diagnostic names one component of these nodes, and the component has
a cycle. Or the declarations stop while bindings are left, none of which is ready: then the diagnostic
names all of these, in the order in which they were found, and there is a cycle of nodes that leads through
bindings which are named, and through no others.
-/

namespace Patchboard

open Relation (ReflTransGen TransGen)

namespace Board

variable {b : Board} {f r n : Node} {function g : NodeId} {ids declared : List NodeId}
  {u u' : Uses}

/-! ## Components of expressions -/

/-- The named nodes, by increasing id, are one component of the live nodes that are written within
each other. It has several nodes, or one that is held by itself. -/
structure Knot (b : Board) (r : Node) (ids : List NodeId) : Prop where
  increasing : ids.Pairwise fun id id' => id.val < id'.val
  /-- These are all nodes that are written within a certain one, and that it is written within. -/
  component : ∃ n, b.Live r n ∧ ∀ id, id ∈ ids ↔
    ∃ m, m.id = id ∧ ReflTransGen b.Inner n m ∧ ReflTransGen b.Inner m n
  cyclic : 2 ≤ ids.length ∨ ∃ n, b.Live r n ∧ ids = [n.id] ∧ b.Inner n n
  /-- Each of them is live, and written within itself. -/
  loops : ∀ id ∈ ids, ∃ n, b.Live r n ∧ n.id = id ∧ TransGen b.Inner n n

/-- A path of dependencies, or none, is a path of nodes that are written within each other. -/
theorem reflTransGen_dependencies_iff (hr : r ∈ b.nodes) (hg : b.Grounded r) (hn : b.Live r n)
    (id : NodeId) :
  ReflTransGen (b.dependencies r.id).Edge n.id id ↔ ∃ p, ReflTransGen b.Inner n p ∧ p.id = id
  := by
  simp only [Relation.reflTransGen_iff_eq_or_transGen, transGen_dependencies_iff hr hg hn]
  constructor
  · rintro (rfl | ⟨p, hp, hid⟩)
    · exact ⟨n, .inl rfl, rfl⟩
    · exact ⟨p, .inr hp, hid⟩
  · rintro ⟨p, rfl | hp, hid⟩
    · exact .inl hid.symm
    · exact .inr ⟨p, hp, hid⟩

/-- The component of a live node has the nodes that are written within it and that it is written
within. -/
theorem mem_component_dependencies_iff (hr : r ∈ b.nodes) (hg : b.Grounded r) (hn : b.Live r n)
    (id : NodeId) :
  id ∈ (b.dependencies r.id).component n.id
    ↔ ∃ m, m.id = id ∧ ReflTransGen b.Inner n m ∧ ReflTransGen b.Inner m n
  := by
  have hmem := (mem_nodes_dependencies_iff hr hg n.id).2 ⟨n, hn, rfl⟩
  rw [Graph.mem_component_iff (closed_dependencies hr hg) hmem,
    reflTransGen_dependencies_iff hr hg hn]
  constructor
  · rintro ⟨-, ⟨m, hnm, rfl⟩, hback⟩
    have hm : b.Live r m := hn.inner hnm
    obtain ⟨n', hmn, hid⟩ := (reflTransGen_dependencies_iff hr hg hm n.id).1 hback
    obtain rfl := eq_of_id_eq ((hm.inner hmn).mem hr) (hn.mem hr) hid
    exact ⟨m, rfl, hnm, hmn⟩
  · rintro ⟨m, rfl, hnm, hmn⟩
    have hm : b.Live r m := hn.inner hnm
    refine ⟨(mem_nodes_dependencies_iff hr hg m.id).2 ⟨m, hm, rfl⟩, ⟨m, hnm, rfl⟩, ?_⟩
    apply (reflTransGen_dependencies_iff hr hg hm n.id).2 ⟨n, hmn, rfl⟩

/-- A cycle of dependencies that is reported is a component of live nodes with a cycle. -/
theorem knot_of_firstCycle? (hr : r ∈ b.nodes) (hg : b.Grounded r)
    (h : (b.dependencies r.id).firstCycle? = some ids) :
  b.Knot r ids
  := by
  have hclosed := closed_dependencies hr hg
  obtain ⟨v, hv, hcycle, rfl⟩ := Graph.eq_component_of_firstCycle? hclosed h
  obtain ⟨n, hn, rfl⟩ := (mem_nodes_dependencies_iff hr hg v).1 hv
  have hmem := mem_component_dependencies_iff hr hg hn
  have hincreasing := Graph.pairwise_component (g := b.dependencies r.id) (nodup_eraseDups _) n.id
  obtain ⟨n', hloop, hid⟩ := (transGen_dependencies_iff hr hg hn n.id).1 hcycle
  obtain rfl := eq_of_id_eq ((hn.inner hloop.to_reflTransGen).mem hr) (hn.mem hr) hid
  constructor
  · exact hincreasing
  · exact ⟨n', hn, hmem⟩
  · by_cases hlen : 2 ≤ ((b.dependencies r.id).component n'.id).length
    · exact .inl hlen
    · right
      have hedge := (Graph.two_le_component_or_edge hclosed hv hcycle).resolve_left hlen
      obtain ⟨p, hp, hpid⟩ := (edge_dependencies_iff hr hg hn n'.id).1 hedge
      obtain ⟨slot, hslot⟩ := hp.1
      obtain rfl := eq_of_id_eq hslot.2 (hn.mem hr) hpid
      refine ⟨p, hn, ?_, hp⟩
      have hself := (hmem p.id).2 ⟨p, rfl, .refl, .refl⟩
      have hone := List.length_pos_of_mem hself
      obtain ⟨id, hids⟩ := List.length_eq_one_iff.1 (by omega :
        ((b.dependencies r.id).component p.id).length = 1)
      rw [hids, List.mem_singleton] at hself
      rw [hids, hself]
  · intro id hid
    obtain ⟨m, hmid, hnm, hmn⟩ := (hmem id).1 hid
    refine ⟨m, hn.inner hnm, hmid, ?_⟩
    apply (TransGen.trans_right hmn hloop).trans_left hnm

/-! ## Bindings that are left -/

/-- The declarations go from one state to another and declare these bindings on the way, in this
order. -/
inductive Hoists (b : Board) (function : NodeId) : Uses → List NodeId → Uses → Prop
  | none (u : Uses) : Hoists b function u [] u
  | next {u u₁ u' : Uses} {id : NodeId} {s : Stmt} {declared : List NodeId}
      (ready : u.ready? = some id)
      (written : (b.declaration function id : Lowering Stmt).run (u.declare id) = .ok (s, u₁))
      (rest : Hoists b function u₁ declared u') :
      Hoists b function u (id :: declared) u'

/-- The declarations that a return needs stop when these bindings have been declared, and with those
left. -/
structure Stalled (b : Board) (function : NodeId) (r : Node) (declared ids : List NodeId) : Prop where
  /-- The value of the return has been written, and then the declarations, until none of the bindings that
  are left is ready. -/
  stop : ∃ value start stop,
    (b.input function r 0 : Lowering Expr).run ⟨b.uses r.id, []⟩ = .ok (value, start) ∧
    b.Hoists function start declared stop ∧ stop.ready? = none ∧ stop.undeclared = ids
  /-- The bindings that are left are in the order in which they were found. -/
  order : ids = ((b.uses r.id).map Prod.fst).filter fun id => id ∉ declared
  nodup : ids.Nodup
  /-- They are all the live bindings that have not been declared. -/
  mem_iff : ∀ id, id ∈ ids ↔ id ∉ declared ∧ ∃ n, b.Live r n ∧ n.kind.isBinding = true ∧ n.id = id
  /-- A cycle of slots leads through a binding that is left, and through no other bindings. -/
  cycle : ∃ t, b.Live r t ∧ t.kind.isBinding = true ∧ t.id ∈ ids ∧ TransGen (b.NeedsAmong ids) t t

/-- The bindings that have uses are the live ones. -/
theorem mem_map_fst_uses_iff_live (hr : r ∈ b.nodes) (hret : r.kind.isReturn = true) (id : NodeId) :
  id ∈ (b.uses r.id).map Prod.fst ↔ ∃ n, b.Live r n ∧ n.kind.isBinding = true ∧ n.id = id
  := by
  have hstart := Progress.start hr hret
  constructor
  · apply hstart.live id
  · rintro ⟨n, hn, hbinding, rfl⟩
    apply (hstart.covered n hn hbinding).resolve_right
    exact fun h => h

/-- No fault of a node is a cycle. -/
theorem FaultBelow.ne_cycle (h : b.FaultBelow n (.cycle g ids)) :
  False
  := by
  obtain ⟨m, -, hfault⟩ := h
  cases hfault

/-- Writing a slot fails for no cycle. -/
theorem run_input_ne_cycle {slot : Nat} :
  (b.input function n slot : Lowering Expr).run u ≠ .error (.cycle g ids)
  := by
  intro h
  rcases run_input_eq_error h with hbelow | ⟨p, -, _, _, -, -, -, hd⟩
  · apply hbelow.ne_cycle
  · cases hd

/-- Declaring a binding fails for no cycle. -/
theorem run_declaration_ne_cycle (hn : n ∈ b.nodes) (hbinding : n.kind.isBinding = true) :
  (b.declaration function n.id : Lowering Stmt).run u ≠ .error (.cycle g ids)
  := by
  intro h
  rcases run_declaration_error_cases hn hbinding h with hbelow | ⟨p, -, _, _, -, -, -, hd⟩
  · apply hbelow.ne_cycle
  · cases hd

/-- Whatever has been declared, what is left are the other bindings, and the nodes that are done have
been written. -/
theorem Progress.hoists {done : Node → Prop} (hp : b.Progress r done u) (hr : r ∈ b.nodes)
    (hwritten : b.RootsWritten done) (h : b.Hoists function u declared u') :
  ∃ done', (∀ n, done n → done' n) ∧ b.Progress r done' u' ∧ b.RootsWritten done' ∧
    u'.undeclared = u.undeclared.filter fun id => id ∉ declared
  := by
  induction h generalizing done with
  | none u => exact ⟨done, fun _ h => h, hp, hwritten, by simp⟩
  | next ready written _ ih =>
    obtain ⟨hmem, -⟩ := hp.counts.ready?_eq_some ready
    obtain ⟨n, hn, hbinding, rfl⟩ := hp.live _ hmem
    obtain ⟨hdeclares, -, hspends⟩ := run_declaration_ok (hn.mem hr) written
    obtain ⟨done', hsub, hp', hwritten', hleft⟩ :=
      ih (hp.step hr hn hspends) (hwritten.declare hdeclares)
    refine ⟨done', fun m hm => hsub m (.inl hm), hp', hwritten', ?_⟩
    rw [hleft, hspends.undeclared, Uses.undeclared_declare, List.filter_filter]
    apply List.filter_congr
    intro id _
    simp only [List.mem_cons, not_or, ne_eq, Bool.decide_and, Bool.and_comm]

/-- The declarations are reported for a cycle only where they stop with bindings left. -/
theorem run_declarations_eq_cycle (hr : r ∈ b.nodes) {count : Nat} {done : Node → Prop}
    (hp : b.Progress r done u) (hcount : u.undeclared.length = count)
    (h : (b.declarations function count : Lowering (List Stmt)).run u = .error (.cycle g ids)) :
  g = function ∧ ids ≠ [] ∧
    ∃ declared stop, b.Hoists function u declared stop ∧ stop.ready? = none ∧ stop.undeclared = ids
  := by
  induction count generalizing u done with
  | zero => apply (Lowering.run_pure_ne_error _ u _ h).elim
  | succ count ih =>
    rcases run_declarations_succ_eq_error h with ⟨hready, hd⟩ | ⟨id, hready, h⟩
    · obtain ⟨rfl, rfl⟩ := Diagnostic.cycle.inj hd
      refine ⟨rfl, ?_, [], u, .none u, hready, rfl⟩
      apply List.ne_nil_of_length_pos
      omega
    · obtain ⟨hmem, -⟩ := hp.counts.ready?_eq_some hready
      obtain ⟨n, hn, hbinding, rfl⟩ := hp.live id hmem
      rcases h with h | ⟨s, u₁, hs, h⟩
      · apply (run_declaration_ne_cycle (hn.mem hr) hbinding h).elim
      · obtain ⟨-, -, hspends⟩ := run_declaration_ok (hn.mem hr) hs
        have hlen : u₁.undeclared.length = count := by
          have := Uses.length_undeclared_declare hp.nodup hmem
          rw [hspends.undeclared]
          omega
        obtain ⟨hg, hne, declared, stop, hhoists, hstop⟩ := ih (hp.step hr hn hspends) hlen h
        exact ⟨hg, hne, n.id :: declared, stop, .next hready hs hhoists, hstop⟩

/-- When the declarations stop with bindings left, these are the live ones that have not been declared,
and a cycle leads through some of them. -/
theorem stalled_of_hoists (hr : r ∈ b.nodes) (hret : r.kind.isReturn = true) {value : Expr}
    {start stop : Uses}
    (hvalue : (b.input function r 0 : Lowering Expr).run ⟨b.uses r.id, []⟩ = .ok (value, start))
    (hhoists : b.Hoists function start declared stop) (hready : stop.ready? = none)
    (hne : stop.undeclared ≠ []) :
  b.Stalled function r declared stop.undeclared
  := by
  obtain ⟨hslot, -, hspends⟩ := run_input_ok hvalue
  obtain ⟨hprogress, -⟩ := Progress.of_return hr hret hspends
  obtain ⟨done, hsub, hp, hwritten, hleft⟩ :=
    hprogress.hoists hr (rootsWritten_return hret hslot) hhoists
  rw [hspends.undeclared] at hleft
  have hstart : Uses.undeclared ⟨b.uses r.id, []⟩ = (b.uses r.id).map Prod.fst := rfl
  rw [hstart] at hleft
  constructor
  · exact ⟨value, start, stop, hvalue, hhoists, hready, rfl⟩
  · exact hleft
  · exact hp.nodup
  · intro id
    rw [hleft, List.mem_filter, mem_map_fst_uses_iff_live hr hret, decide_eq_true_eq, and_comm]
  · obtain ⟨id, hid⟩ := List.exists_mem_of_ne_nil _ hne
    obtain ⟨q, hq, -, rfl⟩ := hp.live id hid
    obtain ⟨t, ht, htid, hloop, -⟩ := hp.exists_cycle hr (hsub r rfl) hwritten hready hq hid
    obtain ⟨t', ht', hbinding, hid'⟩ := hp.live t.id htid
    obtain rfl := eq_of_id_eq (ht'.mem hr) (ht.mem hr) hid'
    exact ⟨t', ht, hbinding, htid, hloop⟩

/-! ## Functions -/

/-- The statements of a function are reported for a cycle only when its return needs a component of
expressions with a cycle, or the declarations stop with bindings left. -/
theorem body_eq_cycle (hr : r ∈ b.nodes) (hret : r.kind.isReturn = true)
    (h : b.body function r = .error (.cycle g ids)) :
  g = function ∧ (b.Knot r ids ∨ ∃ declared, b.Stalled function r declared ids)
  := by
  rcases body_error_cases h with ⟨w, -, hd⟩ | ⟨hw, ids', hids, hd⟩ | h | ⟨value, u, hvalue, h⟩
  · cases hd
  · obtain ⟨rfl, rfl⟩ := Diagnostic.cycle.inj hd
    exact ⟨rfl, .inl (knot_of_firstCycle? hr ((danglingWire?_eq_none_iff hr).1 hw) hids)⟩
  · apply (run_input_ne_cycle h).elim
  · obtain ⟨-, -, hspends⟩ := run_input_ok hvalue
    obtain ⟨hprogress, hlen⟩ := Progress.of_return hr hret hspends
    obtain ⟨rfl, hne, declared, stop, hhoists, hready, rfl⟩ :=
      run_declarations_eq_cycle hr hprogress hlen h
    exact ⟨rfl, .inr ⟨declared, stalled_of_hoists hr hret hvalue hhoists hready hne⟩⟩

/-- When a function is reported for a cycle, then it is the function that is named, and its return needs a
cycle that the named nodes locate: they are one component of the expressions that are written within each
other, or the bindings that are left when the declarations stop. -/
theorem cycle_of_compileFunction {b : Board} {f : Node} {g : NodeId} {ids : List NodeId}
    (h : b.compileFunction f = .error (.cycle g ids)) :
  g = f.id ∧ ∃ r, b.returnsOf f = [r] ∧
    (b.Knot r ids ∨ ∃ declared, b.Stalled f.id r declared ids)
  := by
  rcases compileFunction_eq_error h with ⟨-, hd⟩ | hparams | hsole | ⟨r, hsole, htype | hbody⟩
  · cases hd
  · obtain ⟨p, _, type, _, _, -, -, hd, -⟩ := paramsOf_eq_error hparams
    cases hd
  · unfold soleReturn at hsole
    split at hsole <;> cases hsole
  · rw [Node.returnType] at htype
    split at htype
    · obtain ⟨hd, -⟩ := ValueType.declared_eq_error htype
      cases hd
    · cases htype
  · obtain ⟨hr, hreturn⟩ := returnsOf_spec hsole
    obtain ⟨hg, hcycle⟩ := body_eq_cycle hr hreturn hbody
    exact ⟨hg, r, hsole, hcycle⟩

/-- A function at the centre of the boards below. -/
def centralFunction : Node :=
  ⟨⟨0⟩, .ofNat 0, .ofNat 0, .functionDeclaration "f" (.ofNat 16) (.ofNat 8)⟩

/-- The return of the first board below. -/
def entangledReturn : Node :=
  ⟨⟨3⟩, .ofNat 0, .ofNat 0, .returnStatement "infer" false (some ⟨1⟩)⟩

/-- A board on which the return needs two operations that feed each other. -/
def entangledBoard : Board where
  nodes := [
    centralFunction,
    ⟨⟨1⟩, .ofNat 0, .ofNat 0, .binaryExpression "+" (some ⟨2⟩) (some ⟨2⟩) (some ⟨2⟩)⟩,
    ⟨⟨2⟩, .ofNat 0, .ofNat 0, .binaryExpression "*" (some ⟨1⟩) (some ⟨1⟩) (some ⟨1⟩)⟩,
    entangledReturn]
  nextId := 4
  distinct := by decide

/-- A board on which the return needs a variable that names one of two variables which name each
other. -/
def stalledBoard : Board where
  nodes := [
    centralFunction,
    ⟨⟨1⟩, .ofNat 0, .ofNat 0, .variableStatement ⟨"u", "infer", false, some ⟨2⟩, [⟨4⟩]⟩⟩,
    ⟨⟨2⟩, .ofNat 0, .ofNat 0, .variableStatement ⟨"v", "infer", false, some ⟨3⟩, [⟨1⟩, ⟨3⟩]⟩⟩,
    ⟨⟨3⟩, .ofNat 0, .ofNat 0, .variableStatement ⟨"w", "infer", false, some ⟨2⟩, [⟨2⟩]⟩⟩,
    ⟨⟨4⟩, .ofNat 0, .ofNat 0, .returnStatement "infer" false (some ⟨1⟩)⟩]
  nextId := 5
  distinct := by decide

/-- Both are reported: on the second board the first variable is declared, and the others are left. -/
theorem cycle_entangledBoard_stalledBoard :
  (entangledBoard.compileFunction centralFunction = .error (.cycle ⟨0⟩ [⟨1⟩, ⟨2⟩]) ∧
    ∃ r, entangledBoard.returnsOf centralFunction = [r] ∧
      (entangledBoard.Knot r [⟨1⟩, ⟨2⟩] ∨
        ∃ declared, entangledBoard.Stalled ⟨0⟩ r declared [⟨1⟩, ⟨2⟩])) ∧
  (stalledBoard.compileFunction centralFunction = .error (.cycle ⟨0⟩ [⟨2⟩, ⟨3⟩]) ∧
    ∃ r, stalledBoard.returnsOf centralFunction = [r] ∧
      (stalledBoard.Knot r [⟨2⟩, ⟨3⟩] ∨
        ∃ declared, stalledBoard.Stalled ⟨0⟩ r declared [⟨2⟩, ⟨3⟩]))
  := by
  have hentangled :
      entangledBoard.compileFunction centralFunction = .error (.cycle ⟨0⟩ [⟨1⟩, ⟨2⟩]) := by
    have hfirst :
        (entangledBoard.dependencies entangledReturn.id).firstCycle? = some [⟨1⟩, ⟨2⟩] := by
      show some (List.mergeSort [⟨1⟩, ⟨2⟩] NodeId.le) = _
      rw [List.mergeSort_of_pairwise (by decide)]
    have hbody : entangledBoard.body ⟨0⟩ entangledReturn = .error (.cycle ⟨0⟩ [⟨1⟩, ⟨2⟩]) :=
      body_of_firstCycle? (by decide +kernel) hfirst
    have hparams : entangledBoard.paramsOf centralFunction = .ok [] := by
      show ((List.mergeSort [] _).filterMap _).mapM id = _
      rw [List.mergeSort_nil]
      rfl
    have hreturns : entangledBoard.returnsOf centralFunction = [entangledReturn] := by
      decide +kernel
    rw [compileFunction_eq rfl, hparams, hreturns]
    show (entangledBoard.body ⟨0⟩ entangledReturn >>= fun ss => pure ⟨"f", [], none, ss⟩) = _
    apply bind_eq_error_iff.2 (.inl hbody)
  have hstalled :
      stalledBoard.compileFunction centralFunction = .error (.cycle ⟨0⟩ [⟨2⟩, ⟨3⟩]) := by
    show (((List.mergeSort [] _).filterMap _).mapM id >>= _) = _
    rw [List.mergeSort_nil]
    rfl
  exact ⟨⟨hentangled, (cycle_of_compileFunction hentangled).2⟩,
    ⟨hstalled, (cycle_of_compileFunction hstalled).2⟩⟩

end Board

end Patchboard
