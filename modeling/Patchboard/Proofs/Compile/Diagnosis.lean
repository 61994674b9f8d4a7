import Patchboard.Proofs.Compile.Faults
import Patchboard.Proofs.Compile.Success

/-!
# Diagnostics are true

When a function does not compile, then what the diagnostic says is true of the board, whether the
board was checked or not: the nodes that it names are there, are live where it speaks of slots, and have
the fault.
-/

namespace Patchboard

open Relation (ReflTransGen TransGen)

/-! ## Types -/

/-- A type that may not be declared is reported with its node. -/
theorem ValueType.declared_eq_error {node : NodeId} {token : String} {array : Bool} {d : Diagnostic}
    (h : declared node token array = .error d) :
  d = .unknownType node token ∧ token ∉ declarableTokens
  := by
  constructor
  · rw [declared, Keyword.ofToken] at h
    split at h
    · cases h
    · split at h
      · cases h
      · exact (Except.error.inj h).symm
  · intro hmem
    obtain ⟨type, htype⟩ := (isOk_declared_iff node token array).2 hmem
    rw [h] at htype
    cases htype

/-- A type that may not be given to a parameter is reported with its node. -/
theorem ValueType.required_eq_error {node : NodeId} {token : String} {array : Bool} {d : Diagnostic}
    (h : required node token array = .error d) :
  d = .unknownType node token ∧ token ∉ typeTokens
  := by
  constructor
  · rw [required] at h
    cases hd : declared node token array with
    | error d' =>
      rw [hd] at h
      obtain rfl := Except.error.inj h
      exact (declared_eq_error hd).1
    | ok type =>
      rw [hd] at h
      cases type with
      | none => exact (Except.error.inj h).symm
      | some type => cases h
  · intro hmem
    obtain ⟨type, htype⟩ := (isOk_required_iff node token array).2 hmem
    rw [h] at htype
    cases htype

namespace Board

variable {b : Board} {f r n : Node} {function : NodeId} {d : Diagnostic} {u : Uses}

/-! ## What a diagnostic says -/

/-- The named nodes are live, and each of them would be written within every one of them, itself
included. -/
def Entangled (b : Board) (r : Node) (ids : List NodeId) : Prop :=
  ids ≠ [] ∧ ∀ id ∈ ids, ∃ n, b.Live r n ∧ n.id = id ∧
    ∀ id' ∈ ids, ∃ m, m.id = id' ∧ TransGen b.Inner n m

/-- The named nodes are live bindings, and each of them is needed by one of them that needs itself. -/
def Deadlocked (b : Board) (r : Node) (ids : List NodeId) : Prop :=
  ids ≠ [] ∧ ∀ id ∈ ids, ∃ n, b.Live r n ∧ n.kind.isBinding = true ∧ n.id = id ∧
    ∃ m, b.Live r m ∧ m.id ∈ ids ∧ TransGen b.Needs m m ∧ TransGen b.Needs m n

/-- A diagnostic names a fault of what a return needs. -/
inductive ReturnFault (b : Board) (function : NodeId) (r : Node) : Diagnostic → Prop
  /-- A live node is at fault. -/
  | node {d : Diagnostic} (below : b.FaultBelow r d) : ReturnFault b function r d
  /-- Nodes are nested too deep in the slot of the return or of a live binding. -/
  | nesting {d : Diagnostic} (t p : Node) (live : b.Live r t)
    (root : t = r ∨ t.kind.isBinding = true) (holds : b.Holds t 0 p)
    (deep : b.TooDeepFrom function maxNesting p d) :
    ReturnFault b function r d
  /-- Expressions cannot be written, because they would be within themselves. -/
  | entangled (ids : List NodeId) (cycle : b.Entangled r ids) :
    ReturnFault b function r (.cycle function ids)
  /-- Bindings cannot be declared, because they wait for each other. -/
  | deadlocked (ids : List NodeId) (cycle : b.Deadlocked r ids) :
    ReturnFault b function r (.cycle function ids)

/-- A diagnostic names a fault of a function. -/
inductive FunctionFault (b : Board) (f : Node) : Diagnostic → Prop
  | notAFunction (kind : f.kind.isFunction = false) : FunctionFault b f (.notAFunction f.id)
  | missingReturn (none : b.returnsOf f = []) : FunctionFault b f (.missingReturn f.id)
  /-- The function has several returns, and these are named in the order of the board. -/
  | multipleReturns (several : 2 ≤ (b.returnsOf f).length) :
    FunctionFault b f (.multipleReturns f.id ((b.returnsOf f).map Node.id))
  /-- The type of a parameter in the scope of the function may not be given to parameters. -/
  | parameterType (p : Node) (name type : String) (array : Bool) (outputs : List NodeId)
    (scope : p ∈ b.scope f) (kind : p.kind = .parameter name type array outputs)
    (unknown : type ∉ typeTokens) :
    FunctionFault b f (.unknownType p.id type)
  /-- The type of the only return may not be declared. -/
  | returnType (r : Node) (type : String) (array : Bool) (value : Slot) (sole : b.returnsOf f = [r])
    (kind : r.kind = .returnStatement type array value) (unknown : type ∉ declarableTokens) :
    FunctionFault b f (.unknownType r.id type)
  /-- What the only return needs is at fault. -/
  | body {d : Diagnostic} (r : Node) (sole : b.returnsOf f = [r])
    (fault : b.ReturnFault f.id r d) :
    FunctionFault b f d

/-- When a function is reported for a cycle, then one of the named nodes is live and needs itself. -/
theorem FunctionFault.exists_cycle {g : NodeId} {ids : List NodeId}
    (h : b.FunctionFault f (.cycle g ids)) :
  ∃ r n, b.returnsOf f = [r] ∧ b.Live r n ∧ n.id ∈ ids ∧ TransGen b.Needs n n
  := by
  cases h with | body r hsole hfault
  have hr := (returnsOf_spec hsole).1
  cases hfault with
  | node below =>
    obtain ⟨m, -, hm⟩ := below
    cases hm
  | nesting t p live root holds deep =>
    obtain ⟨_, _, -, -, -, hd⟩ := deep
    cases hd
  | entangled _ cycle =>
    obtain ⟨hne, hcycle⟩ := cycle
    obtain ⟨id, hid⟩ := List.exists_mem_of_ne_nil _ hne
    obtain ⟨n, hn, rfl, hleads⟩ := hcycle id hid
    obtain ⟨m, hmn, hnm⟩ := hleads n.id hid
    have hm : b.Live r m := hn.inner hnm.to_reflTransGen
    obtain rfl := eq_of_id_eq (hm.mem hr) (hn.mem hr) hmn
    exact ⟨r, m, hsole, hm, hid, hnm.lift id fun _ _ h => h.1⟩
  | deadlocked _ cycle =>
    obtain ⟨hne, hcycle⟩ := cycle
    obtain ⟨id, hid⟩ := List.exists_mem_of_ne_nil _ hne
    obtain ⟨-, -, -, -, m, hm, hmid, hloop, -⟩ := hcycle id hid
    exact ⟨r, m, hsole, hm, hmid, hloop⟩

/-! ## Statements -/

/-- A binding cannot be declared when it or a node below it is at fault, or when nodes are nested too
deep in its slot. -/
theorem run_declaration_error_cases (hn : n ∈ b.nodes) (hbinding : n.kind.isBinding = true)
    (h : (b.declaration function n.id : Lowering Stmt).run u = .error d) :
  b.FaultBelow n d ∨ ∃ p, b.Holds n 0 p ∧ b.TooDeepFrom function maxNesting p d
  := by
  obtain ⟨x, hx⟩ := Option.isSome_iff_exists.1 ((Kind.isSome_binding? _).trans hbinding)
  rw [declaration, declarationWith_of_binding? hn hx] at h
  rcases Lowering.run_bind_eq_error_iff.1 h with h | ⟨type, u₁, -, h⟩
  · rw [Lowering.run_lift_eq_error_iff] at h
    obtain ⟨rfl, hunknown⟩ := ValueType.declared_eq_error h
    exact .inl (NodeFault.undeclarable x hx hunknown).below
  rcases Lowering.run_bind_eq_error_iff.1 h with h | ⟨init, u₂, -, h⟩
  · apply run_input_eq_error h
  · apply (Lowering.run_pure_ne_error _ _ d h).elim

/-- A live binding cannot be declared only for a fault of what the return needs. -/
theorem run_declaration_eq_error (hn : b.Live r n) (hr : r ∈ b.nodes) (hbinding : n.kind.isBinding = true)
    (h : (b.declaration function n.id : Lowering Stmt).run u = .error d) :
  b.ReturnFault function r d
  := by
  rcases run_declaration_error_cases (hn.mem hr) hbinding h with hbelow | ⟨p, hp, hdeep⟩
  · exact .node (hbelow.of_live hn)
  · exact .nesting n p hn (.inr hbinding) hp hdeep

/-- Declaring one binding more fails when no binding is ready, when the one that is ready cannot be
declared, or when the others cannot. -/
theorem run_declarations_succ_eq_error {count : Nat}
    (h : (b.declarations function (count + 1) : Lowering (List Stmt)).run u = .error d) :
  (u.ready? = none ∧ d = .cycle function u.undeclared) ∨
    ∃ id, u.ready? = some id ∧
      ((b.declaration function id : Lowering Stmt).run (u.declare id) = .error d ∨
        ∃ s u', (b.declaration function id : Lowering Stmt).run (u.declare id) = .ok (s, u') ∧
          (b.declarations function count : Lowering (List Stmt)).run u' = .error d)
  := by
  rw [declarations] at h
  rcases Lowering.run_bind_eq_error_iff.1 h with h | ⟨s, u', hs, h⟩
  · rw [run_nextWith] at h
    cases hready : u.ready? with
    | none =>
      rw [hready] at h
      exact .inl ⟨rfl, (Except.error.inj h).symm⟩
    | some id =>
      rw [hready] at h
      exact .inr ⟨id, rfl, .inl h⟩
  · rw [run_nextWith] at hs
    cases hready : u.ready? with
    | none =>
      rw [hready] at hs
      cases hs
    | some id =>
      rw [hready] at hs
      rcases Lowering.run_bind_eq_error_iff.1 h with h | ⟨ss, u'', -, h⟩
      · exact .inr ⟨id, rfl, .inr ⟨s, u', hs, h⟩⟩
      · apply (Lowering.run_pure_ne_error _ _ d h).elim

/-- The declarations fail when one of them does, or when some bindings wait for each other. -/
theorem run_declarations_eq_error (hr : r ∈ b.nodes) {count : Nat} {done : Node → Prop}
    (hp : b.Progress r done u) (hdone : done r)
    (hwritten : b.RootsWritten done)
    (hcount : u.undeclared.length = count)
    (h : (b.declarations function count : Lowering (List Stmt)).run u = .error d) :
  b.ReturnFault function r d
  := by
  induction count generalizing u done with
  | zero => apply (Lowering.run_pure_ne_error _ u d h).elim
  | succ count ih =>
    rcases run_declarations_succ_eq_error h with ⟨hready, rfl⟩ | ⟨id, hready, h⟩
    · apply ReturnFault.deadlocked
      constructor
      · apply List.ne_nil_of_length_pos
        omega
      · intro id hid
        obtain ⟨q, hq, hbinding, rfl⟩ := hp.live id hid
        obtain ⟨t, ht, htid, hloop, hleads⟩ := hp.exists_cycle hr hdone hwritten hready hq hid
        exact ⟨q, hq, hbinding, rfl, t, ht, htid, transGen_of_needsAmong hloop, hleads⟩
    · obtain ⟨hmem, -⟩ := hp.counts.ready?_eq_some hready
      obtain ⟨n, hn, hbinding, rfl⟩ := hp.live id hmem
      rcases h with h | ⟨s, u', hs, h⟩
      · apply run_declaration_eq_error hn hr hbinding h
      · obtain ⟨hdeclares, -, hspends⟩ := run_declaration_ok (hn.mem hr) hs
        apply ih (hp.step hr hn hspends) (.inl hdone) (hwritten.declare hdeclares) _ h
        have := Uses.length_undeclared_declare hp.nodup hmem
        rw [hspends.undeclared]
        omega

/-- A wire that is reported as dangling is a fault of the live node that it leads to. -/
theorem faultBelow_of_danglingWire? (hr : r ∈ b.nodes) {w : Wire}
    (h : b.danglingWire? r.id = some w) :
  b.FaultBelow r (.dangling w.consumer w.slot w.producer)
  := by
  rw [danglingWire?] at h
  obtain ⟨n, hn, hconsumer, hslot⟩ := (mem_liveWires_iff hr w).1 (List.mem_of_find?_eq_some h)
  have hmissing : w.producer ∉ b.ids := by
    rw [← contains_iff]
    simpa using List.find?_some h
  rw [hconsumer]
  exact ⟨n, hn, .dangling w.slot w.producer hslot hmissing⟩

/-- A cycle of dependencies that is reported consists of live nodes that are written within each
other. -/
theorem entangled_of_firstCycle? (hr : r ∈ b.nodes) (hg : b.Grounded r) {ids : List NodeId}
    (h : (b.dependencies r.id).firstCycle? = some ids) :
  b.Entangled r ids
  := by
  obtain ⟨hne, hcycle⟩ := Graph.transGen_of_firstCycle? (closed_dependencies hr hg) h
  use hne
  intro id hid
  obtain ⟨hmem, hleads⟩ := hcycle id hid
  obtain ⟨n, hn, rfl⟩ := (mem_nodes_dependencies_iff hr hg id).1 hmem
  refine ⟨n, hn, rfl, ?_⟩
  intro id' hid'
  obtain ⟨m, hm, hmid⟩ := (transGen_dependencies_iff hr hg hn id').1 (hleads id' hid')
  exact ⟨m, hmid, hm⟩

/-- The statements of a function cannot be written when a wire dangles, when expressions would be
within themselves, when the value of the return cannot be written, or when the declarations that it needs
cannot be. -/
theorem body_error_cases (h : b.body function r = .error d) :
  (∃ w, b.danglingWire? r.id = some w ∧ d = .dangling w.consumer w.slot w.producer) ∨
    (b.danglingWire? r.id = none ∧
      ∃ ids, (b.dependencies r.id).firstCycle? = some ids ∧ d = .cycle function ids) ∨
    (b.input function r 0 : Lowering Expr).run ⟨b.uses r.id, []⟩ = .error d ∨
    ∃ value u, (b.input function r 0 : Lowering Expr).run ⟨b.uses r.id, []⟩ = .ok (value, u) ∧
      (b.declarations function (b.uses r.id).length : Lowering (List Stmt)).run u = .error d
  := by
  cases hdangling : b.danglingWire? r.id with
  | some w =>
    rw [body_of_danglingWire? hdangling] at h
    exact .inl ⟨w, rfl, (Except.error.inj h).symm⟩
  | none =>
    right
    cases hcycle : (b.dependencies r.id).firstCycle? with
    | some ids =>
      rw [body_of_firstCycle? hdangling hcycle] at h
      exact .inl ⟨rfl, ids, rfl, (Except.error.inj h).symm⟩
    | none =>
      right
      rw [body_eq hdangling hcycle, Lowering.run'_eq_error_iff] at h
      rcases Lowering.run_bind_eq_error_iff.1 h with h | ⟨value, u, hvalue, h⟩
      · exact .inl h
      rcases Lowering.run_bind_eq_error_iff.1 h with h | ⟨ss, u', -, h⟩
      · exact .inr ⟨value, u, hvalue, h⟩
      · apply (Lowering.run_pure_ne_error _ _ d h).elim

/-- The statements of a function cannot be written only for a fault of what its return needs. -/
theorem body_eq_error (hr : r ∈ b.nodes) (hret : r.kind.isReturn = true)
    (h : b.body function r = .error d) :
  b.ReturnFault function r d
  := by
  rcases body_error_cases h with ⟨w, hw, rfl⟩ | ⟨hw, ids, hids, rfl⟩ | h | ⟨value, u, hvalue, h⟩
  · exact .node (faultBelow_of_danglingWire? hr hw)
  · exact .entangled ids (entangled_of_firstCycle? hr ((danglingWire?_eq_none_iff hr).1 hw) hids)
  · rcases run_input_eq_error h with hbelow | ⟨p, hp, hdeep⟩
    · exact .node hbelow
    · exact .nesting r p .refl (.inl rfl) hp hdeep
  · obtain ⟨hwritten, -, hspends⟩ := run_input_ok hvalue
    obtain ⟨hprogress, hlen⟩ := Progress.of_return hr hret hspends
    apply run_declarations_eq_error hr hprogress rfl (rootsWritten_return hret hwritten) hlen h

/-! ## Functions -/

/-- The parameters of a function cannot be compiled when the type of one of them may not be given to
parameters. -/
theorem paramsOf_eq_error (h : b.paramsOf f = .error d) :
  ∃ p name type array outputs, p ∈ b.scope f ∧ p.kind = .parameter name type array outputs ∧
    d = .unknownType p.id type ∧ type ∉ typeTokens
  := by
  obtain ⟨p, hp, hparam⟩ := List.mem_filterMap.1 (mem_of_mapM_id_eq_error h)
  rw [parametersOf, List.mem_mergeSort, List.mem_filter] at hp
  rw [Node.param?] at hparam
  split at hparam
  · next name type array outputs hk =>
    have hrequired : (ValueType.required p.id type array).map (Param.mk name) = .error d :=
      Option.some.inj hparam
    cases htype : ValueType.required p.id type array with
    | ok type' =>
      rw [htype] at hrequired
      cases hrequired
    | error d' =>
      rw [htype] at hrequired
      obtain rfl := Except.error.inj hrequired
      exact ⟨p, name, type, array, outputs, hp.1, hk, ValueType.required_eq_error htype⟩
  · cases hparam

/-- The parameters of a function cannot be compiled only for the type of one of them. -/
theorem functionFault_of_paramsOf (h : b.paramsOf f = .error d) :
  b.FunctionFault f d
  := by
  obtain ⟨p, name, type, array, outputs, hp, hk, rfl, hunknown⟩ := paramsOf_eq_error h
  exact .parameterType p name type array outputs hp hk hunknown

/-- A function has no sole return when it has none, or several. -/
theorem functionFault_of_soleReturn (h : soleReturn f.id (b.returnsOf f) = .error d) :
  b.FunctionFault f d
  := by
  match hreturns : b.returnsOf f with
  | [] =>
    rw [hreturns] at h
    obtain rfl := Except.error.inj h
    exact .missingReturn hreturns
  | [n] =>
    rw [hreturns] at h
    cases h
  | n :: n' :: ns =>
    rw [hreturns] at h
    obtain rfl := Except.error.inj h
    rw [← hreturns]
    apply FunctionFault.multipleReturns
    rw [hreturns]
    simp

/-- The return of a function cannot be compiled only for its type. -/
theorem functionFault_of_returnType (hr : b.returnsOf f = [r]) (h : r.returnType = .error d) :
  b.FunctionFault f d
  := by
  rw [Node.returnType] at h
  split at h
  · next type array value hk =>
    obtain ⟨rfl, hunknown⟩ := ValueType.declared_eq_error h
    exact .returnType r type array value hr hk hunknown
  · cases h

/-- Every diagnostic is true: when a function does not compile, on a checked board or not, the board
has the fault that the diagnostic names. -/
theorem functionFault_of_compileFunction {b : Board} {f : Node} {d : Diagnostic}
    (h : b.compileFunction f = .error d) :
  b.FunctionFault f d
  := by
  rcases compileFunction_eq_error h with ⟨hkind, rfl⟩ | hparams | hsole | ⟨r, hsole, htype | hbody⟩
  · apply FunctionFault.notAFunction hkind
  · apply functionFault_of_paramsOf hparams
  · apply functionFault_of_soleReturn hsole
  · apply functionFault_of_returnType hsole htype
  · obtain ⟨hr, hreturn⟩ := returnsOf_spec hsole
    apply FunctionFault.body r hsole
    apply body_eq_error hr hreturn hbody

/-- The node of the function whose return needs two variables that name each other. -/
def circleFunction : Node :=
  ⟨⟨0⟩, .ofNat 0, .ofNat 0, .functionDeclaration "f" (.ofNat 16) (.ofNat 8)⟩

/-- The two variables are reported as a cycle, and one of them needs itself. -/
theorem functionFault_circle :
  circle.compileFunction circleFunction = .error (.cycle ⟨0⟩ [⟨1⟩, ⟨2⟩]) ∧
    circle.FunctionFault circleFunction (.cycle ⟨0⟩ [⟨1⟩, ⟨2⟩]) ∧
    ∃ r n, circle.returnsOf circleFunction = [r] ∧ circle.Live r n ∧
      n.id ∈ [(⟨1⟩ : NodeId), ⟨2⟩] ∧ TransGen circle.Needs n n
  := by
  have hcompile : circle.compileFunction circleFunction = .error (.cycle ⟨0⟩ [⟨1⟩, ⟨2⟩]) := by
    show (((List.mergeSort [] _).filterMap _).mapM id >>= _) = _
    rw [List.mergeSort_nil]
    rfl
  have hfault := functionFault_of_compileFunction hcompile
  exact ⟨hcompile, hfault, hfault.exists_cycle⟩

end Board

end Patchboard
