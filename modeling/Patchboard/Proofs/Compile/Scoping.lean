import Mathlib.Data.List.Nodup
import Patchboard.Proofs.Board.Runs
import Patchboard.Proofs.Compile.Mentions

/-!
# Names that a function declares and uses

A function declares its parameters and its locals under the names of their nodes, which may be any
text: the declared names are distinct exactly when the names of the nodes are. A name that it uses is
declared by it before, or is the name of a function of the board. There is one exception. Parameters
belong to a function by their position, but are used along the wires: a parameter that lies outside of
the function may be wired to it, and is then used without a declaration.
-/

namespace Patchboard

/-- The name that a node declares within a function. -/
def Kind.localName? : Kind → Option String
  | parameter name _ _ _ => some name
  | identifier binding => some binding.name
  | variableStatement binding => some binding.name
  | _ => none

/-- The name that a binding declares. -/
theorem Kind.localName?_of_binding? {k : Kind} {x : Binding} (h : k.binding? = some x) :
  k.localName? = some x.name
  := by
  cases k <;> cases h <;> rfl

/-- A binding is no parameter. -/
theorem Kind.not_isParameter_of_isBinding {k : Kind} (h : k.isBinding = true) :
  k.isParameter = false
  := by
  cases k <;> first | rfl | cases h

/-- The names that a function declares, those of its parameters and then those of its locals. -/
def Function.declared (f : Function) : List String :=
  f.params.map Param.name ++ f.body.filterMap Stmt.declared?

/-- Every name that is used in a function is a parameter of it, or declared by a statement before, or
one of the names that the function is given from outside. -/
def Function.ClosedOver (f : Function) (outer : String → Prop) : Prop :=
  ∀ (j : Nat) st s, f.body[j]? = some st → s ∈ st.mentions →
    s ∈ f.params.map Param.name ∨ (∃ k < j, f.body[k]?.bind Stmt.declared? = some s) ∨ outer s

namespace Board

variable {b : Board} {f r n m : Node} {s : String}

/-! ## Names that are declared -/

/-- The nodes whose names a function with the return `r` declares: its parameters, and the live
bindings. -/
def DeclaredIn (b : Board) (f r n : Node) : Prop :=
  (n ∈ b.scope f ∧ n.kind.isParameter = true) ∨ (b.Live r n ∧ n.kind.isBinding = true)

/-- The nodes that a function declares have names of their own. -/
def LocalsApart (b : Board) (f r : Node) : Prop :=
  ∀ n m, b.DeclaredIn f r n → b.DeclaredIn f r m → n.kind.localName? = m.kind.localName? → n = m

/-- A parameter compiles from a node of its name, which declares its type. -/
theorem param?_eq_ok_iff {p : Node} {param : Param} :
  p.param? = some (.ok param)
    ↔ ∃ type array outputs, p.kind = .parameter param.name type array outputs ∧
        ValueType.required p.id type array = .ok param.type
  := by
  obtain ⟨name, type⟩ := param
  rw [Node.param?]
  cases p.kind with
  | parameter name' type' array outputs =>
    simp only [Option.some.injEq, map_eq_ok_iff, Param.mk.injEq]
    constructor
    · rintro ⟨_, htype, rfl, rfl⟩
      exact ⟨type', array, outputs, rfl, htype⟩
    · rintro ⟨_, _, _, hk, htype⟩
      obtain ⟨rfl, rfl, rfl, -⟩ := Kind.parameter.inj hk
      exact ⟨type, htype, rfl, rfl⟩
  | _ => simp

/-- Parameters compile one by one. -/
theorem forall₂_of_mapM_param? {ps : List Node} (hps : ∀ p ∈ ps, p.kind.isParameter = true)
    {params : List Param} (h : (ps.filterMap Node.param?).mapM id = .ok params) :
  List.Forall₂ (fun p param => p.param? = some (.ok param)) ps params
  := by
  rw [mapM_id_eq_ok_iff] at h
  induction ps generalizing params with
  | nil =>
    obtain rfl := List.map_eq_nil_iff.1 h.symm
    exact .nil
  | cons p ps ih =>
    obtain ⟨hp, hps⟩ := List.forall_mem_cons.1 hps
    obtain ⟨result, hresult⟩ : ∃ result, p.param? = some result := by
      unfold Node.param?
      split
      · exact ⟨_, rfl⟩
      · next hk =>
        cases hkind : p.kind with
        | parameter name type array outputs => exact (hk name type array outputs hkind).elim
        | _ => simp [hkind, Kind.isParameter] at hp
    rw [List.filterMap_cons_some hresult] at h
    cases params with
    | nil => cases h
    | cons param params =>
      obtain ⟨rfl, hrest⟩ := List.cons.inj h
      exact .cons hresult (ih hps hrest)

/-- Parameters compile under their names. -/
theorem names_of_mapM_param? {ps : List Node} (hps : ∀ p ∈ ps, p.kind.isParameter = true)
    {params : List Param} (h : (ps.filterMap Node.param?).mapM id = .ok params) :
  (params.map Param.name).map some = ps.map fun p => p.kind.localName?
  := by
  have hparams := forall₂_of_mapM_param? hps h
  clear hps h
  induction hparams with
  | nil => rfl
  | @cons p param ps params hparam _ ih =>
    obtain ⟨type, array, outputs, hk, -⟩ := param?_eq_ok_iff.1 hparam
    rw [List.map_cons, List.map_cons, List.map_cons, ih, hk]
    rfl

/-- Bindings are declared under their names, and the return declares nothing. -/
theorem declared_statements {ns : List Node} {ds : List Stmt} (h : List.Forall₂ b.Declares ns ds)
    (value : Expr) :
  ((ds ++ [Stmt.ret value]).filterMap Stmt.declared?).map some = ns.map fun n => n.kind.localName?
  := by
  induction h with
  | nil => rfl
  | @cons n st ns ds hdeclares _ ih =>
    obtain ⟨x, type, init, hx, -, -, rfl⟩ := hdeclares
    rw [List.map_cons, Kind.localName?_of_binding? hx, ← ih]
    rfl

/-- The parameters of a function are parameters in its scope. -/
theorem mem_parametersOf_scope :
  n ∈ parametersOf (b.scope f) ↔ n ∈ b.scope f ∧ n.kind.isParameter = true
  := by
  rw [parametersOf, List.mem_mergeSort, List.mem_filter]

/-- The parameters of a function are distinct. -/
theorem nodup_parametersOf_scope (b : Board) (f : Node) :
  (parametersOf (b.scope f)).Nodup
  := by
  rw [parametersOf, (List.mergeSort_perm _ _).nodup_iff]
  apply List.Nodup.filter
  apply List.Nodup.filter
  apply List.Nodup.of_map _ b.distinct

/-- The names that a compiled function declares are distinct exactly when the nodes that it declares
have names of their own. -/
theorem nodup_declared_iff {decl : Function} (h : b.compileFunction f = .ok decl)
    (hsole : b.returnsOf f = [r]) :
  decl.declared.Nodup ↔ b.LocalsApart f r
  := by
  obtain ⟨r', ns, ds, value, hret, -, hreturn, hparams, hss, -, hdeclared⟩ := compileFunction_ok h
  obtain rfl := List.singleton_inj.1 (hret.symm.trans hsole)
  have hmem := hdeclared.mem_iff_of_isReturn hreturn
  -- The declared names are those of the parameters and the bindings, each of these taken once.
  have hnames : decl.declared.map some
      = (parametersOf (b.scope f) ++ ns).map fun n => n.kind.localName? := by
    rw [Function.declared, List.map_append, List.map_append, hss,
      declared_statements hdeclared.declares]
    rw [names_of_mapM_param? _ hparams]
    intro p hp
    apply (mem_parametersOf_scope.1 hp).2
  have hnodup : (parametersOf (b.scope f) ++ ns).Nodup := by
    apply List.nodup_append.2
    refine ⟨nodup_parametersOf_scope b f, hdeclared.nodup, ?_⟩
    rintro n hn m hm rfl
    have hparameter := (mem_parametersOf_scope.1 hn).2
    rw [Kind.not_isParameter_of_isBinding ((hmem n).1 hm).2] at hparameter
    cases hparameter
  have hdeclares : ∀ n, n ∈ parametersOf (b.scope f) ++ ns ↔ b.DeclaredIn f r' n := by
    intro n
    rw [List.mem_append, mem_parametersOf_scope, hmem, DeclaredIn]
  rw [← List.nodup_map_iff fun _ _ => Option.some.inj, hnames, List.nodup_map_iff_inj_on hnodup]
  simp only [hdeclares]
  exact ⟨fun h n m hn hm => h n hn m hm, fun h n hn m hm => h n m hn hm⟩

/-! ## Names that are used -/

/-- A name is the name of a function of the board. -/
def NamesFunction (b : Board) (s : String) : Prop :=
  ∃ g ∈ b.functions, ∃ width height, g.kind = .functionDeclaration s width height

/-- A name is the name of a live parameter that lies outside of the function. -/
def NamesStray (b : Board) (f r : Node) (s : String) : Prop :=
  ∃ p, b.Live r p ∧ p ∉ b.scope f ∧ ∃ type array outputs, p.kind = .parameter s type array outputs

/-- The name of a live parameter or function is the name of a parameter of the function that is
compiled, of a parameter outside of it, or of a function. -/
theorem NamesOuter.cases (h : b.NamesOuter r s) (hr : r ∈ b.nodes) {params : List Param}
    (hparams : b.paramsOf f = .ok params) :
  s ∈ params.map Param.name ∨ b.NamesFunction s ∨ b.NamesStray f r s
  := by
  obtain ⟨p, hp, hname⟩ := h
  unfold Kind.outerName? at hname
  split at hname
  · next name width height hk =>
    obtain rfl := Option.some.inj hname
    refine .inr (.inl ⟨p, List.mem_filter.2 ⟨hp.mem hr, ?_⟩, width, height, hk⟩)
    rw [hk]
    rfl
  · next name type array outputs hk =>
    obtain rfl := Option.some.inj hname
    by_cases hscope : p ∈ b.scope f
    · left
      have hmem : p ∈ parametersOf (b.scope f) :=
        mem_parametersOf_scope.2 ⟨hscope, by rw [hk]; rfl⟩
      have hnames := names_of_mapM_param? (fun q hq => (mem_parametersOf_scope.1 hq).2) hparams
      have hlocal : some name ∈ (parametersOf (b.scope f)).map fun q => q.kind.localName? :=
        List.mem_map.2 ⟨p, hmem, by rw [hk]; rfl⟩
      rw [← hnames] at hlocal
      simpa using hlocal
    · exact .inr (.inr ⟨p, hp, hscope, type, array, outputs, hk⟩)
  · cases hname

/-- On a linked board the names that a compiled function uses are declared before, or stand for functions
or for parameters outside of it. -/
theorem Linked.closedOver (hb : b.Linked) {decl : Function} (h : b.compileFunction f = .ok decl)
    (hsole : b.returnsOf f = [r]) :
  decl.ClosedOver fun s => b.NamesFunction s ∨ b.NamesStray f r s
  := by
  obtain ⟨r', ns, ds, value, hret, hr, hreturn, hparams, hss, hvalue, hdeclared⟩ :=
    compileFunction_ok h
  obtain rfl := List.singleton_inj.1 (hret.symm.trans hsole)
  intro j st s hst hs
  rw [hss] at hst ⊢
  have hordered := hdeclared.ordered hb hr hreturn
  rcases hdeclared.mentions_before hr hreturn hordered hvalue hst hs with houter | ⟨k, hk, q, hq⟩
  · rcases houter.cases hr hparams with hparam | houter
    · exact .inl hparam
    · exact .inr (.inr houter)
  · exact .inr (.inl ⟨k, hk, (declared?_statement_iff hdeclared.declares k).2 ⟨q, hq⟩⟩)

/-- A function that compiles on a board made by edits has one return. The names that it declares are
distinct exactly when its parameters and the live bindings have names of their own, and every name
that it uses is a parameter, or declared before, or the name of a function of the board or of a live
parameter outside of the function. -/
theorem scoped_compileFunction_foldl_apply (edits : List Edit) {f : Node} {decl : Function}
    (h : (edits.foldl apply empty).compileFunction f = .ok decl) :
  ∃ r, (edits.foldl apply empty).returnsOf f = [r] ∧
    (decl.declared.Nodup ↔ (edits.foldl apply empty).LocalsApart f r) ∧
    decl.ClosedOver fun s =>
      (edits.foldl apply empty).NamesFunction s ∨ (edits.foldl apply empty).NamesStray f r s
  := by
  obtain ⟨r, -, -, -, hret, -⟩ := compileFunction_ok h
  have hlinked := (consistent_empty.run edits).linked
  exact ⟨r, hret, nodup_declared_iff h hret, hlinked.closedOver h hret⟩

/-- Edits that place a function with two parameters from the palette, a parameter `q` outside of it and
a return, which is then wired to `q`. -/
def strayEdits : List Edit := [
  .add (.fresh .functionDeclaration) (.fresh .functionDeclaration) (.ofNat 0) (.ofNat 0),
  .add (.fresh .parameter) (.fresh .parameter) (.ofNat 1) (.ofNat 0),
  .add (.fresh .parameter) (.fresh .parameter) (.ofNat 2) (.ofNat 0),
  .add (Kind.freshParameter "q" "number") (.parameter "q" "number") (.ofNat 100) (.ofNat 0),
  .add (.fresh .returnStatement) (.fresh .returnStatement) (.ofNat 3) (.ofNat 0),
  .connect ⟨4⟩ 0 ⟨3⟩]

/-- The board that the edits make. -/
def stray : Board where
  nodes := [
    ⟨⟨0⟩, .ofNat 0, .ofNat 0, .functionDeclaration "f1" (.ofNat 16) (.ofNat 8)⟩,
    ⟨⟨1⟩, .ofNat 1, .ofNat 0, .parameter "p1" "number" false []⟩,
    ⟨⟨2⟩, .ofNat 2, .ofNat 0, .parameter "p1" "number" false []⟩,
    ⟨⟨3⟩, .ofNat 100, .ofNat 0, .parameter "q" "number" false [⟨4⟩]⟩,
    ⟨⟨4⟩, .ofNat 3, .ofNat 0, .returnStatement "infer" false (some ⟨3⟩)⟩]
  nextId := 5
  distinct := by decide

/-- The node of the function. -/
def strayFunction : Node :=
  ⟨⟨0⟩, .ofNat 0, .ofNat 0, .functionDeclaration "f1" (.ofNat 16) (.ofNat 8)⟩

/-- What the function compiles to. -/
def strayCompiled : Function where
  name := "f1"
  params := [⟨"p1", ⟨.number, false⟩⟩, ⟨"p1", ⟨.number, false⟩⟩]
  returnType := none
  body := [.ret (.ident "q")]

/-- The edits make the board. -/
theorem foldl_apply_strayEdits :
  strayEdits.foldl apply empty = stray
  := by
  decide

/-- The function compiles. -/
theorem compileFunction_stray :
  stray.compileFunction strayFunction = .ok strayCompiled
  := by
  apply compileFunction_eq_ok_iff.2
  refine ⟨"f1", .ofNat 16, .ofNat 8,
    ⟨⟨4⟩, .ofNat 3, .ofNat 0, .returnStatement "infer" false (some ⟨3⟩)⟩, rfl, ?_, ?_, rfl, rfl, rfl⟩
  · rw [paramsOf, parametersOf, List.mergeSort_of_pairwise (by decide)]
    rfl
  · decide

/-- The function uses only `q`, the name of a parameter outside of it, and two of the nodes that it
declares share a name. -/
theorem scoped_stray :
  ∃ r, (strayEdits.foldl apply empty).returnsOf strayFunction = [r] ∧
    ¬ (strayEdits.foldl apply empty).LocalsApart strayFunction r ∧
    strayCompiled.ClosedOver fun s => (strayEdits.foldl apply empty).NamesFunction s ∨
      (strayEdits.foldl apply empty).NamesStray strayFunction r s
  := by
  obtain ⟨r, hret, hdistinct, hclosed⟩ := scoped_compileFunction_foldl_apply strayEdits
    (foldl_apply_strayEdits.symm ▸ compileFunction_stray)
  refine ⟨r, hret, ?_, hclosed⟩
  rw [← hdistinct]
  decide

/-- The function declares one name twice, and uses a name that is neither declared by it nor the name of
a function. -/
theorem not_closedOver_stray :
  (strayEdits.foldl apply empty).compileFunction strayFunction = .ok strayCompiled ∧
    ¬ strayCompiled.declared.Nodup ∧
    ¬ strayCompiled.ClosedOver (strayEdits.foldl apply empty).NamesFunction
  := by
  rw [foldl_apply_strayEdits]
  refine ⟨compileFunction_stray, by decide, ?_⟩
  intro h
  rcases h 0 (.ret (.ident "q")) "q" rfl (by decide) with hparam | ⟨k, hk, -⟩ | ⟨g, hg, width, height, hk⟩
  · revert hparam
    decide
  · cases hk
  · have hname : ∀ g ∈ stray.functions, g.kind.outerName? ≠ some "q" := by decide
    apply hname g hg
    rw [hk]
    rfl

end Board

end Patchboard
