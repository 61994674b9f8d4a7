import Patchboard.Proofs.Compile.Mentions

/-!
# Declarations before uses

In the statements of a function every local is declared before it is used, provided that the live
bindings have names of their own and that no wire is used by two roots. On a checked board the second
is always so. On a board that was not checked a node may be wired to several places. It is written in
all of them, but its wires are counted once: a binding that it uses can be declared too early, when
some but not all of the places have been written.
-/

namespace Patchboard

/-- No statement uses a name that is declared by it or by a statement after it. -/
def DeclaredBeforeUse (ss : List Stmt) : Prop :=
  ∀ (i : Nat) s, ss[i]?.bind Stmt.declared? = some s →
    ∀ j ≤ i, ∀ st, ss[j]? = some st → s ∉ st.mentions

namespace Board

variable {b : Board} {r : Node} {ns : List Node} {ds : List Stmt} {value : Expr}

/-- Declarations in order, and the return after them, do not use what is declared later, when the
bindings have names of their own. -/
theorem Declared.declaredBeforeUse (hr : r ∈ b.nodes) (hret : r.kind.isReturn = true)
    (h : b.Declared r (fun n => n = r) ns ds) (hordered : b.Ordered (fun _ => False) ns)
    (hvalue : b.SlotWrittenAs r 0 value) (hnames : b.NamesApart r) :
  DeclaredBeforeUse (ds ++ [.ret value])
  := by
  intro i s hdeclared j hji st hst hs
  have hlive : ∀ {k m}, ns[k]? = some m → b.Live r m :=
    fun hm => ((h.mem_iff _).1 (List.mem_of_getElem? hm)).1
  obtain ⟨q, hq, x, hx, rfl⟩ := (declared?_statement_iff h.declares i).1 hdeclared
  rcases h.mentions_before hr hret hordered hvalue hst hs with ⟨p, hp, hname⟩ | ⟨k, hk, m, hm, y, hy, hyx⟩
  · apply hnames.outer q p x x.name (hlive hq) hp hx hname rfl
  · -- A binding of the same name is the same binding, and has one position.
    obtain rfl := hnames.bindings m q y x (hlive hm) (hlive hq) hy hx hyx
    have hki : k = i :=
      (List.getElem?_inj (List.getElem?_eq_some_iff.1 hm).1 h.nodup).1 (hm.trans hq.symm)
    omega

/-- A function that compiles, on a checked board or not, has one return, and declares every local
before it is used if the live bindings have names of their own and no wire is used by two roots. On a
checked board no wire is. -/
theorem declaredBeforeUse_of_compileFunction {b : Board} {f : Node} {decl : Function}
    (h : b.compileFunction f = .ok decl) :
  ∃ r, b.returnsOf f = [r] ∧ (b.validate = .ok () → b.WrittenOnce r) ∧
    (b.NamesApart r → b.WrittenOnce r → DeclaredBeforeUse decl.body)
  := by
  obtain ⟨r, ns, ds, value, hret, hr, hreturn, -, hss, hvalue, hdeclared⟩ := compileFunction_ok h
  refine ⟨r, hret, ?_, ?_⟩
  · intro hb
    apply (linked_of_validate hb).writtenOnce hr
  · intro hnames honce
    rw [hss]
    apply hdeclared.declaredBeforeUse hr hreturn _ hvalue hnames
    apply hdeclared.ordered_of_writtenOnce honce hr hreturn

/-- The function of the checked board declares its local before it is used. -/
theorem declaredBeforeUse_squareOfDouble :
  squareOfDouble.compileFunction squareOfDoubleFunction = .ok squareOfDoubleCompiled ∧
    DeclaredBeforeUse squareOfDoubleCompiled.body
  := by
  use compileFunction_squareOfDouble
  obtain ⟨r, hret, honce, h⟩ := declaredBeforeUse_of_compileFunction compileFunction_squareOfDouble
  apply h
  · apply namesApart_squareOfDouble (returnsOf_spec hret).1
  · apply honce
    decide

/-- A board that does not pass the check: the sum `v + v` is wired to the variable `w`, which records
it, and to the difference that is returned. -/
def sharedSum : Board where
  nodes := [
    ⟨⟨0⟩, .ofNat 0, .ofNat 0, .functionDeclaration "f" (.ofNat 16) (.ofNat 8)⟩,
    ⟨⟨1⟩, .ofNat 0, .ofNat 0, .numericLiteral (.ofNat 7) (some ⟨2⟩)⟩,
    ⟨⟨2⟩, .ofNat 0, .ofNat 0, .variableStatement ⟨"v", "infer", false, some ⟨1⟩, [⟨3⟩, ⟨3⟩]⟩⟩,
    ⟨⟨3⟩, .ofNat 0, .ofNat 0, .binaryExpression "+" (some ⟨2⟩) (some ⟨2⟩) (some ⟨4⟩)⟩,
    ⟨⟨4⟩, .ofNat 0, .ofNat 0, .variableStatement ⟨"w", "infer", false, some ⟨3⟩, [⟨5⟩, ⟨5⟩]⟩⟩,
    ⟨⟨5⟩, .ofNat 0, .ofNat 0, .binaryExpression "*" (some ⟨4⟩) (some ⟨4⟩) (some ⟨6⟩)⟩,
    ⟨⟨6⟩, .ofNat 0, .ofNat 0, .binaryExpression "-" (some ⟨5⟩) (some ⟨3⟩) (some ⟨7⟩)⟩,
    ⟨⟨7⟩, .ofNat 0, .ofNat 0, .returnStatement "infer" false (some ⟨6⟩)⟩]
  nextId := 8
  distinct := by decide

/-- The node of the function. -/
def sharedSumFunction : Node :=
  ⟨⟨0⟩, .ofNat 0, .ofNat 0, .functionDeclaration "f" (.ofNat 16) (.ofNat 8)⟩

/-- What the function compiles to: the use of `v` in the declaration of `w` comes too early. -/
def sharedSumCompiled : Function where
  name := "f"
  params := []
  returnType := none
  body := [.const "w" none (.binary (.ident "v") .add (.ident "v")),
    .const "v" none (.literal (.number (.ofNat 7))),
    .ret (.binary (.binary (.ident "w") .mul (.ident "w")) .sub
      (.binary (.ident "v") .add (.ident "v")))]

/-- The function of the board compiles, and its bindings have names of their own, but one of them is
used before it is declared. -/
theorem not_declaredBeforeUse_sharedSum :
  sharedSum.compileFunction sharedSumFunction = .ok sharedSumCompiled ∧
    (∀ r ∈ sharedSum.nodes, sharedSum.NamesApart r) ∧ ¬ DeclaredBeforeUse sharedSumCompiled.body
  := by
  refine ⟨?_, ?_, ?_⟩
  · apply compileFunction_eq_ok_iff.2
    refine ⟨"f", .ofNat 16, .ofNat 8,
      ⟨⟨7⟩, .ofNat 0, .ofNat 0, .returnStatement "infer" false (some ⟨6⟩)⟩, rfl, ?_, ?_, rfl, rfl, rfl⟩
    · show ((List.mergeSort [] _).filterMap _).mapM id = _
      rw [List.mergeSort_nil]
      rfl
    · decide
  · intro r hr
    apply namesApart_of_nodes hr
    · decide
    · decide
  · intro h
    apply h 1 "v" rfl 0 (Nat.zero_le 1) _ rfl
    decide

end Board

end Patchboard
