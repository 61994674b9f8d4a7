import Patchboard.Proofs.Compile.Functions
import Patchboard.Proofs.Compile.Interpretation
import Patchboard.Proofs.Compile.Ordering

/-!
# Compilation preserves meaning

The statements of a function are executed from the first to the last. At each moment the names of the
bindings that have been declared have the values of their nodes, and the names of parameters and
functions have the values that they were given. Since every binding is declared before it is used, no
name without a value is met, and the return has the value of the node that is wired to it.
-/

namespace Patchboard

universe u

/-- The name of a node that has its value from outside. -/
def Kind.outerName? : Kind → Option String
  | functionDeclaration name _ _ => some name
  | parameter name _ _ _ => some name
  | _ => none

namespace Board

/-- The live bindings have names of their own. -/
structure NamesApart (b : Board) (r : Node) : Prop where
  /-- No two live bindings share a name. -/
  bindings : ∀ n m x y, b.Live r n → b.Live r m → n.kind.binding? = some x →
    m.kind.binding? = some y → x.name = y.name → n = m
  /-- No live binding has the name of a live parameter or function. -/
  outer : ∀ n m x name, b.Live r n → b.Live r m → n.kind.binding? = some x →
    m.kind.outerName? = some name → x.name ≠ name

/-- The live bindings have names of their own when all bindings of the board do. -/
theorem namesApart_of_nodes {b : Board} {r : Node} (hr : r ∈ b.nodes)
    (bindings : ∀ n ∈ b.nodes, ∀ m ∈ b.nodes, ∀ x ∈ n.kind.binding?, ∀ y ∈ m.kind.binding?,
      x.name = y.name → n = m)
    (outer : ∀ n ∈ b.nodes, ∀ m ∈ b.nodes, ∀ x ∈ n.kind.binding?, ∀ name ∈ m.kind.outerName?,
      x.name ≠ name) :
  b.NamesApart r
  := by
  constructor
  · intro n m x y hn hm hx hy
    apply bindings n (hn.mem hr) m (hm.mem hr) x hx y hy
  · intro n m x name hn hm hx hname
    apply outer n (hn.mem hr) m (hm.mem hr) x hx name hname

end Board

namespace Interpretation

variable {V : Type u} {I : Interpretation V} {ρ σ : Environment V} {b : Board} {r n : Node}
  {declared : Node → Prop}

/-- An environment gives values to the names of the live parameters and functions. -/
def Provides (ρ : Environment V) (b : Board) (r : Node) : Prop :=
  ∀ n name, b.Live r n → n.kind.outerName? = some name → (ρ name).isSome

/-- While a function is executed in the environment `ρ`, certain bindings have been declared and
the environment has become `σ`. -/
structure Tracks (I : Interpretation V) (ρ : Environment V) (b : Board) (r : Node)
    (declared : Node → Prop) (σ : Environment V) : Prop where
  /-- Parameters and functions have their values. -/
  outer : ∀ n name, b.Live r n → n.kind.outerName? = some name →
    ∃ v, σ name = some v ∧ ρ name = some v
  /-- Bindings that have been declared have the values of their nodes. -/
  bound : ∀ n x, declared n → n.kind.binding? = some x →
    ∃ v, σ x.name = some v ∧ I.HasValue ρ b n v
  live : ∀ n, declared n → b.Live r n

/-- Before the execution nothing has been declared. -/
theorem Provides.tracks (h : Provides ρ b r) :
  I.Tracks ρ b r (fun _ => False) ρ
  := by
  constructor
  · intro n name hn hname
    obtain ⟨v, hv⟩ := Option.isSome_iff_exists.1 (h n name hn hname)
    exact ⟨v, hv, hv⟩
  · intro n x hn
    exact hn.elim
  · intro n hn
    exact hn.elim

/-! ## Expressions -/

/-- A function on the board has the value of its name. -/
theorem Tracks.eval_function (h : I.Tracks ρ b r declared σ) (hn : b.Live r n) {name : String}
    (hname : n.kind.outerName? = some name) :
  ∃ v, I.eval σ (.ident name) = some v ∧ I.HasValue ρ b n v
  := by
  obtain ⟨v, hσ, hρ⟩ := h.outer n name hn hname
  refine ⟨v, hσ, 1, ?_⟩
  rw [value?]
  rw [valueWith]
  unfold Kind.outerName? at hname
  split at hname
  · next hk =>
    obtain rfl := Option.some.inj hname
    simpa [hk] using hρ
  · next hk =>
    obtain rfl := Option.some.inj hname
    simpa [hk] using hρ
  · cases hname

/-- A reference has the value of the function that it names. -/
theorem Tracks.eval_reference (h : I.Tracks ρ b r declared σ) (hn : b.Live r n)
    (hk : ∃ function output, n.kind = .functionReference function output) {name : String}
    (hname : b.referencedFunction n = .ok name) :
  ∃ v, I.eval σ (.ident name) = some v ∧ I.HasValue ρ b n v
  := by
  obtain ⟨function, output, hk⟩ := hk
  obtain ⟨p, width, height, hp, hpk⟩ := Board.referencedFunction_eq_ok_iff.1 hname
  obtain ⟨v, hv, hpv⟩ := h.eval_function (hn.step hp) (by rw [hpk]; rfl)
  refine ⟨v, hv, ?_⟩
  apply HasValue.node [0] fun _ => v
  · intro i hi
    rw [List.mem_singleton.1 hi]
    exact ⟨p, hp, hpv⟩
  · intro slot hslot
    rw [valueWith]
    rw [hk]
    apply hslot 0 (by simp)

/-- The first slot of a call has the value of the function that the call names. -/
theorem Tracks.eval_callee (h : I.Tracks ρ b r declared σ) (hn : b.Live r n) {name : String}
    (hname : b.callee n = .ok name) :
  ∃ p v, b.Holds n 0 p ∧ I.eval σ (.ident name) = some v ∧ I.HasValue ρ b p v
  := by
  obtain ⟨p, hp, ⟨width, height, hk⟩ | ⟨hk, hname⟩⟩ := Board.callee_eq_ok_iff.1 hname
  · obtain ⟨v, hv⟩ := h.eval_function (hn.step hp) (by rw [hk]; rfl)
    exact ⟨p, v, hp, hv⟩
  · obtain ⟨v, hv⟩ := h.eval_reference (hn.step hp) hk hname
    exact ⟨p, v, hp, hv⟩

/-- A call has the value of the node that is written as it, when its arguments have the values of
their slots. -/
theorem Tracks.eval_call (h : I.Tracks ρ b r declared σ) (hn : b.Live r n) {inputs : List Slot}
    {output : Slot} (hk : n.kind = .callExpression inputs output) {name : String}
    (hname : b.callee n = .ok name) {part : Nat → Expr} {x : Nat → V}
    (hparts : ∀ i ∈ List.range' 1 (inputs.length - 1), I.eval σ (part i) = some (x i))
    (hvalues : ∀ i ∈ List.range' 1 (inputs.length - 1), ∃ p, b.Holds n i p ∧ I.HasValue ρ b p (x i)) :
  ∃ v, I.eval σ (.call (.ident name) ((List.range' 1 (inputs.length - 1)).map part)) = some v ∧
    I.HasValue ρ b n v
  := by
  obtain ⟨p, f, hp, hf, hpf⟩ := h.eval_callee hn hname
  refine ⟨I.call f ((List.range' 1 (inputs.length - 1)).map x), ?_, ?_⟩
  · rw [eval, hf, evalAll_map hparts]
    rfl
  · have hfirst : ∀ i ∈ List.range' 1 (inputs.length - 1), (if i = 0 then f else x i) = x i := by
      intro i hi
      rw [if_neg]
      have := (List.mem_range'_1.1 hi).1
      omega
    apply HasValue.node (0 :: List.range' 1 (inputs.length - 1)) fun i => if i = 0 then f else x i
    · rw [List.forall_mem_cons]
      constructor
      · exact ⟨p, hp, hpf⟩
      · intro i hi
        rw [hfirst i hi]
        apply hvalues i hi
    · intro slot hslot
      obtain ⟨hzero, hargs⟩ := List.forall_mem_cons.1 hslot
      rw [valueWith]
      rw [hk]
      simp only [hzero, mapM_eq_some hargs, List.map_congr_left hfirst]
      rfl

/-- An access has the value of the node that is written as it, when its parts have the values of
their slots. -/
theorem eval_access (hk : ∃ access, n.kind = .elementAccess access ∨ n.kind = .propertyAccess access)
    {head : Head} {part : Nat → Expr} {e : Expr} (hhead : b.head? n = some head)
    (hbuild : head.build? ((b.operands n).map part) = some e) {x : Nat → V}
    (hparts : ∀ i ∈ b.operands n, I.eval σ (part i) = some (x i))
    (hvalues : ∀ i ∈ b.operands n, ∃ p, b.Holds n i p ∧ I.HasValue ρ b p (x i)) :
  ∃ v, I.eval σ e = some v ∧ I.HasValue ρ b n v
  := by
  have hops := Board.operands_of_isAccess (b := b) hk
  obtain ⟨access, hk⟩ := hk
  have hlookup : ((b.producer n 1).toOption.map fun key =>
      ((Board.propertyName? key).map .member).getD .index) = some head := by
    rw [Board.head?] at hhead
    rcases hk with hk | hk <;> rwa [hk] at hhead
  have hvalueWith : ∀ slot : Nat → Option V, I.valueWith ρ b slot n
      = I.accessWith slot (b.keyName? n) := by
    intro slot
    rcases hk with hk | hk <;> simp only [valueWith, hk]
  obtain ⟨key, hkey, rfl⟩ := Option.map_eq_some_iff.1 hlookup
  rw [hops] at hbuild hparts hvalues
  rw [Board.keyName?_of_producer (toOption_eq_some_iff.1 hkey)] at hbuild hparts hvalues hvalueWith
  cases hname : Board.propertyName? key with
  | some name =>
    simp only [hname, Option.isSome_some, if_true] at hbuild hparts hvalues hvalueWith
    obtain rfl := Option.some.inj hbuild
    refine ⟨I.member (x 0) name, ?_, ?_⟩
    · simp [eval, hparts 0]
    · apply HasValue.node [0] x hvalues
      intro slot hslot
      simp [hvalueWith, accessWith, hslot 0]
  | none =>
    simp only [hname, Option.isSome_none, Bool.false_eq_true, if_false] at hbuild hparts hvalues hvalueWith
    obtain rfl := Option.some.inj hbuild
    refine ⟨I.index (x 0) (x 1), ?_, ?_⟩
    · simp [eval, hparts 0, hparts 1]
    · apply HasValue.node [0, 1] x hvalues
      intro slot hslot
      simp [hvalueWith, accessWith, hslot 0, hslot 1]

/-- The expression of a node has the value of the node, when its parts have the values of the
operands. -/
theorem Tracks.eval_build (h : I.Tracks ρ b r declared σ) (hn : b.Live r n)
    (hself : n.kind.isBinding = true → declared n) {head : Head} {part : Nat → Expr} {e : Expr}
    (hhead : b.head? n = some head) (hbuild : head.build? ((b.operands n).map part) = some e)
    {x : Nat → V} (hparts : ∀ i ∈ b.operands n, I.eval σ (part i) = some (x i))
    (hvalues : ∀ i ∈ b.operands n, ∃ p, b.Holds n i p ∧ I.HasValue ρ b p (x i)) :
  ∃ v, I.eval σ e = some v ∧ I.HasValue ρ b n v
  := by
  have name : ∀ s, head = .name s → b.operands n = [] →
      (∃ v, I.eval σ (.ident s) = some v ∧ I.HasValue ρ b n v) →
      ∃ v, I.eval σ e = some v ∧ I.HasValue ρ b n v := by
    rintro s rfl hops hvalue
    rw [hops] at hbuild
    obtain rfl := Option.some.inj hbuild
    exact hvalue
  have literal : ∀ l, head = .literal l → b.operands n = [] →
      (∀ slot, I.valueWith ρ b slot n = some (I.literal l)) →
      ∃ v, I.eval σ e = some v ∧ I.HasValue ρ b n v := by
    rintro l rfl hops hvalue
    rw [hops] at hbuild
    obtain rfl := Option.some.inj hbuild
    exact ⟨I.literal l, rfl, 1, hvalue _⟩
  cases hk : n.kind with
  | functionDeclaration s =>
    apply name s _ (by simp only [Board.operands, hk])
    · apply h.eval_function hn
      rw [hk]
      rfl
    · simpa [Board.head?, hk] using hhead.symm
  | parameter s =>
    apply name s _ (by simp only [Board.operands, hk])
    · apply h.eval_function hn
      rw [hk]
      rfl
    · simpa [Board.head?, hk] using hhead.symm
  | identifier y =>
    apply name y.name _ (by simp only [Board.operands, hk])
    · apply h.bound n y (hself (by rw [hk]; rfl))
      rw [hk]
      rfl
    · simpa [Board.head?, hk] using hhead.symm
  | variableStatement y =>
    apply name y.name _ (by simp only [Board.operands, hk])
    · apply h.bound n y (hself (by rw [hk]; rfl))
      rw [hk]
      rfl
    · simpa [Board.head?, hk] using hhead.symm
  | functionReference function output =>
    simp only [Board.head?, hk] at hhead
    obtain ⟨s, hs, hhead⟩ := Option.map_eq_some_iff.1 hhead
    apply name s hhead.symm (by simp only [Board.operands, hk])
    apply h.eval_reference hn ⟨function, output, hk⟩ (toOption_eq_some_iff.1 hs)
  | numericLiteral value output =>
    apply literal (.number value) _ (by simp only [Board.operands, hk])
    · intro slot
      simp only [valueWith, hk]
    · simpa [Board.head?, hk] using hhead.symm
  | stringLiteral value output =>
    apply literal (.string value) _ (by simp only [Board.operands, hk])
    · intro slot
      simp only [valueWith, hk]
    · simpa [Board.head?, hk] using hhead.symm
  | binaryExpression operator =>
    have hops : b.operands n = [0, 1] := by simp only [Board.operands, hk]
    simp only [Board.head?, hk] at hhead
    obtain ⟨op, hop, rfl⟩ := Option.map_eq_some_iff.1 hhead
    rw [hops] at hbuild hparts hvalues
    obtain rfl := Option.some.inj hbuild
    refine ⟨I.binary op (x 0) (x 1), ?_, ?_⟩
    · simp [eval, hparts 0, hparts 1]
    · apply HasValue.node [0, 1] x hvalues
      intro slot hslot
      simp [valueWith, hk, hop, hslot 0, hslot 1]
  | conditionalExpression =>
    have hops : b.operands n = [0, 1, 2] := by simp only [Board.operands, hk]
    simp only [Board.head?, hk] at hhead
    obtain rfl := Option.some.inj hhead
    rw [hops] at hbuild hparts hvalues
    obtain rfl := Option.some.inj hbuild
    refine ⟨I.conditional (x 0) (x 1) (x 2), ?_, ?_⟩
    · simp [eval, hparts 0, hparts 1, hparts 2]
    · apply HasValue.node [0, 1, 2] x hvalues
      intro slot hslot
      simp [valueWith, hk, hslot 0, hslot 1, hslot 2]
  | callExpression inputs output =>
    have hops : b.operands n = List.range' 1 (inputs.length - 1) := by
      simp only [Board.operands, hk]
    simp only [Board.head?, hk] at hhead
    obtain ⟨s, hs, rfl⟩ := Option.map_eq_some_iff.1 hhead
    rw [hops] at hbuild hparts hvalues
    obtain rfl := Option.some.inj hbuild
    apply h.eval_call hn hk (toOption_eq_some_iff.1 hs) hparts hvalues
  | elementAccess access => exact eval_access ⟨access, .inl hk⟩ hhead hbuild hparts hvalues
  | propertyAccess access => exact eval_access ⟨access, .inr hk⟩ hhead hbuild hparts hvalues
  | returnStatement => simp [Board.head?, hk] at hhead

/-- The expression of a node has the value of the node, when all bindings that it uses have been
declared. -/
theorem Tracks.eval_node (hr : r ∈ b.nodes) (h : I.Tracks ρ b r declared σ) (hn : b.Live r n)
    {e : Expr} (hwritten : b.WrittenAs n e) (hself : n.kind.isBinding = true → declared n)
    (huses : ∀ w, b.UsesIn n w → ∃ m, declared m ∧ m.id = w.producer) :
  ∃ v, I.eval σ e = some v ∧ I.HasValue ρ b n v
  := by
  induction hwritten with
  | @node n head e feed part hhead hfeeds _ hbuild ih =>
    have slots : ∀ i ∈ b.operands n, ∃ v, I.eval σ (part i) = some v ∧
        I.HasValue ρ b (feed i) v := by
      intro i hi
      have hholds := (Board.producer_eq_ok_iff.1 (hfeeds i hi)).1
      apply ih i hi (hn.step hholds)
      · intro hbinding
        obtain ⟨m, hm, hid⟩ := huses _ ⟨i, hi, .direct (hfeeds i hi) hbinding⟩
        rwa [← Board.eq_of_id_eq ((h.live m hm).mem hr) hholds.2 hid]
      · rintro w ⟨j, hj, huse⟩
        apply huses w ⟨i, hi, .inner (hfeeds i hi) hj huse⟩
    have : Nonempty V := ⟨I.literal (.string "")⟩
    choose! x hparts hvalues using slots
    apply h.eval_build hn hself hhead hbuild hparts
    intro i hi
    exact ⟨feed i, (Board.producer_eq_ok_iff.1 (hfeeds i hi)).1, hvalues i hi⟩

/-- The expression in a slot has the value of the node that is wired to the slot, when all bindings
that it uses have been declared. -/
theorem Tracks.eval_slot (hr : r ∈ b.nodes) (h : I.Tracks ρ b r declared σ) (hn : b.Live r n)
    {slot : Nat} {e : Expr} (hwritten : b.SlotWrittenAs n slot e)
    (huses : ∀ w, b.UsesAt n slot w → ∃ m, declared m ∧ m.id = w.producer) :
  ∃ p v, b.Holds n slot p ∧ I.eval σ e = some v ∧ I.HasValue ρ b p v
  := by
  obtain ⟨p, hp, hwritten⟩ := hwritten
  have hholds := (Board.producer_eq_ok_iff.1 hp).1
  have hself : p.kind.isBinding = true → declared p := by
    intro hbinding
    obtain ⟨m, hm, hid⟩ := huses _ (.direct hp hbinding)
    rwa [← Board.eq_of_id_eq ((h.live m hm).mem hr) hholds.2 hid]
  obtain ⟨v, hv, hpv⟩ := h.eval_node hr (hn.step hholds) hwritten hself (by
    rintro w ⟨i, hi, huse⟩
    apply huses w (.inner hp hi huse))
  exact ⟨p, v, hholds, hv, hpv⟩

/-! ## Statements -/

/-- The declaration of a binding gives its name the value of its node. -/
theorem Tracks.declare (hr : r ∈ b.nodes) (hnames : b.NamesApart r)
    (h : I.Tracks ρ b r declared σ) (hn : b.Live r n) {s : Stmt} (hs : b.Declares n s)
    (huses : ∀ w, b.UsesAt n 0 w → ∃ m, declared m ∧ m.id = w.producer) :
  ∃ σ', I.Tracks ρ b r (fun m => declared m ∨ m = n) σ' ∧ ∀ ss, I.run σ (s :: ss) = I.run σ' ss
  := by
  obtain ⟨x, type, init, hx, -, hinit, rfl⟩ := hs
  obtain ⟨p, v, hp, hv, hpv⟩ := h.eval_slot hr hn hinit huses
  have hnv : I.HasValue ρ b n v := by
    apply HasValue.node [0] fun _ => v
    · intro i hi
      rw [List.mem_singleton.1 hi]
      exact ⟨p, hp, hpv⟩
    · intro slot hslot
      rw [← hslot 0 (by simp)]
      unfold Kind.binding? at hx
      unfold valueWith
      split at hx <;> simp_all
  refine ⟨σ.bind x.name v, ?_, ?_⟩
  · constructor
    · intro m name hm hname
      rw [Environment.bind, if_neg (hnames.outer n m x name hn hm hx hname).symm]
      apply h.outer m name hm hname
    · intro m y hm hy
      by_cases hsame : y.name = x.name
      · have hmlive : b.Live r m := by
          rcases hm with hm | rfl
          · apply h.live m hm
          · exact hn
        obtain rfl := hnames.bindings m n y x hmlive hn hy hx hsame
        rw [Environment.bind, if_pos hsame]
        exact ⟨v, rfl, hnv⟩
      · rw [Environment.bind, if_neg hsame]
        rcases hm with hm | rfl
        · apply h.bound m y hm hy
        · rw [hx] at hy
          apply (hsame (congrArg Binding.name (Option.some.inj hy).symm)).elim
    · rintro m (hm | rfl)
      · apply h.live m hm
      · exact hn
  · intro ss
    rw [run, hv]
    rfl

/-- Declarations in order give the names of their bindings the values of their nodes. -/
theorem Tracks.declarations (hr : r ∈ b.nodes) (hnames : b.NamesApart r) {ns : List Node}
    {ds : List Stmt} (h : I.Tracks ρ b r declared σ) (hds : List.Forall₂ b.Declares ns ds)
    (hordered : b.Ordered declared ns) (hlive : ∀ n ∈ ns, b.Live r n) :
  ∃ σ', I.Tracks ρ b r (fun m => declared m ∨ m ∈ ns) σ' ∧
    ∀ ss, I.run σ (ds ++ ss) = I.run σ' ss
  := by
  induction hds generalizing σ declared with
  | nil =>
    refine ⟨σ, ?_, fun _ => rfl⟩
    simpa only [List.not_mem_nil, or_false] using h
  | @cons n s ns ds hs _ ih =>
    obtain ⟨hn, hlive⟩ := List.forall_mem_cons.1 hlive
    cases hordered with
    | cons huses hordered =>
      obtain ⟨σ₁, htracks, hrun⟩ := h.declare hr hnames hn hs huses
      obtain ⟨σ₂, htracks, hrun'⟩ := ih htracks hordered hlive
      refine ⟨σ₂, ?_, ?_⟩
      · simpa only [List.mem_cons, or_assoc] using htracks
      · intro ss
        rw [List.cons_append, hrun, hrun']

end Interpretation

namespace Board

open Interpretation

/-- Compilation preserves meaning: a function that compiles on a checked board has one return, and
if the live bindings have names of their own, then its statements return the value of the node that
is wired to the return, in every interpretation and every environment which gives values to the names
of the live parameters and functions. -/
theorem run_body_of_compileFunction {b : Board} {f : Node} {decl : Function}
    (hb : b.validate = .ok ()) (h : b.compileFunction f = .ok decl) :
  ∃ r, b.returnsOf f = [r] ∧ (b.NamesApart r → ∃ p, b.Holds r 0 p ∧
    ∀ {V : Type u} (I : Interpretation V) (ρ : Environment V), Provides ρ b r →
      ∃ v, I.run ρ decl.body = some v ∧ ∀ v', I.HasValue ρ b p v' ↔ v' = v)
  := by
  obtain ⟨_, _, _, r, _, _, hret, _, hbody, _⟩ := compileFunction_eq_ok_iff.1 h
  obtain ⟨hr, hreturn⟩ := returnsOf_spec hret
  obtain ⟨-, ns, ds, value, hss, hvalue, hdeclared⟩ := body_ok hr hreturn hbody
  refine ⟨r, hret, fun hnames => ?_⟩
  obtain ⟨p, hp, hwritten⟩ := hvalue
  have hvalue : b.SlotWrittenAs r 0 value := ⟨p, hp, hwritten⟩
  refine ⟨p, (producer_eq_ok_iff.1 hp).1, ?_⟩
  intro V I ρ hρ
  have hordered := hdeclared.ordered (linked_of_validate hb) hr hreturn
  have hlive : ∀ n ∈ ns, b.Live r n := fun n hn => ((hdeclared.mem_iff n).1 hn).1
  obtain ⟨σ, htracks, hrun⟩ :=
    hρ.tracks.declarations (I := I) hr hnames hdeclared.declares hordered hlive
  -- Every binding that the return uses is live, and so it has been declared.
  have huses : ∀ w, b.UsesAt r 0 w → ∃ m, (False ∨ m ∈ ns) ∧ m.id = w.producer := by
    intro w hw
    obtain ⟨c, q, hc, -, hq, hproducer, hbinding⟩ := hw.spec
    refine ⟨q, .inr ((hdeclared.mem_iff q).2 ⟨?_, hbinding, ?_⟩), hproducer.symm⟩
    · apply (Live.inner .refl hc).step hq
    · rintro rfl
      rw [Kind.not_isBinding_of_isReturn hreturn] at hbinding
      cases hbinding
  obtain ⟨q, v, hq, hv, hqv⟩ := htracks.eval_slot hr .refl hvalue huses
  obtain rfl := (producer_eq_ok_iff.1 hp).1.unique hq
  refine ⟨v, ?_, ?_⟩
  · rw [hss, hrun]
    exact hv
  · intro v'
    constructor
    · intro h'
      apply h'.unique hqv
    · rintro rfl
      exact hqv

/-- A board with the function `f(x)` that returns `v * v`, where `v` names `x + x`. -/
def squareOfDouble : Board where
  nodes := [
    ⟨⟨0⟩, .ofNat 0, .ofNat 0, .functionDeclaration "f" (.ofNat 16) (.ofNat 8)⟩,
    ⟨⟨1⟩, .ofNat 0, .ofNat 0, .parameter "x" "number" false [⟨2⟩, ⟨2⟩]⟩,
    ⟨⟨2⟩, .ofNat 0, .ofNat 0, .binaryExpression "+" (some ⟨1⟩) (some ⟨1⟩) (some ⟨3⟩)⟩,
    ⟨⟨3⟩, .ofNat 0, .ofNat 0, .variableStatement ⟨"v", "infer", false, some ⟨2⟩, [⟨4⟩, ⟨4⟩]⟩⟩,
    ⟨⟨4⟩, .ofNat 0, .ofNat 0, .binaryExpression "*" (some ⟨3⟩) (some ⟨3⟩) (some ⟨5⟩)⟩,
    ⟨⟨5⟩, .ofNat 0, .ofNat 0, .returnStatement "infer" false (some ⟨4⟩)⟩]
  nextId := 6
  distinct := by decide

/-- The node of the function. -/
def squareOfDoubleFunction : Node :=
  ⟨⟨0⟩, .ofNat 0, .ofNat 0, .functionDeclaration "f" (.ofNat 16) (.ofNat 8)⟩

/-- What the function compiles to. -/
def squareOfDoubleCompiled : Function where
  name := "f"
  params := [⟨"x", ⟨.number, false⟩⟩]
  returnType := none
  body := [.const "v" none (.binary (.ident "x") .add (.ident "x")),
    .ret (.binary (.ident "v") .mul (.ident "v"))]

/-- Sums and products of integers; everything else is zero. -/
def sumsAndProducts : Interpretation Int where
  literal _ := 0
  binary
    | .add, x, y => x + y
    | .mul, x, y => x * y
    | _, _, _ => 0
  conditional _ _ _ := 0
  call _ _ := 0
  member _ _ := 0
  index _ _ := 0

/-- The board compiles. -/
theorem compileFunction_squareOfDouble :
  squareOfDouble.compileFunction squareOfDoubleFunction = .ok squareOfDoubleCompiled
  := by
  apply compileFunction_eq_ok_iff.2
  refine ⟨"f", .ofNat 16, .ofNat 8,
    ⟨⟨5⟩, .ofNat 0, .ofNat 0, .returnStatement "infer" false (some ⟨4⟩)⟩, rfl, ?_, ?_, rfl, rfl, rfl⟩
  · show ((List.mergeSort [_] _).filterMap _).mapM id = _
    rw [List.mergeSort_singleton]
    rfl
  · decide

/-- Its binding has a name of its own. -/
theorem namesApart_squareOfDouble {r : Node} (hr : r ∈ squareOfDouble.nodes) :
  squareOfDouble.NamesApart r
  := by
  apply namesApart_of_nodes hr
  · decide
  · decide

/-- All names have the value `3`, except for the name of the binding. -/
def threes : Environment Int :=
  fun s => if s = "v" then none else some 3

/-- With `3` for `x` the function returns `36`, the value of the node that is wired to its return. -/
theorem run_squareOfDouble :
  ∃ r p, squareOfDouble.returnsOf squareOfDoubleFunction = [r] ∧ squareOfDouble.Holds r 0 p ∧
    sumsAndProducts.run threes squareOfDoubleCompiled.body = some 36 ∧
    ∀ v, sumsAndProducts.HasValue threes squareOfDouble p v ↔ v = 36
  := by
  obtain ⟨r, hret, h⟩ := run_body_of_compileFunction (by decide) compileFunction_squareOfDouble
  have hr := (returnsOf_spec hret).1
  obtain ⟨p, hp, h⟩ := h (namesApart_squareOfDouble hr)
  have hnames : ∀ n ∈ squareOfDouble.nodes, ∀ name ∈ n.kind.outerName?, (threes name).isSome := by
    decide
  have hrun : sumsAndProducts.run threes squareOfDoubleCompiled.body = some 36 := rfl
  obtain ⟨v, hv, hvalue⟩ := h sumsAndProducts threes fun n name hn hname =>
    hnames n (hn.mem hr) name hname
  rw [hrun] at hv
  obtain rfl := Option.some.inj hv
  exact ⟨r, p, hret, hp, hrun, hvalue⟩

end Board

end Patchboard
