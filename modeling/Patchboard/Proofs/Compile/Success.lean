import Patchboard.Proofs.Compile.Functions
import Patchboard.Proofs.Compile.Stalling

/-!
# When a function compiles

A function of a checked board compiles exactly when its types can be declared and what its return
needs is complete, without cycles and not nested too deep. In one direction every live node is written
or named by what is written, so that nothing incomplete slips through, and the order of the
declarations leaves no room for a cycle. In the other direction every slot can be written, and without
cycles the declarations cannot get stuck.
-/

namespace Patchboard

open Relation (ReflTransGen TransGen)

/-- The token of the type of a node. -/
def Kind.typeToken? : Kind → Option String
  | parameter _ type _ _ => some type
  | identifier binding => some binding.type
  | variableStatement binding => some binding.type
  | returnStatement type _ _ => some type
  | _ => none

namespace Board

variable {b : Board} {r n p c : Node} {function : NodeId}

/-! ## Nodes that are complete with all that they hold -/

/-- A root is whole when it fits its kind and its slot is written. -/
theorem whole_of_slotWrittenAs (hroot : n.kind.isRoot = true) (hfits : b.Fits n) {e : Expr}
    (h : b.SlotWrittenAs n 0 e) :
  b.Whole n
  := by
  obtain ⟨p, hp, hwritten⟩ := h
  have hholds := (producer_eq_ok_iff.1 hp).1
  have hzero : ∀ slot < n.kind.inputs.length, slot = 0 := by
    intro slot hslot
    rwa [Kind.length_inputs_of_isRoot hroot, Nat.lt_one_iff] at hslot
  constructor
  · constructor
    · intro slot hslot
      rw [hzero slot hslot]
      exact ⟨p, hholds⟩
    · exact hfits
  · intro slot q hq
    rw [hzero slot hq.slot_lt] at hq
    rw [hq.unique hholds]
    exact ⟨e, hwritten⟩

/-- A binding that has been declared is whole. -/
theorem Declares.whole {s : Stmt} (h : b.Declares n s) :
  b.Whole n
  := by
  obtain ⟨x, type, init, hx, htype, hinit, -⟩ := h
  have hroot := Kind.isRoot_of_isBinding (Kind.isBinding_of_binding? hx)
  apply whole_of_slotWrittenAs hroot _ hinit
  have htoken := (ValueType.isOk_declared_iff n.id x.type x.array).1 ⟨type, htype⟩
  unfold Kind.binding? at hx
  unfold Fits
  split at hx
  · next hk =>
    rw [hk, Option.some.inj hx]
    exact htoken
  · next hk =>
    rw [hk, Option.some.inj hx]
    exact htoken
  · cases hx

/-- Everything live is whole when the return and all live bindings are. -/
theorem whole_of_live (hr : b.Whole r)
    (hbindings : ∀ n, b.Live r n → n.kind.isBinding = true → b.Whole n) (hn : b.Live r n) :
  b.Whole n
  := by
  induction hn with
  | refl => exact hr
  | @tail d n hd hdn ih =>
    obtain ⟨slot, hslot⟩ := hdn
    have hwritable := ih.2 slot n hslot
    cases hbinding : n.kind.isBinding with
    | true => apply hbindings n (Live.step hd hslot) hbinding
    | false =>
      apply (writable_iff_whole (hwritable.not_isRoot hbinding)).1 hwritable

/-! ## Compiled functions have no cycles -/

/-- Every way down from a node comes to an end. -/
def Founded (b : Board) : Node → Prop :=
  Acc fun p n => b.Needs n p

/-- A node whose every way down comes to an end does not lead to itself. -/
theorem Founded.not_transGen (h : b.Founded n) :
  ¬ TransGen b.Needs n n
  := by
  induction h with
  | intro n _ ih =>
    intro hcycle
    obtain ⟨p, hp, hback⟩ := TransGen.head'_iff.1 hcycle
    apply ih p hp
    apply TransGen.tail' hback hp

/-- A node without slots leads nowhere. -/
theorem founded_of_inputs (h : n.kind.inputs = []) :
  b.Founded n
  := by
  constructor
  rintro p ⟨slot, hslot⟩
  have := hslot.slot_lt
  rw [h] at this
  cases this

/-- The way down from a reference ends at a function. -/
theorem founded_of_isReference (hcomplete : b.Complete n) (h : n.kind.isReference = true) :
  b.Founded n
  := by
  constructor
  rintro p ⟨slot, hslot⟩
  apply founded_of_inputs
  apply Kind.inputs_of_isFunction
  apply isFunction_of_isReference hcomplete h hslot

/-- Every way down from a node that is written comes to an end, if this is so for the bindings that
it uses. -/
theorem WrittenAs.founded {e : Expr} (h : b.WrittenAs n e)
    (hself : n.kind.isBinding = true → b.Founded n)
    (huses : ∀ w, b.UsesIn n w → ∀ m ∈ b.nodes, m.id = w.producer → b.Founded m) :
  b.Founded n
  := by
  induction h with
  | @node n head e feed part hhead hfeeds hparts hbuild ih =>
    have hwritable : b.Writable n := ⟨e, .node feed part hhead hfeeds hparts hbuild⟩
    cases hbinding : n.kind.isBinding with
    | true => apply hself hbinding
    | false =>
      have hroot := hwritable.not_isRoot hbinding
      obtain ⟨hcomplete, hheld⟩ := (writable_iff_whole hroot).1 hwritable
      constructor
      rintro p ⟨slot, hp⟩
      by_cases hinputs : p.kind.inputs = []
      · apply founded_of_inputs hinputs
      · cases href : p.kind.isReference with
        | true =>
          have hproot : p.kind.isRoot = false := by
            cases hk : p.kind <;> first | rfl | simp [hk, Kind.isReference] at href
          apply founded_of_isReference _ href
          apply ((writable_iff_whole hproot).1 (hheld slot p hp)).1
        | false =>
          have hslot := mem_operands hcomplete hroot hp hinputs href
          have hfeed := hfeeds slot hslot
          obtain rfl := producer_unique hfeed hp
          apply ih slot hslot
          · intro hpbinding
            apply huses _ ⟨slot, hslot, .direct hfeed hpbinding⟩ _ hp.2 rfl
          · rintro w ⟨slot', hslot', huse⟩
            apply huses w ⟨slot, hslot, .inner hfeed hslot' huse⟩

/-- Every way down from a root comes to an end, if this is so for the bindings that it uses. -/
theorem SlotWrittenAs.founded {e : Expr} (hroot : n.kind.isRoot = true)
    (h : b.SlotWrittenAs n 0 e)
    (huses : ∀ w, b.UsesAt n 0 w → ∀ m ∈ b.nodes, m.id = w.producer → b.Founded m) :
  b.Founded n
  := by
  obtain ⟨q, hq, hwritten⟩ := h
  have hholds := (producer_eq_ok_iff.1 hq).1
  constructor
  rintro p ⟨slot, hp⟩
  have hslot := hp.slot_lt
  rw [Kind.length_inputs_of_isRoot hroot, Nat.lt_one_iff] at hslot
  rw [hslot] at hp
  rw [hp.unique hholds]
  apply hwritten.founded
  · intro hbinding
    apply huses _ (.direct hq hbinding) q hholds.2 rfl
  · rintro w ⟨slot', hslot', huse⟩
    apply huses w (.inner hq hslot' huse)

/-- Every way down from bindings that are declared in order comes to an end. -/
theorem Ordered.founded {declared : Node → Prop} {ns : List Node} (h : b.Ordered declared ns)
    {ds : List Stmt} (hds : List.Forall₂ b.Declares ns ds) (hmem : ∀ n, declared n → n ∈ b.nodes)
    (hns : ∀ n ∈ ns, n ∈ b.nodes) (hdeclared : ∀ n, declared n → b.Founded n) :
  ∀ n ∈ ns, b.Founded n
  := by
  induction hds generalizing declared with
  | nil => simp
  | @cons n s ns ds hs _ ih =>
    obtain ⟨hn, hns⟩ := List.forall_mem_cons.1 hns
    cases h with
    | cons huses hrest =>
      obtain ⟨x, type, init, hx, -, hinit, -⟩ := hs
      have hroot := Kind.isRoot_of_isBinding (Kind.isBinding_of_binding? hx)
      have hfounded : b.Founded n := by
        apply hinit.founded hroot
        intro w hw m hm hid
        obtain ⟨m', hm', hid'⟩ := huses w hw
        rw [eq_of_id_eq hm (hmem m' hm') (hid.trans hid'.symm)]
        apply hdeclared m' hm'
      rw [List.forall_mem_cons]
      use hfounded
      apply ih hrest _ hns
      · rintro m (hm | rfl)
        · apply hdeclared m hm
        · exact hfounded
      · rintro m (hm | rfl)
        · apply hmem m hm
        · exact hn

/-- Nothing below a node from which every way down comes to an end lies on a cycle. -/
theorem Founded.live (h : b.Founded r) (hn : b.Live r n) :
  b.Founded n
  := by
  induction hn with
  | refl => exact h
  | tail _ hneeds ih => exact ih.inv hneeds

/-! ## The declarations do not get stuck -/

/-- What a return needs is complete and without cycles. -/
structure Sound (b : Board) (r : Node) : Prop where
  linked : b.Linked
  mem : r ∈ b.nodes
  isReturn : r.kind.isReturn = true
  complete : ∀ n, b.Live r n → b.Complete n
  acyclic : ∀ n, b.Live r n → ¬ TransGen b.Needs n n

/-- Live nodes are finite in number. -/
theorem finite_live (hr : r ∈ b.nodes) :
  Finite {n // b.Live r n}
  := by
  apply Set.Finite.subset (List.finite_toSet b.nodes)
  intro n hn
  apply Live.mem hr hn

/-- On a live part without cycles every way down comes to an end. -/
theorem Sound.wellFounded (h : b.Sound r) :
  WellFounded fun p n : {n // b.Live r n} => TransGen b.Needs n.1 p.1
  := by
  have := finite_live h.mem
  have htrans : IsTrans {n // b.Live r n} fun p n => TransGen b.Needs n.1 p.1 :=
    ⟨fun _ _ _ h h' => h'.trans h⟩
  have hirrefl : Std.Irrefl fun p n : {n // b.Live r n} => TransGen b.Needs n.1 p.1 :=
    ⟨fun n => h.acyclic n.1 n.2⟩
  apply Finite.wellFounded_of_trans_of_irrefl

/-- On a complete live part without cycles everything but the return can be written. -/
theorem Sound.writable (h : b.Sound r) (hn : b.Live r n) (hret : n.kind.isReturn = false) :
  b.Writable n
  := by
  suffices ∀ n : {n // b.Live r n}, n.1.kind.isReturn = false → b.Writable n.1 from
    this ⟨n, hn⟩ hret
  intro n
  induction n using h.wellFounded.induction with
  | _ n ih =>
    obtain ⟨n, hn⟩ := n
    intro hret
    cases hbinding : n.kind.isBinding with
    | true =>
      rw [writable_iff, operands_of_isBinding hbinding]
      rw [head?]
      cases hk : n.kind <;> simp [hk, Kind.isBinding] at hbinding ⊢
    | false =>
      apply (writable_iff_complete hbinding hret).2
      use h.complete n hn
      intro slot p hp
      apply ih ⟨p, hn.step hp⟩ (.single ⟨slot, hp⟩)
      apply h.linked.not_isReturn (hn.mem h.mem) ⟨slot, hp⟩

/-- On a complete live part without cycles every slot has its producer. -/
theorem Sound.producer (h : b.Sound r) (hn : b.Live r n) {slot : Nat} (hp : b.Holds n slot p) :
  b.producer n slot = .ok p
  := by
  apply Writable.producer _ hp
  apply h.writable (hn.step hp)
  apply h.linked.not_isReturn (hn.mem h.mem) ⟨slot, hp⟩

/-- As long as there is something to declare, something is ready to be declared. -/
theorem Sound.exists_ready (hsound : b.Sound r) {done : Node → Prop} {u : Uses}
    (h : b.Progress r done u) (hdone : done r)
    (hwritten : b.RootsWritten done)
    (hne : u.undeclared ≠ []) :
  ∃ id, u.ready? = some id
  := by
  cases hready : u.ready? with
  | some id => exact ⟨id, rfl⟩
  | none =>
    obtain ⟨id, hid⟩ := List.exists_mem_of_ne_nil _ hne
    obtain ⟨q, hq, -, rfl⟩ := h.live id hid
    obtain ⟨t, ht, -, hloop, -⟩ := h.exists_cycle hsound.mem hdone hwritten hready hq hid
    apply (hsound.acyclic t ht (transGen_of_needsAmong hloop)).elim

/-- On a complete live part without cycles all declarations succeed, when their slots can be
written. -/
theorem Sound.run_declarations (hsound : b.Sound r)
    (hdeclares : ∀ n, b.Live r n → n.kind.isBinding = true → ∃ s, b.Declares n s)
    (hnests : ∀ n, b.Live r n → n.kind.isBinding = true → b.SlotNests n 0)
    {count : Nat} {done : Node → Prop} {u : Uses} (h : b.Progress r done u) (hdone : done r)
    (hwritten : b.RootsWritten done)
    (hcount : u.undeclared.length = count) :
  ∃ res, (b.declarations function count : Lowering (List Stmt)).run u = .ok res
  := by
  induction count generalizing u done with
  | zero => exact ⟨([], u), rfl⟩
  | succ count ih =>
    have hne : u.undeclared ≠ [] := by
      intro hnil
      rw [hnil] at hcount
      cases hcount
    obtain ⟨id, hready⟩ := hsound.exists_ready h hdone hwritten hne
    obtain ⟨hmem, -⟩ := h.counts.ready?_eq_some hready
    obtain ⟨n, hn, hbinding, rfl⟩ := h.live id hmem
    obtain ⟨s, hs⟩ := hdeclares n hn hbinding
    obtain ⟨last, u₁, hlast⟩ : ∃ s' u',
        (b.declaration function n.id : Lowering Stmt).run (u.declare n.id) = .ok (s', u') :=
      run_declaration_isOk (hn.mem hsound.mem) hs (hnests n hn hbinding) (u.declare n.id)
    obtain ⟨-, -, hspends⟩ := run_declaration_ok (hn.mem hsound.mem) hlast
    have hlen : u₁.undeclared.length = count := by
      have := Uses.length_undeclared_declare h.nodup hmem
      rw [hspends.undeclared]
      omega
    obtain ⟨⟨rest, u₂⟩, hrest⟩ :=
      ih (h.step hsound.mem hn hspends) (.inl hdone) (hwritten.declare hs) hlen
    exact ⟨(rest ++ [last], u₂),
      run_declarations_succ_eq_ok_iff.2 ⟨n.id, last, u₁, rest, hready, hlast, hrest, rfl⟩⟩

/-! ## The condition -/

/-- A function has a return `r` such that it can be compiled. -/
structure Compilable (b : Board) (f r : Node) : Prop where
  /-- The return is the only one in the scope of the function. -/
  returns : b.returnsOf f = [r]
  returnType : ∀ token, r.kind.typeToken? = some token → token ∈ declarableTokens
  params : ∀ p ∈ b.scope f, p.kind.isParameter = true →
    ∀ token, p.kind.typeToken? = some token → token ∈ typeTokens
  complete : ∀ n, b.Live r n → b.Complete n
  acyclic : ∀ n, b.Live r n → ¬ TransGen b.Needs n n
  /-- No more nodes are written within each other than may be. -/
  nests : b.SlotNests r 0 ∧ ∀ n, b.Live r n → n.kind.isBinding = true → b.SlotNests n 0

/-- The parameters of a function compile when their types may be given to parameters. -/
theorem isOk_paramsOf_iff (b : Board) (f : Node) :
  (∃ params, b.paramsOf f = .ok params)
    ↔ ∀ p ∈ b.scope f, p.kind.isParameter = true →
        ∀ token, p.kind.typeToken? = some token → token ∈ typeTokens
  := by
  rw [paramsOf, isOk_mapM_id_iff]
  have hparam : ∀ p : Node, p.kind.isParameter = true →
      ((∀ x, p.param? = some x → ∃ y, x = .ok y)
        ↔ ∀ token, p.kind.typeToken? = some token → token ∈ typeTokens) := by
    intro p hp
    cases hk : p.kind with
    | parameter name type array outputs =>
      simp only [Node.param?, hk, Kind.typeToken?, Option.some.injEq, forall_eq',
        ← ValueType.isOk_required_iff p.id type array]
      cases ValueType.required p.id type array <;> simp [Except.map]
    | _ => simp [hk, Kind.isParameter] at hp
  simp only [parametersOf, List.mem_filterMap, List.mem_mergeSort, List.mem_filter]
  constructor
  · intro h p hp hparameter
    apply (hparam p hparameter).1
    intro x hx
    apply h x ⟨p, ⟨hp, hparameter⟩, hx⟩
  · rintro h x ⟨p, ⟨hp, hparameter⟩, hx⟩
    apply (hparam p hparameter).2 (h p hp hparameter) x hx

/-- The type of a return compiles when it may be declared. -/
theorem isOk_returnType_iff (r : Node) (hr : r.kind.isReturn = true) :
  (∃ type, r.returnType = .ok type)
    ↔ ∀ token, r.kind.typeToken? = some token → token ∈ declarableTokens
  := by
  cases hk : r.kind with
  | returnStatement type array value =>
    simp only [Node.returnType, hk, Kind.typeToken?, Option.some.injEq, forall_eq',
      ValueType.isOk_declared_iff]
  | _ => simp [hk, Kind.isReturn] at hr

/-- The statements of a function can be written when what its return needs is complete, without
cycles and not nested too deep. -/
theorem isOk_body_iff (hb : b.Linked) (hr : r ∈ b.nodes) (hreturn : r.kind.isReturn = true) :
  (∃ ss, b.body function r = .ok ss)
    ↔ (∀ n, b.Live r n → b.Complete n) ∧ (∀ n, b.Live r n → ¬ TransGen b.Needs n n) ∧
      b.SlotNests r 0 ∧ ∀ n, b.Live r n → n.kind.isBinding = true → b.SlotNests n 0
  := by
  have hroot := Kind.isRoot_of_isReturn hreturn
  constructor
  · rintro ⟨ss, h⟩
    obtain ⟨hnests, ns, ds, value, -, hvalue, hdeclared⟩ := body_ok hr hreturn h
    have hmem : ∀ n, b.Live r n → n.kind.isBinding = true → n ∈ ns :=
      fun n hn hbinding => (hdeclared.mem_iff_of_isReturn hreturn n).2 ⟨hn, hbinding⟩
    have hwhole : ∀ n, b.Live r n → b.Whole n := by
      intro n hn
      apply whole_of_live _ _ hn
      · apply whole_of_slotWrittenAs hroot _ hvalue
        rw [Fits]
        cases hk : r.kind <;> simp [hk, Kind.isReturn] at hreturn ⊢
      · intro m hm hbinding
        obtain ⟨s, hs⟩ := hdeclared.exists_declares (hmem m hm hbinding)
        apply hs.whole
    refine ⟨fun n hn => (hwhole n hn).1, ?_, hnests, ?_⟩
    · intro n hn
      apply Founded.not_transGen
      apply Founded.live _ hn
      apply hvalue.founded hroot
      intro w hw m hm hid
      have hns : ∀ n ∈ ns, n ∈ b.nodes := fun n hn => ((hdeclared.mem_iff n).1 hn).1.mem hr
      apply (hdeclared.ordered hb hr hreturn).founded hdeclared.declares
      · intro n hn
        exact hn.elim
      · exact hns
      · intro n hn
        exact hn.elim
      · obtain ⟨c, q, hc, -, hq, hproduces, hbinding⟩ := hw.spec
        rw [eq_of_id_eq hm hq.2 (hid.trans hproduces)]
        apply hmem q ((Live.inner .refl hc).step hq) hbinding
    · intro n hn hbinding
      apply hdeclared.nests n (hmem n hn hbinding)
  · rintro ⟨hcomplete, hacyclic, hnests, hnestsBinding⟩
    have hsound : b.Sound r := ⟨hb, hr, hreturn, hcomplete, hacyclic⟩
    have hslot : ∀ n, b.Live r n → n.kind.isRoot = true → ∃ e, b.SlotWrittenAs n 0 e := by
      intro n hn hnroot
      obtain ⟨p, hp⟩ := (hcomplete n hn).filled 0 (by
        rw [Kind.length_inputs_of_isRoot hnroot]
        exact Nat.zero_lt_one)
      obtain ⟨e, he⟩ := hsound.writable (hn.step hp) (hb.not_isReturn (hn.mem hr) ⟨0, hp⟩)
      exact ⟨e, p, hsound.producer hn hp, he⟩
    have hdeclares : ∀ n, b.Live r n → n.kind.isBinding = true → ∃ s, b.Declares n s := by
      intro n hn hbinding
      obtain ⟨x, hx⟩ := Option.isSome_iff_exists.1 (n.kind.isSome_binding?.trans hbinding)
      obtain ⟨init, hinit⟩ := hslot n hn (Kind.isRoot_of_isBinding hbinding)
      have hfits := (hcomplete n hn).fits
      have htoken : x.type ∈ declarableTokens := by
        rw [Fits] at hfits
        cases hk : n.kind <;> simp_all [Kind.binding?]
      obtain ⟨type, htype⟩ := (ValueType.isOk_declared_iff n.id x.type x.array).2 htoken
      exact ⟨.const x.name type init, x, type, init, hx, htype, hinit, rfl⟩
    obtain ⟨e, he⟩ := hslot r .refl hroot
    obtain ⟨value, u₁, hvalue⟩ : ∃ value u₁,
        (b.input function r 0 : Lowering Expr).run ⟨b.uses r.id, []⟩ = .ok (value, u₁) :=
      run_input_isOk he hnests _
    obtain ⟨-, -, hspends⟩ := run_input_ok hvalue
    obtain ⟨hprogress, hlen⟩ := Progress.of_return hr hreturn hspends
    obtain ⟨⟨ds, u₂⟩, hds⟩ : ∃ res,
        (b.declarations function (b.uses r.id).length : Lowering (List Stmt)).run u₁ = .ok res :=
      hsound.run_declarations hdeclares hnestsBinding hprogress rfl
        (rootsWritten_return hreturn he) hlen
    use ds ++ [.ret value]
    refine (body_eq_ok_iff hr _).2 ⟨?_, ?_, value, u₁, ds, u₂, hvalue, hds, rfl⟩
    · intro n hn slot id hid
      obtain ⟨p, hp⟩ := (hcomplete n hn).filled slot (Kind.lt_of_input hid)
      refine ⟨p, hp, ?_⟩
      rw [← Option.some_inj, ← hp.1, hid]
    · intro n hn hcycle
      apply hacyclic n hn
      apply hcycle.lift id fun _ _ h => h.1

/-- On a checked board a function compiles exactly when it can be compiled: it has one return, types
that can be declared, and what the return needs is complete, without cycles and not nested too
deep. -/
theorem isOk_compileFunction_iff {b : Board} {f : Node} (hb : b.validate = .ok ())
    (hf : f.kind.isFunction = true) :
  (∃ decl, b.compileFunction f = .ok decl) ↔ ∃ r, b.Compilable f r
  := by
  have hlinked := linked_of_validate hb
  simp only [compileFunction_eq_ok_iff]
  constructor
  · rintro ⟨decl, _, _, _, r, -, hparams, hret, htype, hbody, -⟩
    obtain ⟨hr, hreturn⟩ := returnsOf_spec hret
    obtain ⟨hcomplete, hacyclic, hnests⟩ := (isOk_body_iff hlinked hr hreturn).1 ⟨_, hbody⟩
    use r
    constructor
    · exact hret
    · apply (isOk_returnType_iff r hreturn).1 ⟨_, htype⟩
    · apply (isOk_paramsOf_iff b f).1 ⟨_, hparams⟩
    · exact hcomplete
    · exact hacyclic
    · exact hnests
  · rintro ⟨r, h⟩
    obtain ⟨hr, hreturn⟩ := returnsOf_spec h.returns
    obtain ⟨params, hparams⟩ := (isOk_paramsOf_iff b f).2 h.params
    obtain ⟨type, htype⟩ := (isOk_returnType_iff r hreturn).2 h.returnType
    obtain ⟨ss, hbody⟩ : ∃ ss, b.body f.id r = .ok ss :=
      (isOk_body_iff hlinked hr hreturn).2 ⟨h.complete, h.acyclic, h.nests⟩
    cases hk : f.kind with
    | functionDeclaration name width height =>
      exact ⟨⟨name, params, type, ss⟩, name, width, height, r, rfl, hparams, h.returns, htype, hbody,
        rfl⟩
    | _ => simp [hk, Kind.isFunction] at hf

/-- A board with a function whose return needs two variables that name each other. -/
def circle : Board where
  nodes := [
    ⟨⟨0⟩, .ofNat 0, .ofNat 0, .functionDeclaration "f" (.ofNat 16) (.ofNat 8)⟩,
    ⟨⟨1⟩, .ofNat 0, .ofNat 0, .variableStatement ⟨"v", "infer", false, some ⟨2⟩, [⟨2⟩, ⟨3⟩]⟩⟩,
    ⟨⟨2⟩, .ofNat 0, .ofNat 0, .variableStatement ⟨"w", "infer", false, some ⟨1⟩, [⟨1⟩]⟩⟩,
    ⟨⟨3⟩, .ofNat 0, .ofNat 0, .returnStatement "infer" false (some ⟨1⟩)⟩]
  nextId := 4
  distinct := by decide

/-- It passes the check, but the function does not compile. -/
theorem not_isOk_compileFunction_circle :
  circle.validate = .ok () ∧ ∀ f ∈ circle.functions, ¬ ∃ decl, circle.compileFunction f = .ok decl
  := by
  have hvalid : circle.validate = .ok () := by decide
  use hvalid
  intro f hf
  rw [isOk_compileFunction_iff hvalid (List.mem_filter.1 hf).2]
  rintro ⟨r, h⟩
  have hr : r = ⟨⟨3⟩, .ofNat 0, .ofNat 0, .returnStatement "infer" false (some ⟨1⟩)⟩ := by
    have hone : ∀ n ∈ circle.nodes, n.kind.isReturn = true →
        n = ⟨⟨3⟩, .ofNat 0, .ofNat 0, .returnStatement "infer" false (some ⟨1⟩)⟩ := by decide
    obtain ⟨hmem, hreturn⟩ := returnsOf_spec h.returns
    apply hone r hmem hreturn
  let v : Node :=
    ⟨⟨1⟩, .ofNat 0, .ofNat 0, .variableStatement ⟨"v", "infer", false, some ⟨2⟩, [⟨2⟩, ⟨3⟩]⟩⟩
  let w : Node :=
    ⟨⟨2⟩, .ofNat 0, .ofNat 0, .variableStatement ⟨"w", "infer", false, some ⟨1⟩, [⟨1⟩]⟩⟩
  have hv : circle.Holds r 0 v := by
    rw [hr]
    exact ⟨rfl, by decide⟩
  have hvw : circle.Holds v 0 w := ⟨rfl, by decide⟩
  have hwv : circle.Holds w 0 v := ⟨rfl, by decide⟩
  apply h.acyclic v (.single ⟨0, hv⟩)
  exact .tail (.single ⟨0, hvw⟩) ⟨0, hwv⟩

end Board

end Patchboard
