import Mathlib.Data.Fintype.Card
import Mathlib.Data.Set.Finite.List
import Mathlib.Order.WellFounded
import Patchboard.Proofs.Compile.Completeness
import Patchboard.Proofs.Compile.Ordering

/-!
# When the declarations get stuck

The declarations get stuck when no binding is ready, but some are still to be declared. Each of these
waits for a live use that has not been written. The use belongs to a root; had the root been written,
then so would have been the use. Hence the root is itself a binding that is still to be declared, and
it leads to the first one. Since there are finitely many bindings, some of them lead to themselves.
-/

namespace Patchboard

open Relation (ReflTransGen TransGen)

/-- In a finite set where every element comes after another one, every element comes after one that
comes after itself. -/
theorem exists_loop {α : Type} {rel : α → α → Prop} (htrans : ∀ x y z, rel x y → rel y z → rel x z)
    {s : Set α} (hs : s.Finite) (hprior : ∀ x ∈ s, ∃ y ∈ s, rel y x) {x : α} (hx : x ∈ s) :
  ∃ y ∈ s, rel y y ∧ rel y x
  := by
  by_contra hnone
  push Not at hnone
  -- Nothing before `x` comes after itself, so that some element before `x` is the first.
  let t := {y : α // y ∈ s ∧ rel y x}
  have : Finite t := (hs.subset fun y hy => hy.1).to_subtype
  have : IsTrans t fun y z => rel y.1 z.1 := ⟨fun _ _ _ => htrans _ _ _⟩
  have : Std.Irrefl fun y z : t => rel y.1 z.1 := ⟨fun y hy => hnone y.1 y.2.1 hy y.2.2⟩
  have hwf : WellFounded fun y z : t => rel y.1 z.1 := Finite.wellFounded_of_trans_of_irrefl _
  obtain ⟨y, hy, hyx⟩ := hprior x hx
  obtain ⟨m, -, hfirst⟩ := hwf.has_min Set.univ ⟨⟨y, hy, hyx⟩, trivial⟩
  obtain ⟨z, hz, hzm⟩ := hprior m.1 m.2.1
  exact hfirst ⟨z, hz, htrans _ _ _ hzm m.2.2⟩ trivial hzm

/-- A root has one slot. -/
theorem Kind.length_inputs_of_isRoot {k : Kind} (h : k.isRoot = true) :
  k.inputs.length = 1
  := by
  cases k <;> first | rfl | cases h

namespace Board

variable {b : Board} {r n p q c t : Node}

/-! ## Nodes that are complete with all that they hold -/

/-- The node is complete, and all that its slots hold can be written. -/
def Whole (b : Board) (n : Node) : Prop :=
  b.Complete n ∧ ∀ slot p, b.Holds n slot p → b.Writable p

/-- A node that is no root is whole exactly when it can be written. -/
theorem writable_iff_whole (hroot : n.kind.isRoot = false) :
  b.Writable n ↔ b.Whole n
  := by
  rw [Kind.isRoot, Bool.or_eq_false_iff] at hroot
  apply writable_iff_complete hroot.1 hroot.2

/-- What can be written is no return. -/
theorem Writable.not_isReturn (h : b.Writable n) :
  n.kind.isReturn = false
  := by
  rw [writable_iff] at h
  rw [head?] at h
  cases hk : n.kind <;> first | rfl | simp [hk] at h

/-- What can be written is no root, unless it is a binding. -/
theorem Writable.not_isRoot (h : b.Writable n) (hn : n.kind.isBinding = false) :
  n.kind.isRoot = false
  := by
  rw [Kind.isRoot, hn, h.not_isReturn]
  rfl

/-! ## Slots that are no operands -/

/-- What is held by a complete node that is no root, has slots itself and is no reference is an
operand. -/
theorem mem_operands (hcomplete : b.Complete n) (hroot : n.kind.isRoot = false) {slot : Nat}
    (hp : b.Holds n slot p) (hinputs : p.kind.inputs ≠ []) (href : p.kind.isReference = false) :
  slot ∈ b.operands n
  := by
  have hlt := hp.slot_lt
  have hfits := hcomplete.fits
  have hfun : p.kind.isFunction = false := by
    cases h : p.kind.isFunction with
    | false => rfl
    | true => exact (hinputs (Kind.inputs_of_isFunction h)).elim
  have access : (b.keyName? n).isSome = true → slot ≠ 1 := by
    rintro hkey rfl
    rw [keyName?, hp.1, Option.bind_some, get?_of_mem hp.2, Option.bind_some] at hkey
    rw [propertyName?] at hkey
    split at hkey
    · next hk => exact hinputs (by rw [hk]; rfl)
    · cases hkey
  rw [Fits] at hfits
  rw [operands]
  cases hk : n.kind with
  | functionReference =>
    rw [hk] at hfits hlt
    rw [Nat.lt_one_iff.1 hlt] at hp
    rw [hfits p hp] at hfun
    cases hfun
  | binaryExpression =>
    rw [hk] at hlt
    simp only [Kind.inputs, List.length_cons, List.length_nil] at hlt
    simp only [List.mem_cons, List.not_mem_nil]
    omega
  | conditionalExpression =>
    rw [hk] at hlt
    simp only [Kind.inputs, List.length_cons, List.length_nil] at hlt
    simp only [List.mem_cons, List.not_mem_nil]
    omega
  | callExpression inputs =>
    rw [hk] at hlt hfits
    have hne : slot ≠ 0 := by
      rintro rfl
      rcases hfits.2 p hp with h | h
      · rw [h] at hfun
        cases hfun
      · rw [h] at href
        cases href
    simp only [Kind.inputs] at hlt
    rw [List.mem_range'_1]
    omega
  | elementAccess =>
    rw [hk] at hlt
    simp only [Kind.inputs, List.length_cons, List.length_nil] at hlt
    dsimp only
    split
    · next hkey =>
      have := access hkey
      rw [List.mem_singleton]
      omega
    · simp only [List.mem_cons, List.not_mem_nil]
      omega
  | propertyAccess =>
    rw [hk] at hlt
    simp only [Kind.inputs, List.length_cons, List.length_nil] at hlt
    dsimp only
    split
    · next hkey =>
      have := access hkey
      rw [List.mem_singleton]
      omega
    · simp only [List.mem_cons, List.not_mem_nil]
      omega
  | identifier => simp [hk, Kind.isRoot, Kind.isBinding] at hroot
  | variableStatement => simp [hk, Kind.isRoot, Kind.isBinding] at hroot
  | returnStatement => simp [hk, Kind.isRoot, Kind.isReturn] at hroot
  | _ =>
    rw [hk] at hlt
    cases hlt

/-- What a complete reference holds is a function. -/
theorem isFunction_of_isReference (hcomplete : b.Complete n) (h : n.kind.isReference = true)
    {slot : Nat} (hp : b.Holds n slot p) :
  p.kind.isFunction = true
  := by
  have hfits := hcomplete.fits
  have hlt := hp.slot_lt
  rw [Fits] at hfits
  cases hk : n.kind with
  | functionReference =>
    rw [hk] at hfits hlt
    rw [Nat.lt_one_iff.1 hlt] at hp
    apply hfits p hp
  | _ => simp [hk, Kind.isReference] at h

/-! ## Roots use the wires within them -/

/-- A binding has a slot. -/
theorem inputs_ne_nil_of_isBinding (h : n.kind.isBinding = true) :
  n.kind.inputs ≠ []
  := by
  cases hk : n.kind <;> simp [hk, Kind.isBinding, Kind.inputs] at h ⊢

/-- Every live node is written within a root, if it is written at all. -/
theorem exists_root (hc : b.Live r c) :
  ∃ t, b.Live r t ∧ (t = r ∨ t.kind.isBinding = true) ∧ ReflTransGen b.Inner t c
  := by
  induction hc with
  | refl => exact ⟨r, .refl, .inl rfl, .refl⟩
  | @tail d c hd hdc ih =>
    cases hbinding : c.kind.isBinding with
    | true => exact ⟨c, hd.tail hdc, .inr hbinding, .refl⟩
    | false =>
      obtain ⟨t, ht, hroot, hpath⟩ := ih
      exact ⟨t, ht, hroot, hpath.tail ⟨hdc, hbinding⟩⟩

/-- A node within which a wire from a binding ends holds a node with slots. -/
theorem exists_holds_of_inner (hc : ReflTransGen b.Inner n c) {slot : Nat} (hq : b.Holds c slot q)
    (hbinding : q.kind.isBinding = true) :
  ∃ slot' p, b.Holds n slot' p ∧ p.kind.inputs ≠ []
  := by
  rcases ReflTransGen.cases_head hc with rfl | ⟨d, ⟨⟨slot', hd⟩, -⟩, hdc⟩
  · exact ⟨slot, q, hq, inputs_ne_nil_of_isBinding hbinding⟩
  · refine ⟨slot', d, hd, ?_⟩
    rcases ReflTransGen.cases_head hdc with rfl | ⟨e, ⟨⟨slot'', he⟩, -⟩, -⟩
    · apply inputs_ne_nil_of_input hq.1
    · apply inputs_ne_nil_of_input he.1

/-- A node that can be written, and holds a node with slots, is no reference. -/
theorem Writable.not_isReference (h : b.Writable n) {slot : Nat} (hp : b.Holds n slot p)
    (hinputs : p.kind.inputs ≠ []) :
  n.kind.isReference = false
  := by
  by_contra href
  rw [Bool.not_eq_false] at href
  have hroot : n.kind.isRoot = false := by
    cases hk : n.kind <;> first | rfl | simp [hk, Kind.isReference] at href
  apply hinputs
  apply Kind.inputs_of_isFunction
  apply isFunction_of_isReference ((writable_iff_whole hroot).1 h).1 href hp

/-- A node that can be written in place uses the wires from bindings that end within it. -/
theorem Writable.usesIn (h : b.Writable n) (hn : n.kind.isBinding = false)
    (hc : ReflTransGen b.Inner n c) {slot : Nat} (hq : b.Holds c slot q)
    (hbinding : q.kind.isBinding = true) :
  b.UsesIn n ⟨c.id, slot, q.id⟩
  := by
  induction hc using ReflTransGen.head_induction_on with
  | refl =>
    have href : q.kind.isReference = false := by
      cases hk : q.kind <;> simp [hk, Kind.isBinding, Kind.isReference] at hbinding ⊢
    obtain ⟨hcomplete, hheld⟩ := (writable_iff_whole (h.not_isRoot hn)).1 h
    refine ⟨slot, ?_, .direct ((hheld slot q hq).producer hq) hbinding⟩
    apply mem_operands hcomplete (h.not_isRoot hn) hq (inputs_ne_nil_of_isBinding hbinding) href
  | @head n d hnd hdc ih =>
    obtain ⟨⟨slot', hd⟩, hdb⟩ := hnd
    obtain ⟨hcomplete, hheld⟩ := (writable_iff_whole (h.not_isRoot hn)).1 h
    have hwritable := hheld slot' d hd
    obtain ⟨_, p, hp, hinputs⟩ := exists_holds_of_inner hdc hq hbinding
    obtain ⟨slot'', hoperand, huse⟩ := ih hwritable hdb
    refine ⟨slot', ?_, .inner (hwritable.producer hd) hoperand huse⟩
    apply mem_operands hcomplete (h.not_isRoot hn) hd (inputs_ne_nil_of_input hp.1)
    apply hwritable.not_isReference hp hinputs

/-- A root whose slot is written uses the wires from bindings that end within it. -/
theorem SlotWrittenAs.usesAt {e : Expr} (h : b.SlotWrittenAs t 0 e) (hroot : t.kind.isRoot = true)
    (hc : ReflTransGen b.Inner t c) {slot : Nat} (hq : b.Holds c slot q)
    (hbinding : q.kind.isBinding = true) :
  b.UsesAt t 0 ⟨c.id, slot, q.id⟩
  := by
  obtain ⟨p, hp, hwritten⟩ := h
  have hholds := (producer_eq_ok_iff.1 hp).1
  have hzero : ∀ {slot d}, b.Holds t slot d → slot = 0 ∧ d = p := by
    intro slot d hd
    have hlt := hd.slot_lt
    rw [Kind.length_inputs_of_isRoot hroot, Nat.lt_one_iff] at hlt
    subst hlt
    exact ⟨rfl, hd.unique hholds⟩
  rcases ReflTransGen.cases_head hc with rfl | ⟨d, ⟨⟨slot', hd⟩, hdb⟩, hdc⟩
  · obtain ⟨rfl, rfl⟩ := hzero hq
    exact .direct hp hbinding
  · obtain ⟨-, rfl⟩ := hzero hd
    obtain ⟨s, hs, huse⟩ := Writable.usesIn ⟨e, hwritten⟩ hdb hdc hq hbinding
    exact .inner hp hs huse

/-! ## Bindings that wait for each other -/

/-- What is done are roots, and their slots have been written. -/
def RootsWritten (b : Board) (done : Node → Prop) : Prop :=
  ∀ t, done t → t.kind.isRoot = true ∧ ∃ e, b.SlotWrittenAs t 0 e

/-- When the return has been written, it alone is done. -/
theorem rootsWritten_return (hret : r.kind.isReturn = true) {e : Expr} (h : b.SlotWrittenAs r 0 e) :
  b.RootsWritten fun t => t = r
  := by
  rintro t rfl
  exact ⟨Kind.isRoot_of_isReturn hret, e, h⟩

/-- When a binding has been declared, it is done as well. -/
theorem RootsWritten.declare {done : Node → Prop} (h : b.RootsWritten done) {s : Stmt}
    (hs : b.Declares n s) :
  b.RootsWritten fun t => done t ∨ t = n
  := by
  rintro t (ht | rfl)
  · apply h t ht
  · obtain ⟨x, type, init, hx, -, hinit, -⟩ := hs
    exact ⟨Kind.isRoot_of_isBinding (Kind.isBinding_of_binding? hx), init, hinit⟩

/-- Some slot of a node holds another, which is one of the named nodes if it is a binding. -/
def NeedsAmong (b : Board) (ids : List NodeId) (n p : Node) : Prop :=
  b.Needs n p ∧ (p.kind.isBinding = true → p.id ∈ ids)

/-- A way among the named nodes is a way. -/
theorem transGen_of_needsAmong {ids : List NodeId} (h : TransGen (b.NeedsAmong ids) n p) :
  TransGen b.Needs n p
  := h.lift id fun _ _ h => h.1

/-- When no binding is ready, each one that is still to be declared is needed by another one, without
other bindings in between. -/
theorem Progress.exists_waiting {done : Node → Prop} {u : Uses} (h : b.Progress r done u)
    (hr : r ∈ b.nodes) (hdone : done r)
    (hwritten : b.RootsWritten done)
    (hready : u.ready? = none) (hq : b.Live r q) (hid : q.id ∈ u.undeclared) :
  ∃ t, b.Live r t ∧ t.id ∈ u.undeclared ∧ TransGen (b.NeedsAmong u.undeclared) t q
  := by
  obtain ⟨w, hw, hproducer, hnew⟩ := h.counts.ready?_eq_none hready q.id hid
  obtain ⟨c, hc, hconsumer, hinput⟩ := (mem_liveWires_iff hr w).1 hw
  have hholds : b.Holds c w.slot q := ⟨by rw [hinput, hproducer], hq.mem hr⟩
  have hbinding : q.kind.isBinding = true := by
    obtain ⟨q', hq', hbinding, hid'⟩ := h.live q.id hid
    rwa [← eq_of_id_eq (hq'.mem hr) (hq.mem hr) hid']
  obtain ⟨t, ht, hroot, hpath⟩ := exists_root hc
  have hnotdone : ¬ done t := by
    intro hdt
    obtain ⟨htroot, e, he⟩ := hwritten t hdt
    have huse := he.usesAt htroot hpath hholds hbinding
    rw [← hconsumer, ← hproducer] at huse
    apply hnew ((h.consumed w hw).2 ⟨t, hdt, huse⟩)
  have htbinding : t.kind.isBinding = true := by
    rcases hroot with rfl | htb
    · apply (hnotdone hdone).elim
    · exact htb
  refine ⟨t, ht, (h.covered t ht htbinding).resolve_right hnotdone, ?_⟩
  apply TransGen.tail' (hpath.lift id _) ⟨⟨w.slot, hholds⟩, fun _ => hid⟩
  rintro n p ⟨hneeds, hinner⟩
  use hneeds
  intro hp
  rw [id_eq, hinner] at hp
  cases hp

/-- When no binding is ready, each one that is still to be declared is needed by one that leads to
itself, without other bindings in between. -/
theorem Progress.exists_cycle {done : Node → Prop} {u : Uses} (h : b.Progress r done u)
    (hr : r ∈ b.nodes) (hdone : done r)
    (hwritten : b.RootsWritten done)
    (hready : u.ready? = none) (hq : b.Live r q) (hid : q.id ∈ u.undeclared) :
  ∃ t, b.Live r t ∧ t.id ∈ u.undeclared ∧ TransGen (b.NeedsAmong u.undeclared) t t ∧
    TransGen b.Needs t q
  := by
  let waiting : Set Node := {t | b.Live r t ∧ t.id ∈ u.undeclared}
  have hfinite : waiting.Finite :=
    (List.finite_toSet b.nodes).subset fun t ht => ht.1.mem hr
  obtain ⟨t, ⟨ht, htid⟩, hloop, hleads⟩ := exists_loop (fun _ _ _ => TransGen.trans) hfinite
    (fun q hq => by
      obtain ⟨t, ht, htid, hleads⟩ := h.exists_waiting hr hdone hwritten hready hq.1 hq.2
      exact ⟨t, ⟨ht, htid⟩, hleads⟩) ⟨hq, hid⟩
  exact ⟨t, ht, htid, hloop, transGen_of_needsAmong hleads⟩

end Board

end Patchboard
