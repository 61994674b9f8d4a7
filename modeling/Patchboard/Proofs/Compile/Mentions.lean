import Patchboard.Proofs.Compile.Meaning

/-!
# Names in statements

A name in a statement of a function was put there for a live parameter or function, or for a binding
that the statement uses. When the declarations are in order, the declarations of such bindings stand
before the statement.
-/

namespace Patchboard

mutual

/-- The names that occur in an expression. -/
def Expr.mentions : Expr → List String
  | .literal _ => []
  | .ident name => [name]
  | .binary left _ right => left.mentions ++ right.mentions
  | .conditional test consequent alternate => test.mentions ++ consequent.mentions ++ alternate.mentions
  | .call callee args => callee.mentions ++ mentionsOfAll args
  | .member object _ => object.mentions
  | .index object key => object.mentions ++ key.mentions

/-- The names that occur in some expressions. -/
def Expr.mentionsOfAll : List Expr → List String
  | [] => []
  | e :: es => e.mentions ++ mentionsOfAll es

end

/-- The names that occur in a statement, apart from the name that it declares. -/
def Stmt.mentions : Stmt → List String
  | .const _ _ init => init.mentions
  | .ret value => value.mentions

/-- The name that a statement declares. -/
def Stmt.declared? : Stmt → Option String
  | .const name _ _ => some name
  | .ret _ => none

/-- A name occurs in some expressions when it occurs in one of them. -/
theorem Expr.mem_mentionsOfAll {es : List Expr} {s : String} :
  s ∈ mentionsOfAll es ↔ ∃ e ∈ es, s ∈ e.mentions
  := by
  induction es with
  | nil => simp [mentionsOfAll]
  | cons e es ih => simp [mentionsOfAll, ih]

/-- The name of a head. -/
def Head.name? : Head → Option String
  | name s => some s
  | call function => some function
  | _ => none

/-- The names in an expression are those of its head and of its parts. -/
theorem Head.mem_mentions_of_build? {h : Head} {es : List Expr} {e : Expr} (hbuild : h.build? es = some e)
    {s : String} (hs : s ∈ e.mentions) :
  h.name? = some s ∨ ∃ part ∈ es, s ∈ part.mentions
  := by
  unfold build? at hbuild
  split at hbuild <;> cases hbuild <;>
    simp_all [Expr.mentions, Expr.mem_mentionsOfAll, name?, eq_comm]

namespace Board

open Relation (ReflTransGen)

variable {b : Board} {r n p : Node} {w : Wire} {s : String}

/-! ## Names of nodes -/

/-- A name stands for a live parameter or function. -/
def NamesOuter (b : Board) (r : Node) (s : String) : Prop :=
  ∃ p, b.Live r p ∧ p.kind.outerName? = some s

/-- A node is a binding of a name. -/
def Binds (n : Node) (s : String) : Prop :=
  ∃ x, n.kind.binding? = some x ∧ x.name = s

/-- What is a binding of a name is a binding. -/
theorem Binds.isBinding (h : Binds n s) :
  n.kind.isBinding = true
  := by
  obtain ⟨x, hx, -⟩ := h
  apply Kind.isBinding_of_binding? hx

/-- A wire comes from a binding of a name. -/
def NamesProducer (b : Board) (w : Wire) (s : String) : Prop :=
  ∃ q ∈ b.nodes, q.id = w.producer ∧ Binds q s

/-- What a node leads to, the nodes lead to that lead to it. -/
theorem NamesOuter.of_live (h : b.NamesOuter n s) (hn : b.Live r n) :
  b.NamesOuter r s
  := by
  obtain ⟨p, hp, hname⟩ := h
  exact ⟨p, hn.trans hp, hname⟩

/-- The name of the function that a reference names is the name of a live function. -/
theorem namesOuter_of_referencedFunction (h : b.referencedFunction n = .ok s) :
  b.NamesOuter n s
  := by
  obtain ⟨p, width, height, hp, hk⟩ := referencedFunction_eq_ok_iff.1 h
  exact ⟨p, .single ⟨0, hp⟩, by rw [hk]; rfl⟩

/-- The name of the function that a call names is the name of a live function. -/
theorem namesOuter_of_callee (h : b.callee n = .ok s) :
  b.NamesOuter n s
  := by
  obtain ⟨p, hp, ⟨width, height, hk⟩ | ⟨-, hname⟩⟩ := callee_eq_ok_iff.1 h
  · exact ⟨p, .single ⟨0, hp⟩, by rw [hk]; rfl⟩
  · apply (namesOuter_of_referencedFunction hname).of_live
    exact .single ⟨0, hp⟩

/-- The name in the head of a node is the name of a live parameter or function, or the node is a
binding of it. -/
theorem names_head {h : Head} (hhead : b.head? n = some h) (hs : h.name? = some s) :
  b.NamesOuter n s ∨ Binds n s
  := by
  rw [head?] at hhead
  cases hk : n.kind with
  | functionDeclaration name width height =>
    rw [hk] at hhead
    cases hhead
    cases hs
    exact .inl ⟨n, .refl, by rw [hk]; rfl⟩
  | parameter name type array outputs =>
    rw [hk] at hhead
    cases hhead
    cases hs
    exact .inl ⟨n, .refl, by rw [hk]; rfl⟩
  | identifier binding =>
    rw [hk] at hhead
    cases hhead
    cases hs
    exact .inr ⟨binding, by rw [hk]; rfl, rfl⟩
  | variableStatement binding =>
    rw [hk] at hhead
    cases hhead
    cases hs
    exact .inr ⟨binding, by rw [hk]; rfl, rfl⟩
  | functionReference function output =>
    rw [hk] at hhead
    obtain ⟨name, hname, rfl⟩ := Option.map_eq_some_iff.1 hhead
    cases hs
    exact .inl (namesOuter_of_referencedFunction (toOption_eq_some_iff.1 hname))
  | callExpression inputs output =>
    rw [hk] at hhead
    obtain ⟨name, hname, rfl⟩ := Option.map_eq_some_iff.1 hhead
    cases hs
    exact .inl (namesOuter_of_callee (toOption_eq_some_iff.1 hname))
  | binaryExpression operator left right output =>
    rw [hk] at hhead
    obtain ⟨op, -, rfl⟩ := Option.map_eq_some_iff.1 hhead
    cases hs
  | elementAccess access =>
    rw [hk] at hhead
    obtain ⟨key, -, rfl⟩ := Option.map_eq_some_iff.1 hhead
    cases hkey : propertyName? key <;> rw [hkey] at hs <;> cases hs
  | propertyAccess access =>
    rw [hk] at hhead
    obtain ⟨key, -, rfl⟩ := Option.map_eq_some_iff.1 hhead
    cases hkey : propertyName? key <;> rw [hkey] at hs <;> cases hs
  | _ =>
    rw [hk] at hhead
    cases hhead <;> cases hs

/-- A name in the expression of a node stands for a live parameter or function, for the node itself
or for a binding that the node uses. -/
theorem WrittenAs.mentions {e : Expr} (h : b.WrittenAs n e) (hs : s ∈ e.mentions) :
  b.NamesOuter n s ∨ Binds n s ∨ ∃ w, b.UsesIn n w ∧ b.NamesProducer w s
  := by
  induction h with
  | @node n head e feed part hhead hfeeds _ hbuild ih =>
    rcases Head.mem_mentions_of_build? hbuild hs with hname | ⟨e', he', hs⟩
    · rcases names_head hhead hname with h | h
      · exact .inl h
      · exact .inr (.inl h)
    · obtain ⟨slot, hslot, rfl⟩ := List.mem_map.1 he'
      have hfeed := hfeeds slot hslot
      have hholds := (producer_eq_ok_iff.1 hfeed).1
      rcases ih slot hslot hs with houter | hbinds | ⟨w, ⟨slot', hslot', huse⟩, hw⟩
      · exact .inl (houter.of_live (.single ⟨slot, hholds⟩))
      · right; right
        exact ⟨_, ⟨slot, hslot, .direct hfeed hbinds.isBinding⟩, feed slot, hholds.2, rfl, hbinds⟩
      · exact .inr (.inr ⟨w, ⟨slot, hslot, .inner hfeed hslot' huse⟩, hw⟩)

/-- A name in the expression of a slot stands for a live parameter or function, or for a binding that
is used there. -/
theorem SlotWrittenAs.mentions {slot : Nat} {e : Expr} (h : b.SlotWrittenAs n slot e)
    (hs : s ∈ e.mentions) :
  b.NamesOuter n s ∨ ∃ w, b.UsesAt n slot w ∧ b.NamesProducer w s
  := by
  obtain ⟨p, hp, hwritten⟩ := h
  have hholds := (producer_eq_ok_iff.1 hp).1
  rcases hwritten.mentions hs with houter | hbinds | ⟨w, ⟨slot', hslot', huse⟩, hw⟩
  · exact .inl (houter.of_live (.single ⟨slot, hholds⟩))
  · exact .inr ⟨_, .direct hp hbinds.isBinding, p, hholds.2, rfl, hbinds⟩
  · exact .inr ⟨w, .inner hp hslot' huse, hw⟩

/-! ## Names of statements -/

variable {ns : List Node} {ds : List Stmt} {value : Expr}

/-- A declaration declares the name of its binding. -/
theorem Declares.declared? {st : Stmt} (h : b.Declares n st) :
  st.declared? = some s ↔ Binds n s
  := by
  obtain ⟨x, type, init, hx, -, -, rfl⟩ := h
  constructor
  · intro hs
    exact ⟨x, hx, Option.some.inj hs⟩
  · rintro ⟨y, hy, rfl⟩
    rw [hx] at hy
    rw [← Option.some.inj hy]
    rfl

/-- The statement at a position declares the binding at the position, or is the return at the end. -/
theorem statement_cases (h : List.Forall₂ b.Declares ns ds) {j : Nat} {st : Stmt}
    (hst : (ds ++ [.ret value])[j]? = some st) :
  (∃ n, ns[j]? = some n ∧ b.Declares n st) ∨ j = ns.length ∧ st = .ret value
  := by
  induction h generalizing j with
  | nil =>
    cases j with
    | zero => exact .inr ⟨rfl, (Option.some.inj hst).symm⟩
    | succ j => cases hst
  | @cons n st' ns ds hdeclares _ ih =>
    cases j with
    | zero =>
      obtain rfl := Option.some.inj hst
      exact .inl ⟨n, rfl, hdeclares⟩
    | succ j =>
      rcases ih hst with hn | ⟨rfl, hret⟩
      · exact .inl hn
      · exact .inr ⟨rfl, hret⟩

/-- The binding at a position is declared by the statement at the position. -/
theorem exists_declares (h : List.Forall₂ b.Declares ns ds) {j : Nat} (hn : ns[j]? = some n) :
  ∃ st, (ds ++ [.ret value])[j]? = some st ∧ b.Declares n st
  := by
  induction h generalizing j with
  | nil => cases hn
  | @cons n' st ns ds hdeclares _ ih =>
    cases j with
    | zero =>
      obtain rfl := Option.some.inj hn
      exact ⟨st, rfl, hdeclares⟩
    | succ j => apply ih hn

/-- The name that is declared at a position is the name of the binding at the position. -/
theorem declared?_statement_iff (h : List.Forall₂ b.Declares ns ds) (i : Nat) :
  (ds ++ [.ret value])[i]?.bind Stmt.declared? = some s ↔ ∃ q, ns[i]? = some q ∧ Binds q s
  := by
  rw [Option.bind_eq_some_iff]
  constructor
  · rintro ⟨st, hst, hs⟩
    rcases statement_cases h hst with ⟨n, hn, hdeclares⟩ | ⟨-, rfl⟩
    · exact ⟨n, hn, hdeclares.declared?.1 hs⟩
    · cases hs
  · rintro ⟨q, hq, hbinds⟩
    obtain ⟨st, hst, hdeclares⟩ := exists_declares h hq
    exact ⟨st, hst, hdeclares.declared?.2 hbinds⟩

/-- A name that occurs in a statement stands for a live parameter or function, or for a binding that
is declared at a position before it. -/
theorem Declared.mentions_before (hr : r ∈ b.nodes) (hret : r.kind.isReturn = true)
    (h : b.Declared r (fun n => n = r) ns ds) (hordered : b.Ordered (fun _ => False) ns)
    (hvalue : b.SlotWrittenAs r 0 value) {j : Nat} {st : Stmt}
    (hst : (ds ++ [.ret value])[j]? = some st) (hs : s ∈ st.mentions) :
  b.NamesOuter r s ∨ ∃ k < j, ∃ q, ns[k]? = some q ∧ Binds q s
  := by
  have hlive : ∀ {k m}, ns[k]? = some m → b.Live r m :=
    fun hm => ((h.mem_iff _).1 (List.mem_of_getElem? hm)).1
  rcases statement_cases h.declares hst with ⟨n, hn, x, type, init, -, -, hinit, rfl⟩ | ⟨rfl, rfl⟩
  · rcases hinit.mentions hs with houter | ⟨w, hw, q, hq, hid, hbinds⟩
    · exact .inl (houter.of_live (hlive hn))
    · rcases hordered.declared_before hn hw with ⟨m, hm, -⟩ | ⟨k, hk, m, hm, hmid⟩
      · exact hm.elim
      · obtain rfl := eq_of_id_eq hq ((hlive hm).mem hr) (hid.trans hmid.symm)
        exact .inr ⟨k, hk, q, hm, hbinds⟩
  · rcases hvalue.mentions hs with houter | ⟨w, hw, q, hq, hid, hbinds⟩
    · exact .inl houter
    · -- What the return uses is a live binding, and all of these have been declared.
      obtain ⟨c, q', hc, -, hq', hproducer, hbinding⟩ := hw.spec
      obtain rfl := eq_of_id_eq hq hq'.2 (hid.trans hproducer)
      have hmem := (h.mem_iff_of_isReturn hret q).2 ⟨(Live.inner .refl hc).step hq', hbinding⟩
      obtain ⟨k, hk, hqk⟩ := List.getElem_of_mem hmem
      exact .inr ⟨k, hk, q, List.getElem?_eq_some_iff.2 ⟨hk, hqk⟩, hbinds⟩

end Board

end Patchboard
