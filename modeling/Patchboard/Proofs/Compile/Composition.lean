import Mathlib.Data.Set.Function
import Patchboard.Proofs.Compile.Scoping
import Patchboard.Proofs.Compile.Stalling

/-!
# What a compiled function is composed of

A compiled function consists of its parameters, one declaration for each live binding, and the value of
its return. Bindings are written by name wherever they are used, functions are called by name, and the
properties that are taken by name have names.

To say where a binding is used, the slots are followed into the expressions: when a slot is written, the
slots within it are written as parts of its expression.
-/

namespace Patchboard

open Relation (ReflTransGen)

/-! ## Expressions within each other -/

/-- The expressions that an expression is made of, the callee of a call included. -/
def Expr.children : Expr → List Expr
  | .literal _ | .ident _ => []
  | .binary left _ right => [left, right]
  | .conditional test consequent alternate => [test, consequent, alternate]
  | .call callee args => callee :: args
  | .member object _ => [object]
  | .index object key => [object, key]

/-- An expression is another one or occurs in it. -/
def Expr.Within (part e : Expr) : Prop :=
  ReflTransGen (fun e child => child ∈ e.children) e part

/-- The expression of a statement. -/
def Stmt.expr : Stmt → Expr
  | .const _ _ init => init
  | .ret value => value

/-- An expression that is built is made of its parts, and of the name of the function that it calls. -/
theorem Head.mem_children_of_build? {h : Head} {es : List Expr} {e : Expr} (hbuild : h.build? es = some e)
    (child : Expr) :
  child ∈ e.children ↔ child ∈ es ∨ ∃ function, h = .call function ∧ child = .ident function
  := by
  unfold build? at hbuild
  split at hbuild <;> cases hbuild <;> simp [Expr.children, or_comm]

/-! ## Types -/

/-- A node with this type token and array flag declares this type, or none if the token leaves it open. -/
def ValueType.Annotates (token : String) (array : Bool) : Option ValueType → Prop
  | none => token = inferToken
  | some type => type.keyword.word = token ∧ type.array = array

/-- A node that declares a type, or leaves it open, has the token and the flag for it. -/
theorem ValueType.annotates_of_declared {node : NodeId} {token : String} {array : Bool}
    {type : Option ValueType} (h : declared node token array = .ok type) :
  Annotates token array type
  := by
  obtain ⟨k, hk, rfl⟩ := map_eq_ok_iff.1 h
  cases k with
  | none =>
    rw [Keyword.ofToken] at hk
    split at hk
    · cases hk
    · split at hk
      · next htoken => exact htoken
      · cases hk
  | some k => exact ⟨Keyword.word_of_ofToken hk, rfl⟩

/-- A type that must not be left open is the one that is declared. -/
theorem ValueType.declared_of_required {node : NodeId} {token : String} {array : Bool} {type : ValueType}
    (h : required node token array = .ok type) :
  declared node token array = .ok (some type)
  := by
  rw [required] at h
  cases hd : declared node token array with
  | error d =>
    rw [hd] at h
    cases h
  | ok a =>
    rw [hd] at h
    cases a with
    | none => cases h
    | some a =>
      obtain rfl := Except.ok.inj h
      rfl

/-- A parameter has the name and the type that a node declares. -/
def Node.DeclaresParam (p : Node) (param : Param) : Prop :=
  ∃ token array outputs, p.kind = .parameter param.name token array outputs ∧
    ValueType.Annotates token array (some param.type)

/-- A parameter that a node compiles to has the name and the type that the node declares. -/
theorem Node.declaresParam_of_param? {p : Node} {param : Param} (h : p.param? = some (.ok param)) :
  p.DeclaresParam param
  := by
  obtain ⟨token, array, outputs, hk, htype⟩ := Board.param?_eq_ok_iff.1 h
  refine ⟨token, array, outputs, hk, ?_⟩
  apply ValueType.annotates_of_declared (ValueType.declared_of_required htype)

namespace Board

variable {b : Board} {f r n c q t : Node} {e part : Expr} {slot s : Nat} {x : Binding}

/-! ## Names in expressions -/

/-- An expression calls functions of the board by their names, and takes properties by names. -/
def Lawful (b : Board) : Expr → Prop
  | .call callee _ => ∃ name, callee = .ident name ∧ b.NamesFunction name
  | .member _ property => Text.isName property = true
  | _ => True

/-- The name of a function on the board is the name of a function. -/
theorem namesFunction_of_mem {name : String} {width height : Binary64} (hn : n ∈ b.nodes)
    (hk : n.kind = .functionDeclaration name width height) :
  b.NamesFunction name
  := by
  refine ⟨n, List.mem_filter.2 ⟨hn, ?_⟩, width, height, hk⟩
  rw [hk]
  rfl

/-- A call names a function of the board. -/
theorem namesFunction_of_callee {name : String} (h : b.callee n = .ok name) :
  b.NamesFunction name
  := by
  obtain ⟨p, hp, ⟨width, height, hk⟩ | ⟨-, href⟩⟩ := callee_eq_ok_iff.1 h
  · apply namesFunction_of_mem hp.2 hk
  · obtain ⟨g, width, height, hg, hk⟩ := referencedFunction_eq_ok_iff.1 href
    apply namesFunction_of_mem hg.2 hk

/-- A key that is a property by name is a name. -/
theorem isName_of_propertyName? {name : String} (h : propertyName? n = some name) :
  Text.isName name = true
  := by
  unfold propertyName? at h
  split at h
  · split at h
    · next hname =>
      obtain rfl := Option.some.inj h
      exact hname
    · cases h
  · cases h

/-- The head of a call names a function of the board. -/
theorem namesFunction_of_head? {name : String} (h : b.head? n = some (.call name)) :
  b.NamesFunction name
  := by
  rw [head?] at h
  split at h <;> simp only [Option.map_eq_some_iff, Option.some.injEq, reduceCtorEq, and_false,
    exists_false, Head.call.injEq, exists_eq_right, toOption_eq_some_iff] at h
  · apply namesFunction_of_callee h
  all_goals
    obtain ⟨key, -, hkey⟩ := h
    cases hname : propertyName? key <;> simp [hname] at hkey

/-- The head of an access by name has a name. -/
theorem isName_of_head? {name : String} (h : b.head? n = some (.member name)) :
  Text.isName name = true
  := by
  rw [head?] at h
  split at h <;> simp only [Option.map_eq_some_iff, Option.some.injEq, reduceCtorEq, and_false,
    exists_false] at h
  all_goals
    obtain ⟨key, -, hkey⟩ := h
    cases hname : propertyName? key <;> simp [hname] at hkey
    · subst hkey
      apply isName_of_propertyName? hname

/-- What a node is written as calls functions by their names, and takes properties by names. -/
theorem WrittenAs.lawful (h : b.WrittenAs n e) (hpart : part.Within e) :
  b.Lawful part
  := by
  induction h with
  | @node n head e feed parts hhead _ _ hbuild ih =>
    rcases ReflTransGen.cases_head hpart with rfl | ⟨child, hchild, hpart⟩
    · unfold Head.build? at hbuild
      split at hbuild <;> cases hbuild <;> try exact trivial
      · exact ⟨_, rfl, namesFunction_of_head? hhead⟩
      · exact isName_of_head? hhead
    · rcases (Head.mem_children_of_build? hbuild child).1 hchild with hmem | ⟨name, -, rfl⟩
      · obtain ⟨slot, hslot, rfl⟩ := List.mem_map.1 hmem
        apply ih slot hslot hpart
      · -- The name of the called function is made of nothing.
        rcases ReflTransGen.cases_head hpart with rfl | ⟨_, hnone, -⟩
        · exact trivial
        · cases hnone

/-! ## Slots within expressions -/

/-- When a slot of a node is written as an expression, another slot is written within as a part of the
expression. -/
inductive Stands (b : Board) : Node → Nat → Expr → Node → Nat → Expr → Prop
  | here {n : Node} {slot : Nat} {e : Expr} (written : b.SlotWrittenAs n slot e) :
      Stands b n slot e n slot e
  | inner {n p c : Node} {slot operand s : Nat} {head : Head} {parts : Nat → Expr} {e part : Expr}
      (feed : b.producer n slot = .ok p) (hhead : b.head? p = some head)
      (build : head.build? ((b.operands p).map parts) = some e) (mem : operand ∈ b.operands p)
      (stands : Stands b p operand (parts operand) c s part) :
      Stands b n slot e c s part

/-- What a slot is written as within an expression occurs in the expression. -/
theorem Stands.within (h : b.Stands n slot e c s part) :
  part.Within e
  := by
  induction h with
  | here _ => exact .refl
  | inner _ _ build mem _ ih =>
    apply ReflTransGen.head _ ih
    apply (Head.mem_children_of_build? build _).2
    exact .inl (List.mem_map_of_mem mem)

/-- What a slot is written as within an expression, the slot is written as. -/
theorem Stands.written (h : b.Stands n slot e c s part) :
  b.SlotWrittenAs c s part
  := by
  induction h with
  | here written => exact written
  | inner _ _ _ _ _ ih => exact ih

/-- A slot that holds a binding is written as the name of the binding. -/
theorem SlotWrittenAs.eq_ident (h : b.SlotWrittenAs c s e) (hq : b.Holds c s q)
    (hx : q.kind.binding? = some x) :
  e = .ident x.name
  := by
  obtain ⟨p, hp, hwritten⟩ := h
  obtain rfl := producer_unique hp hq
  obtain @⟨_, head, _, feed, parts, hhead, -, -, hbuild⟩ := hwritten
  rw [operands_of_isBinding (Kind.isBinding_of_binding? hx), List.map_nil] at hbuild
  have hname : b.head? p = some (.name x.name) := by
    cases hk : p.kind <;> rw [hk] at hx <;> cases hx <;> rw [head?, hk]
  obtain rfl := Option.some.inj (hname.symm.trans hhead)
  exact (Option.some.inj hbuild).symm

/-- A slot whose wire is used where another slot is written is written within. -/
theorem UsesAt.stands {w : Wire} (h : b.UsesAt n slot w) (hn : n ∈ b.nodes) (hc : c ∈ b.nodes)
    (hconsumer : w.consumer = c.id) (he : b.SlotWrittenAs n slot e) :
  ∃ part, b.Stands n slot e c w.slot part
  := by
  induction h generalizing e with
  | direct feed _ =>
    obtain rfl := eq_of_id_eq hn hc hconsumer
    exact ⟨e, .here he⟩
  | inner feed operand _ ih =>
    obtain ⟨p, hp, hwritten⟩ := he
    obtain rfl := Except.ok.inj (feed.symm.trans hp)
    obtain @⟨_, head, _, next, parts, hhead, hnext, hparts, hbuild⟩ := hwritten
    obtain ⟨part, hpart⟩ := ih (producer_eq_ok_iff.1 feed).1.2 hconsumer
      ⟨_, hnext _ operand, hparts _ operand⟩
    exact ⟨part, .inner feed hhead hbuild operand hpart⟩

/-- A root whose slot is written names the bindings that are held within it. -/
theorem SlotWrittenAs.stands (h : b.SlotWrittenAs t 0 e) (ht : t ∈ b.nodes)
    (hroot : t.kind.isRoot = true) (hc : ReflTransGen b.Inner t c) (hq : b.Holds c s q)
    (hx : q.kind.binding? = some x) :
  b.Stands t 0 e c s (.ident x.name)
  := by
  have huse := h.usesAt hroot hc hq (Kind.isBinding_of_binding? hx)
  obtain ⟨part, hpart⟩ := huse.stands ht (mem_of_inner ht hc) rfl h
  obtain rfl := hpart.written.eq_ident hq hx
  exact hpart

/-! ## Functions -/

/-- In a function with these declarations and this value of its return, the statement is that of the
node: of the return, or of the binding that the statement declares. -/
def StatementOf (r : Node) (ds : List Stmt) (value : Expr) (binding : Fin ds.length → Node) (t : Node)
    (st : Stmt) : Prop :=
  (t = r ∧ st = .ret value) ∨ ∃ i, t = binding i ∧ st = ds[i]

section

variable {ds : List Stmt} {value : Expr} {binding : Fin ds.length → Node} {st : Stmt}

/-- Each of the statements is that of a node. -/
theorem exists_node_of_mem (r : Node) (binding : Fin ds.length → Node) (h : st ∈ ds ++ [.ret value]) :
  ∃ t, StatementOf r ds value binding t st
  := by
  rw [List.mem_append, List.mem_singleton] at h
  rcases h with hst | rfl
  · obtain ⟨i, hi, rfl⟩ := List.getElem_of_mem hst
    exact ⟨_, .inr ⟨⟨i, hi⟩, rfl, rfl⟩⟩
  · exact ⟨r, .inl ⟨rfl, rfl⟩⟩

/-- The return and the live bindings have statements. -/
theorem exists_statementOf (value : Expr)
    (hbinding : Set.BijOn binding Set.univ {n | b.Live r n ∧ n.kind.isBinding = true})
    (ht : b.Live r t) (hroot : t = r ∨ t.kind.isBinding = true) :
  ∃ st, StatementOf r ds value binding t st
  := by
  rcases hroot with rfl | htb
  · exact ⟨_, .inl ⟨rfl, rfl⟩⟩
  · obtain ⟨i, -, rfl⟩ := hbinding.surjOn ⟨ht, htb⟩
    exact ⟨_, .inr ⟨i, rfl, rfl⟩⟩

/-- The statement of a node is written from the slot of the node. -/
theorem StatementOf.written (h : StatementOf r ds value binding t st) (hvalue : b.SlotWrittenAs r 0 value)
    (hdeclares : ∀ i : Fin ds.length, b.Declares (binding i) ds[i]) :
  b.SlotWrittenAs t 0 st.expr
  := by
  rcases h with ⟨rfl, rfl⟩ | ⟨i, rfl, rfl⟩
  · exact hvalue
  · obtain ⟨x, type, init, -, -, hinit, hst⟩ := hdeclares i
    rw [hst]
    exact hinit

end

/-- A function is composed of what its node, its parameters, its return and the live bindings declare. -/
structure Composed (b : Board) (f r : Node) (decl : Function) (ds : List Stmt) (value : Expr)
    (binding : Fin ds.length → Node) : Prop where
  /-- The name is that of the node. -/
  name : ∃ width height, f.kind = .functionDeclaration decl.name width height
  /-- The parameters are those that belong to the function, from left to right. -/
  params : List.Forall₂ Node.DeclaresParam (parametersOf (b.scope f)) decl.params
  /-- One return belongs to the function. -/
  sole : b.returnsOf f = [r]
  /-- The statements are declarations, and then the return. -/
  body : decl.body = ds ++ [.ret value]
  /-- Each live binding is declared once, and nothing else is. -/
  bijective : Set.BijOn binding Set.univ {n | b.Live r n ∧ n.kind.isBinding = true}
  /-- A binding is declared under its name, with its type. -/
  declares : ∀ i, ∃ x type init, (binding i).kind.binding? = some x ∧
    ds[i] = .const x.name type init ∧ ValueType.Annotates x.type x.array type
  /-- A statement is written from the slot of its node. -/
  written : ∀ t st, StatementOf r ds value binding t st → b.SlotWrittenAs t 0 st.expr
  /-- Functions are called by their names, and properties are taken by names. -/
  lawful : ∀ st ∈ decl.body, ∀ e, e.Within st.expr → b.Lawful e
  /-- A live slot that holds a binding is written in a statement, as the name of the binding, -/
  named : ∀ c s q x, b.Live r c → b.Holds c s q → q.kind.binding? = some x →
    ∃ t st, StatementOf r ds value binding t st ∧ b.Stands t 0 st.expr c s (.ident x.name) ∧
      (Expr.ident x.name).Within st.expr
  /-- and is written as nothing else in any. -/
  bare : ∀ t st, StatementOf r ds value binding t st → ∀ c s q x e, b.Stands t 0 st.expr c s e →
    b.Holds c s q → q.kind.binding? = some x → e = .ident x.name

/-- The positions in a list without repetitions correspond one to one to what is in it. -/
theorem bijOn_get {α : Type} {ns : List α} {k : Nat} (hlen : k = ns.length) (hnodup : ns.Nodup)
    {s : Set α} (hs : ∀ n, n ∈ ns ↔ n ∈ s) :
  Set.BijOn (fun i : Fin k => ns.get (i.cast hlen)) Set.univ s
  := by
  subst hlen
  refine ⟨?_, ?_, ?_⟩
  · intro i _
    apply (hs _).1 (List.get_mem ns i)
  · intro i _ j _ hij
    exact List.nodup_iff_injective_get.1 hnodup hij
  · intro n hn
    obtain ⟨i, rfl⟩ := List.mem_iff_get.1 ((hs n).2 hn)
    exact ⟨i, trivial, rfl⟩

/-- A function that compiles is composed of what its node, its parameters, its only return and the
bindings that the return needs declare. -/
theorem composed_of_compileFunction {decl : Function} (h : b.compileFunction f = .ok decl) :
  ∃ r ds value, ∃ binding : Fin ds.length → Node, b.Composed f r decl ds value binding
  := by
  obtain ⟨r, ns, ds, value, hsole, hr, hret, hparams, hbody, hvalue, hdeclared⟩ := compileFunction_ok h
  obtain ⟨_, width, height, -, hk, -, -, -, -, hname⟩ := compileFunction_eq_ok_iff.1 h
  have hlen : ds.length = ns.length := hdeclared.declares.length_eq.symm
  let binding : Fin ds.length → Node := fun i => ns.get (i.cast hlen)
  have hbijective : Set.BijOn binding Set.univ {n | b.Live r n ∧ n.kind.isBinding = true} :=
    bijOn_get hlen hdeclared.nodup (hdeclared.mem_iff_of_isReturn hret)
  have hdeclares : ∀ i : Fin ds.length, b.Declares (binding i) ds[i] := by
    intro i
    apply hdeclared.declares.get
  refine ⟨r, ds, value, binding, ⟨width, height, hname ▸ hk⟩, ?_, hsole, hbody, hbijective, ?_, ?_, ?_, ?_,
    ?_⟩
  · apply (forall₂_of_mapM_param? (fun p hp => (mem_parametersOf_scope.1 hp).2) hparams).imp
    intro p param
    apply Node.declaresParam_of_param?
  · intro i
    obtain ⟨x, type, init, hx, htype, -, hst⟩ := hdeclares i
    exact ⟨x, type, init, hx, hst, ValueType.annotates_of_declared htype⟩
  · intro t st hst
    apply hst.written hvalue hdeclares
  · intro st hst e he
    obtain ⟨t, ht⟩ := exists_node_of_mem r binding (hbody ▸ hst)
    obtain ⟨p, -, hp⟩ := ht.written hvalue hdeclares
    apply hp.lawful he
  · intro c s q x hc hq hx
    -- The slot is written in the statement of the root that leads to it without bindings in between.
    obtain ⟨t, ht, hroot, hpath⟩ := exists_root hc
    obtain ⟨st, hst⟩ := exists_statementOf value hbijective ht hroot
    have htroot : t.kind.isRoot = true := by
      rcases hroot with rfl | htb
      · exact Kind.isRoot_of_isReturn hret
      · exact Kind.isRoot_of_isBinding htb
    have hstands := (hst.written hvalue hdeclares).stands (ht.mem hr) htroot hpath hq hx
    exact ⟨t, st, hst, hstands, hstands.within⟩
  · intro t st _ c s q x e hstands hq hx
    apply hstands.written.eq_ident hq hx

/-! ## A function with a property, a call and a dead variable -/

/-- A board with the function `f(o)`. The variable `v` names the property `size` of the parameter and is
passed to `f` twice, as is returned; the variable `w` is not needed. -/
def sizeTwice : Board where
  nodes := [
    ⟨⟨0⟩, .ofNat 0, .ofNat 0, .functionDeclaration "f" (.ofNat 16) (.ofNat 8)⟩,
    ⟨⟨1⟩, .ofNat 0, .ofNat 0, .parameter "o" "string" false [⟨3⟩, ⟨7⟩]⟩,
    ⟨⟨2⟩, .ofNat 0, .ofNat 0, .stringLiteral "size" (some ⟨3⟩)⟩,
    ⟨⟨3⟩, .ofNat 0, .ofNat 0, .propertyAccess ⟨some ⟨1⟩, some ⟨2⟩, some ⟨4⟩⟩⟩,
    ⟨⟨4⟩, .ofNat 0, .ofNat 0, .variableStatement ⟨"v", "number", true, some ⟨3⟩, [⟨5⟩, ⟨5⟩]⟩⟩,
    ⟨⟨5⟩, .ofNat 0, .ofNat 0, .callExpression [some ⟨0⟩, some ⟨4⟩, some ⟨4⟩] (some ⟨6⟩)⟩,
    ⟨⟨6⟩, .ofNat 0, .ofNat 0, .returnStatement "infer" false (some ⟨5⟩)⟩,
    ⟨⟨7⟩, .ofNat 0, .ofNat 0, .variableStatement ⟨"w", "infer", false, some ⟨1⟩, []⟩⟩]
  nextId := 8
  distinct := by decide

/-- The node of the function. -/
def sizeTwiceFunction : Node :=
  ⟨⟨0⟩, .ofNat 0, .ofNat 0, .functionDeclaration "f" (.ofNat 16) (.ofNat 8)⟩

/-- What the function compiles to. -/
def sizeTwiceCompiled : Function where
  name := "f"
  params := [⟨"o", ⟨.string, false⟩⟩]
  returnType := none
  body := [
    .const "v" (some ⟨.number, true⟩) (.member (.ident "o") "size"),
    .ret (.call (.ident "f") [.ident "v", .ident "v"])]

/-- The function compiles. -/
theorem compileFunction_sizeTwice :
  sizeTwice.compileFunction sizeTwiceFunction = .ok sizeTwiceCompiled
  := by
  apply compileFunction_eq_ok_iff.2
  refine ⟨"f", .ofNat 16, .ofNat 8,
    ⟨⟨6⟩, .ofNat 0, .ofNat 0, .returnStatement "infer" false (some ⟨5⟩)⟩, rfl, ?_, ?_, rfl, rfl, rfl⟩
  · show ((List.mergeSort [_] _).filterMap _).mapM id = _
    rw [List.mergeSort_singleton]
    rfl
  · decide

/-- The function is composed of one declaration and the return. -/
theorem composed_sizeTwice :
  sizeTwice.compileFunction sizeTwiceFunction = .ok sizeTwiceCompiled ∧
    ∃ r ds value, ∃ binding : Fin ds.length → Node,
      sizeTwice.Composed sizeTwiceFunction r sizeTwiceCompiled ds value binding
  := ⟨compileFunction_sizeTwice, composed_of_compileFunction compileFunction_sizeTwice⟩

end Board

end Patchboard
