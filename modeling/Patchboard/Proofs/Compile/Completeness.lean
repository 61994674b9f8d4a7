import Patchboard.Proofs.Board.Links
import Patchboard.Proofs.Compile.Hoisting

/-!
# Complete nodes

A node is complete when all its slots are filled with nodes of the board and it fits what its kind
asks for: an operator that exists, a function to call, a type that may be declared. A node that is
written in place can be written exactly when it is complete and so can be what its slots hold. Of
what the slots hold, a function that is called and the key of a property are not written as parts, but
they could be.
-/

namespace Patchboard

/-- The tokens of types that may be given to a parameter. -/
def typeTokens : List String :=
  ["number", "string", "boolean"]

/-- The tokens of types that may be declared. -/
def declarableTokens : List String :=
  inferToken :: typeTokens

/-- A slot that is filled is one of the slots. -/
theorem Kind.lt_of_input {k : Kind} {slot : Nat} {id : NodeId} (h : k.input slot = some id) :
  slot < k.inputs.length
  := by
  rw [input] at h
  obtain ⟨hlt, -⟩ := List.getElem?_eq_some_iff.1 (Option.join_eq_some_iff.1 h)
  exact hlt

/-- A token is the token of the operator that it leads to. -/
theorem Operator.exists_token_iff (token : String) :
  (∃ op : Operator, op.token = token) ↔ (Operator.ofToken? token).isSome
  := by
  constructor
  · rintro ⟨op, rfl⟩
    rw [ofToken?_token]
    rfl
  · intro h
    obtain ⟨op, hop⟩ := Option.isSome_iff_exists.1 h
    obtain ⟨l₁, l₂, hl, -⟩ := List.lookup_eq_some_iff.1 hop
    have hmem : (token, op) ∈ all.map fun op => (op.token, op) := by
      rw [hl]
      simp
    obtain ⟨op', -, heq⟩ := List.mem_map.1 hmem
    exact ⟨op', congrArg Prod.fst heq⟩

/-- The types that may be declared. -/
theorem ValueType.isOk_declared_iff (node : NodeId) (token : String) (array : Bool) :
  (∃ type, ValueType.declared node token array = .ok type) ↔ token ∈ declarableTokens
  := by
  have hmap : (∃ type, ValueType.declared node token array = .ok type)
      ↔ ∃ k, Keyword.ofToken node token = .ok k := by
    rw [declared]
    cases Keyword.ofToken node token <;> simp [Except.map]
  rw [hmap]
  constructor
  · rintro ⟨_ | k, hk⟩
    · rw [Keyword.ofToken] at hk
      split at hk
      · cases hk
      · split at hk
        · next h => exact List.mem_cons.2 (.inl h)
        · cases hk
    · rw [← Keyword.word_of_ofToken hk]
      cases k <;> decide
  · intro h
    simp only [declarableTokens, typeTokens, List.mem_cons, List.not_mem_nil, or_false] at h
    rcases h with rfl | rfl | rfl | rfl
    · exact ⟨none, rfl⟩
    · exact ⟨some .number, rfl⟩
    · exact ⟨some .string, rfl⟩
    · exact ⟨some .boolean, rfl⟩

/-- The types that may be given to a parameter. -/
theorem ValueType.isOk_required_iff (node : NodeId) (token : String) (array : Bool) :
  (∃ type, ValueType.required node token array = .ok type) ↔ token ∈ typeTokens
  := by
  constructor
  · rintro ⟨type, h⟩
    have hne : token ≠ inferToken := by
      rintro rfl
      cases h
    have hdeclared : ∃ type, ValueType.declared node token array = .ok type := by
      rw [required] at h
      cases hd : declared node token array with
      | error d =>
        rw [hd] at h
        cases h
      | ok type' => exact ⟨type', rfl⟩
    rcases List.mem_cons.1 ((isOk_declared_iff node token array).1 hdeclared) with h | h
    · apply (hne h).elim
    · exact h
  · intro h
    simp only [typeTokens, List.mem_cons, List.not_mem_nil, or_false] at h
    rcases h with rfl | rfl | rfl
    · exact ⟨⟨.number, array⟩, rfl⟩
    · exact ⟨⟨.string, array⟩, rfl⟩
    · exact ⟨⟨.boolean, array⟩, rfl⟩

namespace Board

variable {b : Board} {n p : Node}

/-- The node has what its kind asks for, apart from producers in its slots. -/
def Fits (b : Board) (n : Node) : Prop :=
  match n.kind with
  | .binaryExpression operator _ _ _ => ∃ op : Operator, op.token = operator
  | .callExpression inputs _ =>
    inputs ≠ [] ∧ ∀ p, b.Holds n 0 p → p.kind.isFunction = true ∨ p.kind.isReference = true
  | .functionReference _ _ => ∀ p, b.Holds n 0 p → p.kind.isFunction = true
  | .identifier binding | .variableStatement binding => binding.type ∈ declarableTokens
  | _ => True

/-- All slots of a node are filled with nodes of the board, and it fits its kind. -/
structure Complete (b : Board) (n : Node) : Prop where
  filled : ∀ slot < n.kind.inputs.length, ∃ p, b.Holds n slot p
  fits : b.Fits n

/-- The node can be written in place. -/
def Writable (b : Board) (n : Node) : Prop :=
  ∃ e, b.WrittenAs n e

/-- A slot that holds a node is one of the slots. -/
theorem Holds.slot_lt {slot : Nat} (h : b.Holds n slot p) :
  slot < n.kind.inputs.length
  := Kind.lt_of_input h.1

/-- A node that can be written can feed a slot. -/
theorem Writable.producer (h : b.Writable p) {slot : Nat} (hp : b.Holds n slot p) :
  b.producer n slot = .ok p
  := by
  apply producer_eq_ok_iff.2
  use hp
  obtain ⟨e, h⟩ := h
  cases h with
  | node _ _ head =>
    rw [head?] at head
    rw [Kind.producesValue]
    cases hk : p.kind <;> first | rfl | simp [hk] at head

/-- The head of a node takes as many parts as the node has operands. -/
theorem isSome_build?_of_head? {h : Head} (hhead : b.head? n = some h) {es : List Expr}
    (hlen : es.length = (b.operands n).length) :
  (h.build? es).isSome
  := by
  -- The parts matter by their number only.
  rw [h.isSome_build?_congr (hlen.trans (List.length_map fun _ => default).symm)]
  rw [head?] at hhead
  rw [operands]
  cases hk : n.kind with
  | functionReference function output =>
    rw [hk] at hhead
    obtain ⟨name, -, rfl⟩ := Option.map_eq_some_iff.1 hhead
    rfl
  | binaryExpression operator left right output =>
    rw [hk] at hhead
    obtain ⟨op, -, rfl⟩ := Option.map_eq_some_iff.1 hhead
    rfl
  | callExpression inputs output =>
    rw [hk] at hhead
    obtain ⟨name, -, rfl⟩ := Option.map_eq_some_iff.1 hhead
    rfl
  | elementAccess access =>
    rw [hk] at hhead
    obtain ⟨key, hkey, rfl⟩ := Option.map_eq_some_iff.1 hhead
    rw [keyName?_of_producer (toOption_eq_some_iff.1 hkey)]
    cases propertyName? key <;> rfl
  | propertyAccess access =>
    rw [hk] at hhead
    obtain ⟨key, hkey, rfl⟩ := Option.map_eq_some_iff.1 hhead
    rw [keyName?_of_producer (toOption_eq_some_iff.1 hkey)]
    cases propertyName? key <;> rfl
  | _ =>
    rw [hk] at hhead
    cases hhead <;> rfl

/-- A node can be written when it has a head and its operands can be written. -/
theorem writable_iff :
  b.Writable n
    ↔ (b.head? n).isSome ∧ ∀ slot ∈ b.operands n, ∃ p, b.Holds n slot p ∧ b.Writable p
  := by
  constructor
  · rintro ⟨e, @⟨_, h, _, feed, part, head, feeds, parts, build⟩⟩
    rw [head]
    use rfl
    intro slot hslot
    exact ⟨feed slot, (producer_eq_ok_iff.1 (feeds slot hslot)).1, part slot, parts slot hslot⟩
  · rintro ⟨hhead, hslots⟩
    obtain ⟨h, hhead⟩ := Option.isSome_iff_exists.1 hhead
    have : Nonempty Node := ⟨n⟩
    choose! feed hholds hwritable using hslots
    choose! part hparts using hwritable
    obtain ⟨e, he⟩ := Option.isSome_iff_exists.1
      (isSome_build?_of_head? hhead (List.length_map part))
    refine ⟨e, .node feed part hhead ?_ hparts he⟩
    intro slot hslot
    apply Writable.producer ⟨part slot, hparts slot hslot⟩ (hholds slot hslot)

/-! ## Functions that are named -/

/-- A function can be written. -/
theorem writable_of_isFunction (h : n.kind.isFunction = true) :
  b.Writable n
  := by
  rw [writable_iff]
  cases hk : n.kind with
  | functionDeclaration => simp [head?, operands, hk]
  | _ => simp [hk, Kind.isFunction] at h

/-- A reference can be written when it names a function. -/
theorem writable_iff_of_isReference (h : n.kind.isReference = true) :
  b.Writable n ↔ ∃ name, b.referencedFunction n = .ok name
  := by
  rw [writable_iff]
  cases hk : n.kind with
  | functionReference => simp [head?, operands, hk, isSome_toOption_iff]
  | _ => simp [hk, Kind.isReference] at h

/-- A reference names a function when a function is in its slot. -/
theorem isOk_referencedFunction_iff :
  (∃ name, b.referencedFunction n = .ok name) ↔ ∃ p, b.Holds n 0 p ∧ p.kind.isFunction = true
  := by
  simp only [referencedFunction_eq_ok_iff]
  constructor
  · rintro ⟨name, p, width, height, hp, hk⟩
    use p, hp
    rw [hk]
    rfl
  · rintro ⟨p, hp, hfun⟩
    cases hk : p.kind with
    | functionDeclaration name width height => exact ⟨name, p, width, height, hp, hk⟩
    | _ => simp [hk, Kind.isFunction] at hfun

/-- A call names a function when a function, or a reference that can be written, is in its first
slot. -/
theorem isOk_callee_iff :
  (∃ name, b.callee n = .ok name)
    ↔ ∃ p, b.Holds n 0 p ∧ (p.kind.isFunction = true ∨ p.kind.isReference = true) ∧ b.Writable p
  := by
  simp only [callee_eq_ok_iff]
  constructor
  · rintro ⟨name, p, hp, ⟨width, height, hk⟩ | ⟨⟨function, output, hk⟩, hname⟩⟩
    · have hfun : p.kind.isFunction = true := by rw [hk]; rfl
      exact ⟨p, hp, .inl hfun, writable_of_isFunction hfun⟩
    · have href : p.kind.isReference = true := by rw [hk]; rfl
      exact ⟨p, hp, .inr href, (writable_iff_of_isReference href).2 ⟨name, hname⟩⟩
  · rintro ⟨p, hp, hkind, hwritable⟩
    cases hk : p.kind with
    | functionDeclaration name width height => exact ⟨name, p, hp, .inl ⟨width, height, hk⟩⟩
    | functionReference function output =>
      have href : p.kind.isReference = true := by rw [hk]; rfl
      obtain ⟨name, hname⟩ := (writable_iff_of_isReference href).1 hwritable
      exact ⟨name, p, hp, .inr ⟨⟨function, output, hk⟩, hname⟩⟩
    | _ => simp [hk, Kind.isFunction, Kind.isReference] at hkind

/-! ## Nodes that are written in place -/

/-- A slot holds a node that can be written. -/
def Feeds (b : Board) (n : Node) (slot : Nat) : Prop :=
  ∃ p, b.Holds n slot p ∧ b.Writable p

/-- A complete node whose slots hold only what can be written. -/
theorem complete_and_writable_iff :
  (b.Complete n ∧ ∀ slot p, b.Holds n slot p → b.Writable p)
    ↔ b.Fits n ∧ ∀ slot < n.kind.inputs.length, b.Feeds n slot
  := by
  constructor
  · rintro ⟨⟨hfilled, hfits⟩, hwritable⟩
    use hfits
    intro slot hslot
    obtain ⟨p, hp⟩ := hfilled slot hslot
    exact ⟨p, hp, hwritable slot p hp⟩
  · rintro ⟨hfits, hfeeds⟩
    constructor
    · constructor
      · intro slot hslot
        obtain ⟨p, hp, -⟩ := hfeeds slot hslot
        exact ⟨p, hp⟩
      · exact hfits
    · intro slot p hp
      obtain ⟨q, hq, hwritable⟩ := hfeeds slot hp.slot_lt
      rwa [hp.unique hq]

/-- A reference fits when its slot holds a function. -/
theorem head_functionReference_iff {function output : Slot}
    (hk : n.kind = .functionReference function output) :
  (b.head? n).isSome ↔ b.Fits n ∧ b.Feeds n 0
  := by
  have hsome : (b.head? n).isSome ↔ ∃ name, b.referencedFunction n = .ok name := by
    simp only [head?, hk, Option.isSome_map, isSome_toOption_iff]
  rw [hsome, isOk_referencedFunction_iff]
  simp only [Fits, hk]
  constructor
  · rintro ⟨p, hp, hfun⟩
    constructor
    · intro q hq
      rwa [hq.unique hp]
    · exact ⟨p, hp, writable_of_isFunction hfun⟩
  · rintro ⟨hfun, p, hp, -⟩
    exact ⟨p, hp, hfun p hp⟩

/-- A call fits when its first slot holds what can be called. -/
theorem head_callExpression_iff {inputs : List Slot} {output : Slot}
    (hk : n.kind = .callExpression inputs output) :
  (b.head? n).isSome ↔ b.Fits n ∧ b.Feeds n 0
  := by
  have hsome : (b.head? n).isSome ↔ ∃ name, b.callee n = .ok name := by
    simp only [head?, hk, Option.isSome_map, isSome_toOption_iff]
  rw [hsome, isOk_callee_iff]
  simp only [Fits, hk]
  constructor
  · rintro ⟨p, hp, hkind, hwritable⟩
    refine ⟨⟨?_, ?_⟩, p, hp, hwritable⟩
    · rintro rfl
      have := hp.slot_lt
      simp [hk, Kind.inputs] at this
    · intro q hq
      rwa [hq.unique hp]
  · rintro ⟨⟨-, hkind⟩, p, hp, hwritable⟩
    exact ⟨p, hp, hkind p hp, hwritable⟩

/-- An access has a head when its key can be written, and then its operands are its slots, up to a
key that can be written anyway. -/
theorem head_access_iff
    (hk : ∃ access, n.kind = .elementAccess access ∨ n.kind = .propertyAccess access) :
  ((b.head? n).isSome ∧ ∀ slot ∈ b.operands n, b.Feeds n slot) ↔ b.Feeds n 0 ∧ b.Feeds n 1
  := by
  have hsome : (b.head? n).isSome ↔ ∃ key, b.producer n 1 = .ok key := by
    obtain ⟨access, hk | hk⟩ := hk <;>
      simp only [head?, hk, Option.isSome_map, isSome_toOption_iff]
  rw [hsome, operands_of_isAccess hk]
  constructor
  · rintro ⟨⟨key, hkey⟩, hfeeds⟩
    rw [keyName?_of_producer hkey] at hfeeds
    cases hname : propertyName? key with
    | none =>
      rw [hname] at hfeeds
      exact ⟨hfeeds 0 (by simp), hfeeds 1 (by simp)⟩
    | some name =>
      rw [hname] at hfeeds
      refine ⟨hfeeds 0 (by simp), key, (producer_eq_ok_iff.1 hkey).1, ?_⟩
      -- The key is a text.
      rw [propertyName?] at hname
      split at hname
      · next hk =>
        apply writable_iff.2
        simp [head?, operands, hk]
      · cases hname
  · rintro ⟨hzero, key, hkey, hwritable⟩
    refine ⟨⟨key, hwritable.producer hkey⟩, ?_⟩
    intro slot hslot
    split at hslot
    · rw [List.mem_singleton.1 hslot]
      exact hzero
    · simp only [List.mem_cons, List.not_mem_nil, or_false] at hslot
      rcases hslot with rfl | rfl
      · exact hzero
      · exact ⟨key, hkey, hwritable⟩

/-- Two slots are the first two. -/
theorem feeds_iff_forall_lt_two :
  (b.Feeds n 0 ∧ b.Feeds n 1) ↔ ∀ slot < 2, b.Feeds n slot
  := by
  constructor
  · rintro ⟨hzero, hone⟩ slot hslot
    obtain rfl | rfl : slot = 0 ∨ slot = 1 := by omega
    · exact hzero
    · exact hone
  · intro h
    exact ⟨h 0 Nat.zero_lt_two, h 1 Nat.one_lt_two⟩

/-- A node that is written in place can be written exactly when it is complete and all that its slots
hold can be written. -/
theorem writable_iff_complete (hbinding : n.kind.isBinding = false)
    (hret : n.kind.isReturn = false) :
  b.Writable n ↔ b.Complete n ∧ ∀ slot p, b.Holds n slot p → b.Writable p
  := by
  rw [complete_and_writable_iff]
  have hfeeds : b.Writable n ↔ (b.head? n).isSome ∧ ∀ slot ∈ b.operands n, b.Feeds n slot :=
    writable_iff
  rw [hfeeds]
  cases hk : n.kind with
  | functionDeclaration => simp [head?, operands, Fits, hk, Kind.inputs]
  | parameter => simp [head?, operands, Fits, hk, Kind.inputs]
  | numericLiteral => simp [head?, operands, Fits, hk, Kind.inputs]
  | stringLiteral => simp [head?, operands, Fits, hk, Kind.inputs]
  | functionReference =>
    rw [head_functionReference_iff hk]
    simp [operands, hk, Kind.inputs]
  | binaryExpression operator =>
    have hsome : (b.head? n).isSome ↔ b.Fits n := by
      simp only [head?, Fits, hk, Option.isSome_map, Operator.exists_token_iff]
    have hmem : ∀ slot, slot ∈ b.operands n ↔ slot < 2 := by
      intro slot
      simp only [operands, hk, List.mem_cons, List.not_mem_nil, or_false]
      omega
    simp only [hsome, hmem]
    rfl
  | conditionalExpression =>
    have hmem : ∀ slot, slot ∈ b.operands n ↔ slot < 3 := by
      intro slot
      simp only [operands, hk, List.mem_cons, List.not_mem_nil, or_false]
      omega
    simp only [head?, Fits, hk, hmem, Option.isSome_some]
    rfl
  | callExpression inputs =>
    rw [head_callExpression_iff hk]
    have hinputs : n.kind.inputs = inputs := by rw [hk]; rfl
    have hops : b.operands n = List.range' 1 (inputs.length - 1) := by simp only [operands, hk]
    rw [← hk, hinputs, hops]
    constructor
    · rintro ⟨⟨hfits, hzero⟩, hargs⟩
      use hfits
      intro slot hslot
      rcases Nat.eq_zero_or_pos slot with rfl | hpos
      · exact hzero
      · apply hargs
        rw [List.mem_range'_1]
        omega
    · rintro ⟨hfits, hall⟩
      have hne : inputs ≠ [] := by
        have := hfits
        simp only [Fits, hk] at this
        exact this.1
      refine ⟨⟨hfits, hall 0 (List.length_pos_of_ne_nil hne)⟩, ?_⟩
      intro slot hslot
      apply hall
      rw [List.mem_range'_1] at hslot
      omega
  | elementAccess access =>
    rw [head_access_iff ⟨access, .inl hk⟩, feeds_iff_forall_lt_two]
    simp only [Fits, hk, true_and]
    rfl
  | propertyAccess access =>
    rw [head_access_iff ⟨access, .inr hk⟩, feeds_iff_forall_lt_two]
    simp only [Fits, hk, true_and]
    rfl
  | identifier => simp [hk, Kind.isBinding] at hbinding
  | variableStatement => simp [hk, Kind.isBinding] at hbinding
  | returnStatement => simp [hk, Kind.isReturn] at hret

end Board

end Patchboard
