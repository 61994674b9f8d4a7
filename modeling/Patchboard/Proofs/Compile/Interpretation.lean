import Patchboard.Proofs.Compile.Expression

/-!
# Values of programs and of boards

An interpretation gives a meaning to literals, operators, calls and accesses. Under an interpretation
the statements of a function have a value, in an environment that gives values to names; a name that
has no value makes the execution fail. The nodes of a board have values as well, by recursion through
their slots: the board is read as a graph, without names for its bindings.
-/

namespace Patchboard

universe u

/-- A domain of values with the operations of the language. -/
structure Interpretation (V : Type u) where
  literal : Literal → V
  binary : Operator → V → V → V
  conditional : V → V → V → V
  call : V → List V → V
  member : V → String → V
  index : V → V → V

/-- The names that have values. -/
abbrev Environment (V : Type u) :=
  String → Option V

/-- One more name has a value. -/
def Environment.bind {V : Type u} (ρ : Environment V) (name : String) (v : V) : Environment V :=
  fun s => if s = name then some v else ρ s

namespace Interpretation

variable {V : Type u} (I : Interpretation V) (ρ : Environment V)

/-! ## Programs -/

mutual

/-- The value of an expression; none if it meets a name without a value. -/
def eval : Expr → Option V
  | .literal l => some (I.literal l)
  | .ident name => ρ name
  | .binary left op right => do return I.binary op (← eval left) (← eval right)
  | .conditional test consequent alternate => do
    return I.conditional (← eval test) (← eval consequent) (← eval alternate)
  | .call callee args => do return I.call (← eval callee) (← evalAll args)
  | .member object property => do return I.member (← eval object) property
  | .index object key => do return I.index (← eval object) (← eval key)

/-- The values of some expressions. -/
def evalAll : List Expr → Option (List V)
  | [] => some []
  | e :: es => do return (← eval e) :: (← evalAll es)

end

/-- The value that some statements return when they are executed in order. A declaration gives its
name the value of its expression. -/
def run (ρ : Environment V) : List Stmt → Option V
  | [] => none
  | .const name _ init :: ss => do run (ρ.bind name (← I.eval ρ init)) ss
  | .ret value :: _ => I.eval ρ value

/-! ## Boards -/

/-- The value of an access, given the name that it takes, if it takes one, and the values in its
slots. -/
def accessWith (slot : Nat → Option V) : Option String → Option V
  | some name => do return I.member (← slot 0) name
  | none => do return I.index (← slot 0) (← slot 1)

/-- The value of a node, given the values in its slots. Functions and parameters have the values of
their names; a binding, a reference and a return have the value in their slot. -/
def valueWith (b : Board) (slot : Nat → Option V) (n : Node) : Option V :=
  match n.kind with
  | .functionDeclaration name _ _ => ρ name
  | .parameter name _ _ _ => ρ name
  | .identifier _ | .variableStatement _ | .functionReference _ _ | .returnStatement _ _ _ => slot 0
  | .numericLiteral value _ => some (I.literal (.number value))
  | .stringLiteral value _ => some (I.literal (.string value))
  | .binaryExpression operator _ _ _ =>
    (Operator.ofToken? operator).bind fun op => do return I.binary op (← slot 0) (← slot 1)
  | .conditionalExpression _ _ _ _ => do
    return I.conditional (← slot 0) (← slot 1) (← slot 2)
  | .callExpression inputs _ => do
    return I.call (← slot 0) (← (List.range' 1 (inputs.length - 1)).mapM slot)
  | .elementAccess _ | .propertyAccess _ => I.accessWith slot (b.keyName? n)

/-- The value of a node, by recursion through the slots as far as this depth. -/
def value? (b : Board) : (depth : Nat) → Node → Option V
  | 0, _ => none
  | depth + 1, n =>
    I.valueWith ρ b (fun slot => ((n.kind.input slot).bind b.get?).bind (value? b depth)) n

/-- A node has a value: recursion through the slots comes to an end with it. -/
def HasValue (b : Board) (n : Node) (v : V) : Prop :=
  ∃ depth, I.value? ρ b depth n = some v

variable {I ρ} {b : Board} {n p : Node} {v v' : V}

/-- The values in some slots can be read when they can be read one by one. -/
theorem mapM_eq_some {slots : List Nat} {slot : Nat → Option V} {x : Nat → V}
    (h : ∀ i ∈ slots, slot i = some (x i)) :
  slots.mapM slot = some (slots.map x)
  := by
  induction slots with
  | nil => rfl
  | cons i slots ih =>
    obtain ⟨hi, hslots⟩ := List.forall_mem_cons.1 h
    rw [List.mapM_cons, hi, ih hslots]
    rfl

/-- The values that can be read from some slots can be read when more slots have values. -/
theorem mapM_mono {slots : List Nat} {slot slot' : Nat → Option V} {vs : List V}
    (h : ∀ i x, slot i = some x → slot' i = some x) (hvs : slots.mapM slot = some vs) :
  slots.mapM slot' = some vs
  := by
  induction slots generalizing vs with
  | nil => exact hvs
  | cons i slots ih =>
    rw [List.mapM_cons] at hvs ⊢
    obtain ⟨v, hv, hvs⟩ := Option.bind_eq_some_iff.1 hvs
    obtain ⟨vs', hvs', hvs⟩ := Option.bind_eq_some_iff.1 hvs
    rw [h i v hv, ih hvs']
    exact hvs

/-- A node that has a value keeps it when more slots have values. -/
theorem valueWith_mono {slot slot' : Nat → Option V}
    (h : ∀ i x, slot i = some x → slot' i = some x) (hv : I.valueWith ρ b slot n = some v) :
  I.valueWith ρ b slot' n = some v
  := by
  have one : ∀ {β : Type u} (i : Nat) (f f' : V → Option β) (y : β),
      (∀ x y, f x = some y → f' x = some y) → (slot i).bind f = some y →
      (slot' i).bind f' = some y := by
    intro β i f f' y hf hy
    obtain ⟨x, hx, hy⟩ := Option.bind_eq_some_iff.1 hy
    rw [h i x hx]
    apply hf x y hy
  have two : ∀ (f : V → V → V) (i j : Nat) (y : V),
      (do return f (← slot i) (← slot j)) = some y →
      (do return f (← slot' i) (← slot' j)) = some y := by
    intro f i j y
    apply one i
    intro x y
    apply one j
    intro x' y hy
    exact hy
  have access : ∀ key, I.accessWith slot key = some v → I.accessWith slot' key = some v := by
    intro key
    cases key with
    | some name =>
      apply one 0
      intro x y hy
      exact hy
    | none => apply two
  unfold valueWith at hv ⊢
  cases hk : n.kind with
  | functionDeclaration => simpa [hk] using hv
  | parameter => simpa [hk] using hv
  | identifier => exact h 0 v (by simpa [hk] using hv)
  | variableStatement => exact h 0 v (by simpa [hk] using hv)
  | functionReference => exact h 0 v (by simpa [hk] using hv)
  | returnStatement => exact h 0 v (by simpa [hk] using hv)
  | numericLiteral => simpa [hk] using hv
  | stringLiteral => simpa [hk] using hv
  | binaryExpression operator =>
    rw [hk] at hv
    obtain ⟨op, hop, hv⟩ := Option.bind_eq_some_iff.1 hv
    apply Option.bind_eq_some_iff.2
    exact ⟨op, hop, two _ 0 1 v hv⟩
  | conditionalExpression =>
    rw [hk] at hv
    revert hv
    apply one 0
    intro x y
    apply two
  | callExpression inputs =>
    rw [hk] at hv
    revert hv
    apply one 0
    intro x y hy
    obtain ⟨vs, hvs, hy⟩ := Option.bind_eq_some_iff.1 hy
    apply Option.bind_eq_some_iff.2
    exact ⟨vs, mapM_mono h hvs, hy⟩
  | elementAccess =>
    rw [hk] at hv
    apply access _ hv
  | propertyAccess =>
    rw [hk] at hv
    apply access _ hv

/-- A value stays when the recursion may go one level deeper. -/
theorem value?_succ {depth : Nat} (h : I.value? ρ b depth n = some v) :
  I.value? ρ b (depth + 1) n = some v
  := by
  induction depth generalizing n v with
  | zero => cases h
  | succ depth ih =>
    apply valueWith_mono _ h
    intro slot x hx
    obtain ⟨p, hp, hx⟩ := Option.bind_eq_some_iff.1 hx
    apply Option.bind_eq_some_iff.2
    exact ⟨p, hp, ih hx⟩

/-- A value stays when the recursion may go deeper. -/
theorem value?_of_le {depth depth' : Nat} (hle : depth ≤ depth')
    (h : I.value? ρ b depth n = some v) :
  I.value? ρ b depth' n = some v
  := by
  induction hle with
  | refl => exact h
  | step _ ih => exact value?_succ ih

/-- A node has at most one value. -/
theorem HasValue.unique (h : I.HasValue ρ b n v) (h' : I.HasValue ρ b n v') :
  v = v'
  := by
  obtain ⟨depth, hv⟩ := h
  obtain ⟨depth', hv'⟩ := h'
  have hmax := value?_of_le (Nat.le_max_left depth depth') hv
  rw [value?_of_le (Nat.le_max_right depth depth') hv'] at hmax
  apply (Option.some.inj hmax).symm

/-- The slots whose producers have values can be read together, when the recursion goes deep
enough. -/
theorem exists_depth {slots : List Nat} {x : Nat → V}
    (h : ∀ i ∈ slots, ∃ p, b.Holds n i p ∧ I.HasValue ρ b p (x i)) :
  ∃ depth, ∀ i ∈ slots, ((n.kind.input i).bind b.get?).bind (I.value? ρ b depth) = some (x i)
  := by
  induction slots with
  | nil => exact ⟨0, by simp⟩
  | cons i slots ih =>
    obtain ⟨⟨p, hp, d, hd⟩, hslots⟩ := List.forall_mem_cons.1 h
    obtain ⟨depth, hdepth⟩ := ih hslots
    use max d depth
    rw [List.forall_mem_cons]
    constructor
    · rw [hp.1, Option.bind_some, Board.get?_of_mem hp.2, Option.bind_some]
      apply value?_of_le (Nat.le_max_left d depth) hd
    · intro j hj
      obtain ⟨q, hq, hx⟩ := Option.bind_eq_some_iff.1 (hdepth j hj)
      rw [hq, Option.bind_some]
      apply value?_of_le (Nat.le_max_right d depth) hx

/-- A node has a value when the producers of the slots that it reads have values. -/
theorem HasValue.node (slots : List Nat) (x : Nat → V)
    (h : ∀ i ∈ slots, ∃ p, b.Holds n i p ∧ I.HasValue ρ b p (x i))
    (hv : ∀ slot : Nat → Option V, (∀ i ∈ slots, slot i = some (x i)) →
      I.valueWith ρ b slot n = some v) :
  I.HasValue ρ b n v
  := by
  obtain ⟨depth, hdepth⟩ := exists_depth h
  exact ⟨depth + 1, hv _ hdepth⟩

/-- Parts that have values have them together. -/
theorem evalAll_map {slots : List Nat} {part : Nat → Expr} {x : Nat → V}
    (h : ∀ i ∈ slots, I.eval ρ (part i) = some (x i)) :
  I.evalAll ρ (slots.map part) = some (slots.map x)
  := by
  induction slots with
  | nil => rfl
  | cons i slots ih =>
    obtain ⟨hi, hslots⟩ := List.forall_mem_cons.1 h
    rw [List.map_cons, evalAll, hi, ih hslots]
    rfl

end Interpretation

end Patchboard
