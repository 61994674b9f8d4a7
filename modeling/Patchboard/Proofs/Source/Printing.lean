import Patchboard.Proofs.Decimal.Shortest
import Patchboard.Proofs.Source.Grammar
import Patchboard.Proofs.Source.Spacing

/-!
# Written programs are derived by the grammar

The tokens of an expression are read by the grammar as that expression, at the level of its outermost
form. Parentheses are written around an operand exactly when this level is below the one that the
operand must have.
-/

namespace Patchboard

/-! ## Numbers with a sign -/

namespace Binary64

variable {b : Binary64}

theorem magnitude_negate (b : Binary64) :
  b.negate.magnitude = b.magnitude
  := by
  have hsign : (0x8000000000000000 : UInt64).toNat % 2 ^ 63 = 0 := by decide
  simp only [negate, magnitude, UInt64.toNat_xor]
  rw [show (0x8000000000000000 : Nat) = 2 ^ 63 by norm_num, Nat.xor_mod_two_pow, hsign, Nat.xor_zero]

theorem isNegative_negate (h : b.isNegative = true) :
  b.negate.isNegative = false
  := by
  have hlt : b.bits.toNat < 2 ^ 64 := b.bits.toNat_lt
  simp only [isNegative, ge_iff_le, UInt64.le_iff_toNat_le, decide_eq_true_eq] at h
  have hbits : b.bits.toNat / 2 ^ 63 = 1 := by
    have : (0x8000000000000000 : UInt64).toNat = 2 ^ 63 := by decide
    omega
  have hsign : (0x8000000000000000 : UInt64).toNat / 2 ^ 63 = 1 := by decide
  have hnegate : (b.bits ^^^ 0x8000000000000000).toNat / 2 ^ 63 = 0 := by
    rw [UInt64.toNat_xor, Nat.xor_div_two_pow, hbits, hsign, Nat.xor_self]
  simp only [isNegative, negate, ge_iff_le, UInt64.le_iff_toNat_le, decide_eq_false_iff_not]
  have : (0x8000000000000000 : UInt64).toNat = 2 ^ 63 := by decide
  omega

theorem negate_negate (b : Binary64) :
  b.negate.negate = b
  := by
  simp only [negate, UInt64.xor_assoc, UInt64.xor_self, UInt64.xor_zero]

end Binary64

/-- Which number a decimal rounds to depends on its value only. -/
theorem Decimal.RoundsTo.of_value_eq {d d' : Decimal} {b : Binary64} (h : d.RoundsTo b)
    (hvalue : d'.value = d.value) :
  d'.RoundsTo b
  := by
  constructor
  · exact h.positive
  · exact h.isNumber
  · rw [hvalue]
    exact h.nearest
  · rw [hvalue]
    exact h.even

/-- A function as its text shows it: without its return type when return types are not written. -/
def Function.shown (options : SourceOptions) (f : Function) : Function :=
  { f with returnType := if options.returnTypes then f.returnType else none }

/-- A program as its text shows it. -/
def Program.shown (options : SourceOptions) (p : Program) : Program :=
  ⟨p.functions.map (Function.shown options)⟩

namespace Grammar

open Lexeme (wrapped commaSeparated tokensOf tokensOf_append)

/-! ## Levels -/

/-- An expression of a level is one of every lower level. -/
theorem Derives.of_le {e : Expr} {ts : List Token} {j k : Nat} (h : Derives (.expr k e) ts)
    (hjk : j ≤ k) (hk : k ≤ 10) :
  Derives (.expr j e) ts
  := by
  obtain ⟨n, rfl⟩ := Nat.exists_eq_add_of_le hjk
  clear hjk
  induction n with
  | zero => exact h
  | succ n ih =>
    apply ih
    · exact .weaken (by omega) h
    · omega

/-- The level of the outermost form of an expression. -/
def levelOf : Expr → Nat
  | .literal (.number b) => if b.isNegative then 8 else 9
  | .binary _ op _ => op.precedence
  | .conditional .. => 0
  | _ => 10

theorem precedence_le (op : Operator) :
  op.precedence ≤ 7
  := by
  cases op <;> decide

theorem leftLevel_le (op : Operator) :
  leftLevel op ≤ 9
  := by
  cases op <;> decide

theorem rightLevel_le (op : Operator) :
  rightLevel op ≤ 8
  := by
  cases op <;> decide

/-- Apart from operations, conditionals and numbers every expression has the highest level. -/
theorem levelOf_cases (e : Expr) :
  (∃ left op right, e = .binary left op right)
    ∨ (∃ test consequent alternate, e = .conditional test consequent alternate)
    ∨ (∃ b, e = .literal (.number b)) ∨ levelOf e = 10
  := by
  cases e with
  | literal l =>
    cases l with
    | number b => exact .inr (.inr (.inl ⟨b, rfl⟩))
    | string s => exact .inr (.inr (.inr rfl))
  | binary left op right => exact .inl ⟨left, op, right, rfl⟩
  | conditional test consequent alternate =>
    exact .inr (.inl ⟨test, consequent, alternate, rfl⟩)
  | _ => exact .inr (.inr (.inr rfl))

theorem le_levelOf_number (b : Binary64) :
  8 ≤ levelOf (.literal (.number b))
  := by
  rw [levelOf]
  split
  · apply le_refl 8
  · apply Nat.le_succ 8

theorem levelOf_le (e : Expr) :
  levelOf e ≤ 10
  := by
  rcases levelOf_cases e with ⟨_, op, _, rfl⟩ | ⟨_, _, _, rfl⟩ | ⟨b, rfl⟩ | h
  · apply (precedence_le op).trans (by decide)
  · apply Nat.zero_le 10
  · rw [levelOf]
    split <;> decide
  · exact h.le

/-- An operand on the left that needs no parentheses has the level of one. -/
theorem leftLevel_le_levelOf {e : Expr} {op : Operator} (h : e.needsParensIn op .left = false) :
  leftLevel op ≤ levelOf e
  := by
  have hop := precedence_le op
  rcases levelOf_cases e with ⟨_, inner, _, rfl⟩ | ⟨_, _, _, rfl⟩ | ⟨b, rfl⟩ | he
  · -- No operation stands to the left of a power without parentheses.
    have hinner := precedence_le inner
    simp only [Expr.needsParensIn, Bool.or_eq_false_iff, decide_eq_false_iff_not,
      Bool.and_eq_false_iff, beq_eq_false_iff_ne] at h
    rw [leftLevel, levelOf]
    cases hassoc : op.isRightAssociative with
    | false =>
      rw [if_neg Bool.false_ne_true]
      omega
    | true =>
      have hexp : op.precedence = 7 := by
        cases op <;> first | rfl | exact absurd hassoc Bool.false_ne_true
      rcases h.2 with hne | hside
      · omega
      · exact absurd hside (by simp [hassoc])
  · exact absurd h (by simp [Expr.needsParensIn])
  · rw [leftLevel]
    cases hassoc : op.isRightAssociative with
    | false =>
      have := le_levelOf_number b
      rw [if_neg Bool.false_ne_true]
      omega
    | true =>
      have hexp : op = .exp := by
        cases op <;> first | rfl | exact absurd hassoc Bool.false_ne_true
      have hb : b.isNegative = false := by
        simpa [Expr.needsParensIn, hexp] using h
      rw [if_pos rfl, levelOf, hb, if_neg Bool.false_ne_true]
  · rw [he]
    apply (leftLevel_le op).trans (by decide)

/-- An operand on the right that needs no parentheses has the level of one. -/
theorem rightLevel_le_levelOf {e : Expr} {op : Operator} (h : e.needsParensIn op .right = false) :
  rightLevel op ≤ levelOf e
  := by
  rcases levelOf_cases e with ⟨_, inner, _, rfl⟩ | ⟨_, _, _, rfl⟩ | ⟨b, rfl⟩ | he
  · simp only [Expr.needsParensIn, Bool.or_eq_false_iff, decide_eq_false_iff_not,
      Bool.and_eq_false_iff, beq_eq_false_iff_ne] at h
    rw [rightLevel, levelOf]
    cases hassoc : op.isRightAssociative with
    | false =>
      rw [if_neg Bool.false_ne_true]
      rcases h.2 with hne | hside
      · omega
      · exact absurd hside (by simp [hassoc])
    | true =>
      rw [if_pos rfl]
      omega
  · exact absurd h (by simp [Expr.needsParensIn])
  · apply (rightLevel_le op).trans (le_levelOf_number b)
  · rw [he]
    apply (rightLevel_le op).trans (by decide)

/-- An object that needs no parentheses has the highest level. -/
theorem levelOf_object {e : Expr} (h : e.needsParensAsObject = false) :
  10 ≤ levelOf e
  := by
  rcases levelOf_cases e with ⟨_, _, _, rfl⟩ | ⟨_, _, _, rfl⟩ | ⟨b, rfl⟩ | he
  · exact absurd h (by simp [Expr.needsParensAsObject])
  · exact absurd h (by simp [Expr.needsParensAsObject])
  · exact absurd h (by simp [Expr.needsParensAsObject])
  · exact he.ge

/-- A test that needs no parentheses is above the level of conditionals. -/
theorem levelOf_test {e : Expr} (h : e.isConditional = false) :
  1 ≤ levelOf e
  := by
  rcases levelOf_cases e with ⟨_, op, _, rfl⟩ | ⟨_, _, _, rfl⟩ | ⟨b, rfl⟩ | he
  · rw [levelOf]
    cases op <;> decide
  · exact absurd h (by simp [Expr.isConditional])
  · apply le_trans (by decide) (le_levelOf_number b)
  · rw [he]
    decide

/-! ## Expressions -/

variable {e : Expr} {es : List Expr}

/-- An expression whose lexemes are derived at its own level is derived at any level, between
parentheses if there is need of them. -/
theorem derives_wrapped (h : Derives (.expr (levelOf e) e) (tokensOf e.lexemes)) {need : Bool}
    {level : Nat} (hlevel : level ≤ 10) (hneed : need = false → level ≤ levelOf e) :
  Derives (.expr level e) (tokensOf (wrapped need e.lexemes))
  := by
  have hle := levelOf_le e
  cases need with
  | false => exact h.of_le (hneed rfl) hle
  | true =>
    have hparens := Derives.parens (h.of_le (Nat.zero_le _) hle)
    have htokens : tokensOf (wrapped true e.lexemes)
        = .sign .openParen :: tokensOf e.lexemes ++ [.sign .closeParen] := by
      rw [wrapped, if_pos rfl, tokensOf_append]
      rfl
    rw [htokens]
    apply hparens.of_le hlevel (le_refl 10)

/-- The digits of a finite number are read as the number. -/
theorem derives_number {b : Binary64} (h : b.isFinite = true) :
  Derives (.expr (levelOf (.literal (.number b))) (.literal (.number b)))
    (Lexeme.number b).tokens
  := by
  have hrounds : ∀ c : Binary64, c.magnitude = b.magnitude → c.isNegative = false →
      (Decimal.scan (Layout.plain.writeDecimal (b.shortest Layout.plain.tie))).1.RoundsTo c := by
    intro c hmag hpos
    have hshortest : b.shortest Layout.plain.tie = c.shortest Layout.plain.tie := by
      rw [Binary64.shortest, Binary64.shortest, Binary64.parts_eq, Binary64.parts_eq, hmag]
    have hfinite : c.isFinite = true := by
      rw [Binary64.isFinite, hmag]
      exact h
    obtain ⟨d, hvalue, hd, -⟩ := @Lexeme.next?_digits b [] (by simp)
    rw [hd]
    apply (Binary64.shortest_roundsTo Layout.plain.tie hfinite hpos).of_value_eq
    rw [hvalue, hshortest]
  rw [levelOf, Lexeme.tokens]
  cases hb : b.isNegative with
  | false => exact .number (hrounds b rfl hb)
  | true =>
    have hnegative := Derives.negative
      (hrounds b.negate (Binary64.magnitude_negate b) (Binary64.isNegative_negate hb))
    rw [Binary64.negate_negate] at hnegative
    exact hnegative

theorem tokensOf_commaSeparated_cons (ls : List Lexeme) (lists : List (List Lexeme)) :
  tokensOf (commaSeparated (ls :: lists))
    = tokensOf ls ++ lists.flatMap fun ms => .sign .comma :: tokensOf ms
  := by
  induction lists generalizing ls with
  | nil => rw [commaSeparated, List.intercalate_singleton, List.flatMap_nil, List.append_nil]
  | cons ms lists ih =>
    rw [commaSeparated, List.intercalate_cons_cons, tokensOf_append, tokensOf_append,
      List.append_assoc, ← commaSeparated, ih, List.flatMap_cons]
    rfl

/-- The arguments of a call are derived when each of them is. -/
theorem derives_args (h : ∀ e ∈ es, Derives (.expr 0 e) (tokensOf e.lexemes)) :
  Derives (.args es) (tokensOf (commaSeparated (Expr.listLexemes es)))
  := by
  have hmore : ∀ es : List Expr, (∀ e ∈ es, Derives (.expr 0 e) (tokensOf e.lexemes)) →
      Derives (.moreArgs es)
        ((es.map Expr.lexemes).flatMap fun ms => .sign .comma :: tokensOf ms) := by
    intro es hes
    induction es with
    | nil => exact .noMoreArgs
    | cons e es ih =>
      apply Derives.someMoreArgs (hes e List.mem_cons_self)
      apply ih
      intro d hd
      apply hes d (List.mem_cons_of_mem e hd)
  rw [Expr.listLexemes_eq_map]
  cases es with
  | nil => exact .noArgs
  | cons e es =>
    rw [List.map_cons, tokensOf_commaSeparated_cons]
    apply Derives.someArgs (h e List.mem_cons_self)
    apply hmore
    intro d hd
    apply h d (List.mem_cons_of_mem e hd)

/-- The blanks around a sign are no tokens. -/
theorem tokensOf_blank_sign_blank (σ : Sign) :
  tokensOf [.blank, .sign σ.spelling, .blank] = [.sign σ]
  := by
  cases σ with
  | operator op => cases op <;> rfl
  | _ => rfl

/-- The tokens of a legible expression are derived at the level of its outermost form. -/
theorem derives_lexemes (h : e.Legible) :
  Derives (.expr (levelOf e) e) (tokensOf e.lexemes)
  := by
  induction e using Expr.induction with
  | literal l =>
    cases l with
    | number b =>
      have hb := derives_number h
      rw [← List.append_nil (Lexeme.tokens _)] at hb
      exact hb
    | string s => exact .text
  | ident name => exact .ident h
  | binary left op right ihl ihr =>
    have hleft : Derives (.expr (leftLevel op) left)
        (tokensOf (wrapped (left.needsParensIn op .left) left.lexemes)) := by
      apply derives_wrapped (ihl h.1) _ leftLevel_le_levelOf
      apply (leftLevel_le op).trans (by decide)
    have hright : Derives (.expr (rightLevel op) right)
        (tokensOf (wrapped (right.needsParensIn op .right) right.lexemes)) := by
      apply derives_wrapped (ihr h.2) _ rightLevel_le_levelOf
      apply (rightLevel_le op).trans (by decide)
    have hsign := tokensOf_blank_sign_blank (.operator op)
    simp only [Sign.spelling] at hsign
    rw [Expr.lexemes, tokensOf_append, tokensOf_append, hsign, List.append_assoc,
      List.singleton_append]
    exact .binary hleft hright
  | conditional test consequent alternate iht ihc iha =>
    have htest := derives_wrapped (iht h.1) (by decide) levelOf_test
    have hconsequent := (ihc h.2.1).of_le (Nat.zero_le _) (levelOf_le consequent)
    have halternate := (iha h.2.2).of_le (Nat.zero_le _) (levelOf_le alternate)
    have hquestion := tokensOf_blank_sign_blank .question
    have hcolon := tokensOf_blank_sign_blank .colon
    have hall := Derives.conditional htest hconsequent halternate
    simp only [Sign.spelling] at hquestion hcolon
    simp only [Expr.lexemes, tokensOf_append, hquestion, hcolon]
    simp only [List.append_assoc, List.cons_append] at hall ⊢
    exact hall
  | call callee args ihf iha =>
    have hcallee := derives_wrapped (ihf h.1) (le_refl 10) levelOf_object
    have hargs : Derives (.args args) (tokensOf (commaSeparated (Expr.listLexemes args))) := by
      apply derives_args
      intro e he
      apply (iha e he (Expr.allLegible_iff.mp h.2 e he)).of_le (Nat.zero_le _) (levelOf_le e)
    have hall := Derives.call hcallee hargs
    simp only [Expr.lexemes, tokensOf_append]
    exact hall
  | member object property ih =>
    have hobject := derives_wrapped (ih h.1) (le_refl 10) levelOf_object
    have hall := Derives.member hobject h.2
    rw [Expr.lexemes, tokensOf_append]
    exact hall
  | index object key iho ihk =>
    have hobject := derives_wrapped (iho h.1) (le_refl 10) levelOf_object
    have hkey := (ihk h.2).of_le (Nat.zero_le _) (levelOf_le key)
    have hall := Derives.index hobject hkey
    simp only [Expr.lexemes, tokensOf_append]
    exact hall

/-! ## Statements and functions -/

theorem derives_type (a : ValueType) :
  DerivesType a (tokensOf a.lexemes)
  := by
  obtain ⟨k, array⟩ := a
  cases array with
  | false => exact .one k
  | true => exact .list k

theorem derives_behindColon (a : Option ValueType) :
  DerivesBehindColon a (tokensOf (ValueType.behindColon a))
  := by
  cases a with
  | none => exact .none
  | some a => exact .some (derives_type a)

theorem derives_initial (h : e.Legible) :
  Derives (.expr 0 e) (tokensOf e.lexemes)
  := (derives_lexemes h).of_le (Nat.zero_le _) (levelOf_le e)

theorem derives_stmt (options : SourceOptions) {s : Stmt} (h : s.Legible) :
  DerivesStmt s (tokensOf (s.lexemes options))
  := by
  cases s with
  | const name type init =>
    have hequals := tokensOf_blank_sign_blank .equals
    have hall := DerivesStmt.const h.1 (derives_behindColon type) (derives_initial h.2)
    simp only [Sign.spelling] at hequals
    have hindent : ∀ ls, tokensOf (.blanks options.indentWidth :: ls) = tokensOf ls := fun _ => rfl
    rw [Stmt.lexemes, tokensOf_append, hindent, tokensOf_append, tokensOf_append, tokensOf_append,
      hequals, List.append_assoc _ [_], List.singleton_append]
    exact hall
  | ret value =>
    have hall := DerivesStmt.ret (derives_initial h)
    rw [Stmt.lexemes, tokensOf_append]
    exact hall

theorem derives_param {p : Param} (h : Text.isName p.name = true) :
  DerivesParam p (tokensOf p.lexemes)
  := .mk h (derives_type p.type)

section

variable {α : Type} {D : α → List Token → Prop} {lexemes : α → List Lexeme} {as : List α}

theorem derives_flatMap (h : ∀ a ∈ as, D a (tokensOf (lexemes a))) :
  DerivesAll D as (tokensOf (as.flatMap lexemes))
  := by
  induction as with
  | nil => exact .nil
  | cons a as ih =>
    rw [List.flatMap_cons, tokensOf_append]
    apply DerivesAll.cons (h a List.mem_cons_self)
    apply ih
    intro b hb
    apply h b (List.mem_cons_of_mem a hb)

theorem derives_separated (h : ∀ a ∈ as, D a (tokensOf (lexemes a))) :
  DerivesSeparated D as (tokensOf (commaSeparated (as.map lexemes)))
  := by
  have hmore : ∀ as : List α, (∀ a ∈ as, D a (tokensOf (lexemes a))) →
      DerivesAll (BehindComma D) as
        ((as.map lexemes).flatMap fun ms => .sign .comma :: tokensOf ms) := by
    intro as has
    induction as with
    | nil => exact .nil
    | cons a as ih =>
      apply DerivesAll.cons (.mk (has a List.mem_cons_self))
      apply ih
      intro b hb
      apply has b (List.mem_cons_of_mem a hb)
  cases as with
  | nil => exact .nil
  | cons a as =>
    rw [List.map_cons, tokensOf_commaSeparated_cons]
    apply DerivesSeparated.cons (h a List.mem_cons_self)
    apply hmore
    intro b hb
    apply h b (List.mem_cons_of_mem a hb)

end

theorem derives_function (options : SourceOptions) {f : Function} (h : f.Legible) :
  DerivesFunction (f.shown options) (tokensOf (f.lexemes options))
  := by
  have hparams : DerivesSeparated DerivesParam f.params
      (tokensOf (commaSeparated (f.params.map Param.lexemes))) := by
    apply derives_separated
    intro p hp
    apply derives_param (h.params p hp)
  have hbody : DerivesAll DerivesStmt f.body
      (tokensOf (f.body.flatMap (Stmt.lexemes options))) := by
    apply derives_flatMap
    intro s hs
    apply derives_stmt options (h.body s hs)
  have hreturn := derives_behindColon (if options.returnTypes then f.returnType else none)
  have hall := DerivesFunction.mk h.name hparams hreturn hbody
  have hcolon : ValueType.behindColon (if options.returnTypes then f.returnType else none)
      = if options.returnTypes then ValueType.behindColon f.returnType else [] := by
    cases options.returnTypes <;> rfl
  rw [hcolon] at hall
  simp only [Function.lexemes, Function.signatureLexemes, tokensOf_append]
  simp only [List.append_assoc, List.cons_append] at hall ⊢
  exact hall

theorem derives_functions (options : SourceOptions) {fs : List Function}
    (h : ∀ f ∈ fs, f.Legible) :
  DerivesAll DerivesFunction (fs.map (Function.shown options))
    (tokensOf (List.intercalate [.newline] (fs.map (Function.lexemes options))))
  := by
  induction fs with
  | nil => exact .nil
  | cons f fs ih =>
    have hf := derives_function options (h f List.mem_cons_self)
    have hfs := ih fun g hg => h g (List.mem_cons_of_mem f hg)
    cases fs with
    | nil =>
      rw [List.map_singleton, List.map_singleton, List.intercalate_singleton,
        ← List.append_nil (tokensOf _)]
      exact .cons hf .nil
    | cons g gs =>
      simp only [List.map_cons] at hfs ⊢
      rw [List.intercalate_cons_cons, List.append_assoc, tokensOf_append]
      exact .cons hf hfs

end Grammar

end Patchboard
