import Patchboard.Proofs.Source.Reading

/-!
# No parentheses of operands are redundant

The grammar takes an expression in the place of one of a higher level only between parentheses, so tokens
that are read as an expression have at least as many opening parentheses as are written for it. When the
parentheses around an operand, or around the test of a conditional, are taken out of a text, however deep
they stand, what is left is still spaced. So it is read as tokens with one opening parenthesis less, and
not as the expression.
-/

namespace Patchboard

/-! ## Where parentheses are written -/

namespace Grammar

variable {e : Expr} {op : Operator}

/-- An operand on the left stands between parentheses exactly when it is below the level of one. -/
theorem needsParensIn_left_eq :
  e.needsParensIn op .left = decide (levelOf e < leftLevel op)
  := by
  rw [Bool.eq_iff_iff, decide_eq_true_eq]
  constructor
  · intro h
    have hpos : 0 < leftLevel op := by cases op <;> decide
    cases e with
    | literal l =>
      cases l with
      | number b =>
        obtain ⟨rfl, hb⟩ : op = .exp ∧ b.isNegative = true := by
          simpa [Expr.needsParensIn] using h
        rw [levelOf, hb]
        decide
      | string s => exact absurd h Bool.false_ne_true
    | binary left inner right =>
      have hinner := precedence_le inner
      simp only [Expr.needsParensIn, Bool.or_eq_true, decide_eq_true_eq, Bool.and_eq_true,
        beq_iff_eq] at h
      rw [levelOf, leftLevel]
      cases hassoc : op.isRightAssociative with
      | true =>
        rw [if_pos rfl]
        omega
      | false =>
        rw [if_neg Bool.false_ne_true]
        rcases h with h | ⟨-, h⟩
        · exact h
        · exact absurd h (by simp [hassoc])
    | conditional test consequent alternate => exact hpos
    | _ => exact absurd h Bool.false_ne_true
  · intro h
    by_contra hneed
    have hle := leftLevel_le_levelOf (Bool.not_eq_true _ ▸ hneed)
    omega

/-- So does an operand on the right. -/
theorem needsParensIn_right_eq :
  e.needsParensIn op .right = decide (levelOf e < rightLevel op)
  := by
  rw [Bool.eq_iff_iff, decide_eq_true_eq]
  constructor
  · intro h
    have hpos : 0 < rightLevel op := by cases op <;> decide
    cases e with
    | literal l =>
      cases l with
      | number b => exact absurd h (by simp [Expr.needsParensIn])
      | string s => exact absurd h Bool.false_ne_true
    | binary left inner right =>
      simp only [Expr.needsParensIn, Bool.or_eq_true, decide_eq_true_eq, Bool.and_eq_true,
        beq_iff_eq] at h
      rw [levelOf, rightLevel]
      cases hassoc : op.isRightAssociative with
      | true =>
        rw [if_pos rfl]
        rcases h with h | ⟨-, h⟩
        · exact h
        · exact absurd h (by simp [hassoc])
      | false =>
        rw [if_neg Bool.false_ne_true]
        omega
    | conditional test consequent alternate => exact hpos
    | _ => exact absurd h Bool.false_ne_true
  · intro h
    by_contra hneed
    have hle := rightLevel_le_levelOf (Bool.not_eq_true _ ▸ hneed)
    omega

/-- An object stands between parentheses exactly when it is below the highest level. -/
theorem needsParensAsObject_eq :
  e.needsParensAsObject = decide (levelOf e < 10)
  := by
  rw [Bool.eq_iff_iff, decide_eq_true_eq]
  constructor
  · intro h
    cases e with
    | literal l =>
      cases l with
      | number b =>
        rw [levelOf]
        split <;> decide
      | string s => exact absurd h Bool.false_ne_true
    | binary left op right => exact Nat.lt_of_le_of_lt (precedence_le op) (by decide)
    | conditional test consequent alternate => exact Nat.zero_lt_succ 9
    | _ => exact absurd h Bool.false_ne_true
  · intro h
    by_contra hneed
    have hle := levelOf_object (Bool.not_eq_true _ ▸ hneed)
    omega

/-- A test stands between parentheses exactly when it is below the level of operations. -/
theorem isConditional_eq :
  e.isConditional = decide (levelOf e < 1)
  := by
  rw [Bool.eq_iff_iff, decide_eq_true_eq]
  constructor
  · intro h
    cases e with
    | conditional test consequent alternate => exact Nat.zero_lt_succ 0
    | _ => exact absurd h Bool.false_ne_true
  · intro h
    by_contra hneed
    have hle := levelOf_test (Bool.not_eq_true _ ▸ hneed)
    omega

end Grammar

/-! ## Counting parentheses -/

/-- The token is an opening parenthesis. -/
def Token.opens : Token → Bool
  | .sign .openParen => true
  | _ => false

namespace Lexeme

/-- How many opening parentheses there are in some lexemes. -/
def openings (ls : List Lexeme) : Nat :=
  (tokensOf ls).countP Token.opens

theorem openings_append (as bs : List Lexeme) :
  openings (as ++ bs) = openings as + openings bs
  := by
  rw [openings, tokensOf_append, List.countP_append]
  rfl

theorem openings_cons (l : Lexeme) (ls : List Lexeme) :
  openings (l :: ls) = openings [l] + openings ls
  := openings_append [l] ls

theorem openings_wrapped (need : Bool) (ls : List Lexeme) :
  openings (wrapped need ls) = openings ls + if need then 1 else 0
  := by
  cases need with
  | false => rfl
  | true =>
    rw [wrapped, if_pos rfl, List.cons_append, openings_cons, openings_append]
    exact Nat.add_comm 1 _

/-- A sign between blanks is no parenthesis unless it is spelled like one. -/
theorem openings_blank_sign_blank {σ : Sign} (h : (Token.sign σ).opens = false) :
  openings [blank, sign σ.spelling, blank] = 0
  := by
  rw [openings, Grammar.tokensOf_blank_sign_blank, List.countP_singleton, h]
  rfl

theorem openings_commaSeparated (lists : List (List Lexeme)) :
  openings (commaSeparated lists) = (lists.map openings).sum
  := by
  induction lists with
  | nil => rfl
  | cons ls lists ih =>
    cases lists with
    | nil => simp [commaSeparated]
    | cons ms lists =>
      rw [commaSeparated, List.intercalate_cons_cons, openings_append, openings_append,
        ← commaSeparated, ih, List.map_cons, List.sum_cons]
      rfl

end Lexeme

namespace Grammar

open Lexeme

/-- How many opening parentheses are written for an expression in the place of one of a level. -/
def openingsIn (level : Nat) (e : Expr) : Nat :=
  openings e.lexemes + if levelOf e < level then 1 else 0

theorem openingsIn_zero (e : Expr) :
  openingsIn 0 e = openings e.lexemes
  := rfl

/-- At the level of its outermost form an expression needs no parentheses around it. -/
theorem openingsIn_of_le {level : Nat} {e : Expr} (h : level ≤ levelOf e) :
  openingsIn level e = openings e.lexemes
  := by
  rw [openingsIn, if_neg (Nat.not_lt.2 h)]
  rfl

theorem openings_number (b : Binary64) :
  openings (Expr.literal (.number b)).lexemes = 0
  := by
  show ((Lexeme.number b).tokens ++ []).countP Token.opens = 0
  rw [List.append_nil, Lexeme.tokens]
  cases b.isNegative <;> rfl

theorem openings_binary (left right : Expr) (op : Operator) :
  openings (Expr.binary left op right).lexemes
    = openingsIn (leftLevel op) left + openingsIn (rightLevel op) right
  := by
  have hsign : openings [blank, sign op.token, blank] = 0 :=
    openings_blank_sign_blank (σ := .operator op) rfl
  rw [Expr.lexemes, openings_append, openings_append, openings_wrapped, openings_wrapped, hsign]
  simp only [needsParensIn_left_eq, needsParensIn_right_eq, decide_eq_true_eq]
  rfl

theorem openings_conditional (test consequent alternate : Expr) :
  openings (Expr.conditional test consequent alternate).lexemes
    = openingsIn 1 test + openings consequent.lexemes + openings alternate.lexemes
  := by
  have hquestion : openings [blank, sign "?", blank] = 0 := rfl
  have hcolon : openings [blank, sign ":", blank] = 0 := rfl
  rw [Expr.lexemes, openings_append, openings_append, openings_append, openings_append,
    openings_wrapped, hquestion, hcolon]
  simp only [isConditional_eq, decide_eq_true_eq]
  rfl

theorem openings_call (callee : Expr) (args : List Expr) :
  openings (Expr.call callee args).lexemes
    = openingsIn 10 callee + 1 + (args.map fun e => openings e.lexemes).sum
  := by
  have hparen : openings [sign "("] = 1 := rfl
  rw [Expr.lexemes, openings_append, openings_append, openings_cons, openings_wrapped,
    openings_commaSeparated, Expr.listLexemes_eq_map, List.map_map, hparen]
  simp only [needsParensAsObject_eq, decide_eq_true_eq]
  exact (Nat.add_assoc _ _ _).symm

theorem openings_member (object : Expr) (property : String) :
  openings (Expr.member object property).lexemes = openingsIn 10 object
  := by
  rw [Expr.lexemes, openings_append, openings_wrapped]
  simp only [needsParensAsObject_eq, decide_eq_true_eq]
  rfl

theorem openings_index (object key : Expr) :
  openings (Expr.index object key).lexemes = openingsIn 10 object + openings key.lexemes
  := by
  have hbracket : openings [sign "["] = 0 := rfl
  rw [Expr.lexemes, openings_append, openings_append, openings_cons, openings_wrapped, hbracket,
    Nat.zero_add]
  simp only [needsParensAsObject_eq, decide_eq_true_eq]
  rfl

/-- How many opening parentheses are written for a phrase. -/
def Phrase.openings : Phrase → Nat
  | .expr level e => openingsIn level e
  | .args es | .moreArgs es => (es.map fun e => Lexeme.openings e.lexemes).sum

/-- Tokens that are read as a phrase have at least as many opening parentheses as are written for it. -/
theorem openings_le {p : Phrase} {ts : List Token} (h : Derives p ts) :
  p.openings ≤ ts.countP Token.opens
  := by
  induction h with
  | ident _ => exact Nat.zero_le _
  | text => exact Nat.zero_le _
  | parens _ ih =>
    simp only [Phrase.openings, openingsIn_zero] at ih
    simp only [Phrase.openings, openingsIn, List.cons_append, List.countP_cons, List.countP_append,
      List.countP_nil, Token.opens]
    split <;> simp only [if_true, Bool.false_eq_true, if_false] <;> omega
  | call _ _ ihcallee ihargs =>
    simp only [Phrase.openings] at ihcallee ihargs ⊢
    rw [openingsIn_of_le (le_refl 10), openings_call]
    simp only [List.countP_append, List.countP_cons, List.countP_nil, Token.opens, if_true,
      Bool.false_eq_true, if_false]
    omega
  | member _ _ ih =>
    simp only [Phrase.openings] at ih ⊢
    rw [openingsIn_of_le (le_refl 10), openings_member]
    simpa [Token.opens] using ih
  | index _ _ ihobject ihkey =>
    simp only [Phrase.openings, openingsIn_zero] at ihobject ihkey ⊢
    rw [openingsIn_of_le (le_refl 10), openings_index]
    simp only [List.countP_append, List.countP_cons, List.countP_nil, Token.opens,
      Bool.false_eq_true, if_false]
    omega
  | @number d b hrounds =>
    have hlevel : 9 ≤ levelOf (.literal (.number b)) := by
      rw [levelOf, hrounds.positive, if_neg Bool.false_ne_true]
    rw [Phrase.openings, openingsIn_of_le hlevel, openings_number]
    exact Nat.zero_le _
  | negative _ =>
    rw [Phrase.openings, openingsIn_of_le (le_levelOf_number _), openings_number]
    exact Nat.zero_le _
  | @binary left op right _ _ _ _ ihl ihr =>
    have hlevel : op.precedence ≤ levelOf (.binary left op right) := le_refl op.precedence
    simp only [Phrase.openings] at ihl ihr ⊢
    rw [openingsIn_of_le hlevel, openings_binary]
    simp only [List.countP_append, List.countP_cons, Token.opens, Bool.false_eq_true, if_false]
    omega
  | conditional _ _ _ iht ihc iha =>
    simp only [Phrase.openings, openingsIn_zero] at iht ihc iha ⊢
    rw [openings_conditional]
    simp only [List.countP_append, List.countP_cons, Token.opens, Bool.false_eq_true, if_false]
    omega
  | weaken hlevel _ ih =>
    simp only [Phrase.openings, openingsIn] at ih ⊢
    split at ih <;> split <;> omega
  | noArgs => exact Nat.zero_le _
  | someArgs _ _ ih ihs =>
    simp only [Phrase.openings, openingsIn_zero] at ih ihs ⊢
    simp only [List.map_cons, List.sum_cons, List.countP_append]
    omega
  | noMoreArgs => exact Nat.zero_le _
  | someMoreArgs _ _ ih ihs =>
    simp only [Phrase.openings, openingsIn_zero] at ih ihs ⊢
    simp only [List.map_cons, List.sum_cons, List.countP_append, List.countP_cons, Token.opens,
      Bool.false_eq_true, if_false]
    omega

end Grammar

/-! ## Pairs of parentheses -/

namespace Lexeme

/-- The parenthesis before lexemes, if there is need of one. -/
def opening (need : Bool) : List Lexeme :=
  if need then [sign "("] else []

/-- The parenthesis behind lexemes, if there is need of one. -/
def closing (need : Bool) : List Lexeme :=
  if need then [sign ")"] else []

theorem wrapped_eq (need : Bool) (ls : List Lexeme) :
  wrapped need ls = opening need ++ ls ++ closing need
  := by
  cases need with
  | false => exact (List.append_nil ls).symm
  | true => rfl

/-- A part of a list stands between commas. -/
theorem commaSeparated_append_cons (front back : List (List Lexeme)) (ls : List Lexeme) :
  commaSeparated (front ++ ls :: back)
    = (front.flatMap fun ms => ms ++ [sign ",", blank]) ++ ls
      ++ back.flatMap fun ms => [sign ",", blank] ++ ms
  := by
  induction front with
  | nil =>
    induction back generalizing ls with
    | nil => simp [commaSeparated]
    | cons ms back ih =>
      have hms := ih ms
      rw [List.nil_append] at hms ⊢
      rw [commaSeparated, List.intercalate_cons_cons, ← commaSeparated, hms]
      simp
  | cons ms front ih =>
    have hne : ∃ ms' rest, front ++ ls :: back = ms' :: rest := by
      cases front <;> exact ⟨_, _, rfl⟩
    obtain ⟨ms', rest, hcons⟩ := hne
    rw [List.cons_append, hcons, commaSeparated, List.intercalate_cons_cons, ← commaSeparated, ← hcons,
      ih]
    simp

end Lexeme

namespace Expr

open Lexeme

/-- A part of an expression, with the lexemes before it and behind it. It is an operand, or a test, or
stands elsewhere; and it stands between parentheses if there is need of them. -/
inductive Site : Expr → Expr → (operand need : Bool) → (before after : List Lexeme) → Prop where
  | left {left op right} :
    Site (.binary left op right) left true (left.needsParensIn op .left) []
      ([blank, sign op.token, blank] ++ wrapped (right.needsParensIn op .right) right.lexemes)
  | right {left op right} :
    Site (.binary left op right) right true (right.needsParensIn op .right)
      (wrapped (left.needsParensIn op .left) left.lexemes ++ [blank, sign op.token, blank]) []
  | test {test consequent alternate} :
    Site (.conditional test consequent alternate) test true test.isConditional []
      ([blank, sign "?", blank] ++ consequent.lexemes ++ [blank, sign ":", blank] ++ alternate.lexemes)
  | consequent {test consequent alternate} :
    Site (.conditional test consequent alternate) consequent false false
      (wrapped test.isConditional test.lexemes ++ [blank, sign "?", blank])
      ([blank, sign ":", blank] ++ alternate.lexemes)
  | alternate {test consequent alternate} :
    Site (.conditional test consequent alternate) alternate false false
      (wrapped test.isConditional test.lexemes ++ [blank, sign "?", blank] ++ consequent.lexemes
        ++ [blank, sign ":", blank]) []
  | callee {callee args} :
    Site (.call callee args) callee false callee.needsParensAsObject []
      (sign "(" :: commaSeparated (listLexemes args) ++ [sign ")"])
  | arg {callee arg} {front back : List Expr} :
    Site (.call callee (front ++ arg :: back)) arg false false
      (wrapped callee.needsParensAsObject callee.lexemes
        ++ sign "(" :: front.flatMap fun e => e.lexemes ++ [sign ",", blank])
      ((back.flatMap fun e => [sign ",", blank] ++ e.lexemes) ++ [sign ")"])
  | memberObject {object property} :
    Site (.member object property) object false object.needsParensAsObject []
      [sign ".", word property]
  | indexObject {object key} :
    Site (.index object key) object false object.needsParensAsObject []
      (sign "[" :: key.lexemes ++ [sign "]"])
  | key {object key} :
    Site (.index object key) key false false
      (wrapped object.needsParensAsObject object.lexemes ++ [sign "["]) [sign "]"]

/-- A pair of parentheses around an operand or a test, at any depth: the lexemes before it, those between
the parentheses, and those behind. -/
inductive Pair : Expr → (before inside after : List Lexeme) → Prop where
  | here {e part need before after} (h : Site e part true need before after) (hneed : need = true) :
    Pair e before part.lexemes after
  | within {e part operand need before after first inside last}
      (h : Site e part operand need before after) (hpair : Pair part first inside last) :
    Pair e (before ++ opening need ++ first) inside (last ++ closing need ++ after)

variable {e part : Expr} {operand need : Bool} {before inside after : List Lexeme} {rest : List Char}

/-- The lexemes of an expression are those of a part, with others around them. -/
theorem Site.lexemes_eq (h : Site e part operand need before after) :
  e.lexemes = before ++ wrapped need part.lexemes ++ after
  := by
  cases h with
  | arg =>
    rw [lexemes, listLexemes_eq_map, List.map_append, List.map_cons, commaSeparated_append_cons,
      List.flatMap_map, List.flatMap_map]
    simp [wrapped]
  | _ => simp [lexemes, wrapped]

theorem Site.legible (h : Site e part operand need before after) (he : e.Legible) :
  part.Legible
  := by
  cases h with
  | left => exact he.1
  | right => exact he.2
  | test => exact he.1
  | consequent => exact he.2.1
  | alternate => exact he.2.2
  | callee => exact he.1
  | arg => exact allLegible_iff.1 he.2 part (by simp)
  | memberObject => exact he.1
  | indexObject => exact he.1
  | key => exact he.2

/-- The lexemes of an expression are those of a pair of parentheses, with others around and between them. -/
theorem Pair.lexemes_eq (h : e.Pair before inside after) :
  e.lexemes = before ++ sign "(" :: inside ++ sign ")" :: after
  := by
  induction h with
  | here h hneed =>
    rw [h.lexemes_eq, hneed]
    simp [wrapped]
  | within h _ ih =>
    rw [h.lexemes_eq, wrapped_eq, ih]
    simp

/-! ## Spaces without a pair -/

/-- What follows ends the expression. Only where it may end in a number a dot would not. -/
structure EndedBy (e : Expr) (rest : List Char) : Prop where
  ends : Ends rest
  endsNumber : e.needsParensAsObject = true → EndsNumber rest

theorem Apart.spaced_of_endedBy (h : e.Apart) (hrest : e.EndedBy rest) :
  Spaced e.lexemes rest
  := h rest hrest.ends hrest.endsNumber

theorem endedBy_of_endsNumber (h : EndsNumber rest) :
  e.EndedBy rest
  := ⟨h.ends, fun _ => h⟩

theorem endsNumber_blank (rest : List Char) :
  EndsNumber (' ' :: rest)
  := endsNumber_cons (by decide) (by decide)

theorem spaced_operator (op : Operator) (rest : List Char) :
  Spaced [blank, sign op.token, blank] rest
  := ⟨trivial, apart_spelling_blank (.operator op) rest, trivial, trivial⟩

/-- Arguments with a comma behind each are spaced whatever follows. -/
theorem spaced_front {es : List Expr} (h : ∀ e ∈ es, e.Legible) (rest : List Char) :
  Spaced (es.flatMap fun e => e.lexemes ++ [sign ",", blank]) rest
  := by
  induction es with
  | nil => trivial
  | cons e es ih =>
    rw [List.flatMap_cons, spaced_append, spaced_append]
    refine ⟨⟨?_, apart_spelling .comma rfl _, trivial, trivial⟩, ?_⟩
    · apply (apart_of_legible (h e List.mem_cons_self)).spaced
      apply endsNumber_cons (by decide) (by decide)
    · apply ih
      intro d hd
      apply h d (List.mem_cons_of_mem e hd)

/-- What follows an argument is a comma or the end of the arguments. -/
theorem endsNumber_back (es : List Expr) (hrest : EndsNumber rest) :
  EndsNumber (charsOf (es.flatMap fun e => [sign ",", blank] ++ e.lexemes) ++ rest)
  := by
  cases es with
  | nil => exact hrest
  | cons e es => exact endsNumber_cons (by decide) (by decide)

theorem spaced_back {es : List Expr} (h : ∀ e ∈ es, e.Legible) (hrest : EndsNumber rest) :
  Spaced (es.flatMap fun e => [sign ",", blank] ++ e.lexemes) rest
  := by
  induction es with
  | nil => trivial
  | cons e es ih =>
    rw [List.flatMap_cons, spaced_append, spaced_append]
    refine ⟨⟨⟨apart_spelling .comma rfl _, trivial, trivial⟩, ?_⟩, ?_⟩
    · apply (apart_of_legible (h e List.mem_cons_self)).spaced
      apply endsNumber_back es hrest
    · apply ih
      intro d hd
      apply h d (List.mem_cons_of_mem e hd)

section

variable (h : Site e part operand need before after)

include h

/-- What stands before a part is spaced whatever the part begins with. -/
theorem Site.spaced_before (he : e.Legible) (rest : List Char) :
  Spaced before rest
  := by
  cases h with
  | left => trivial
  | right =>
    rw [spaced_append]
    exact ⟨(apart_of_legible he.1).operand (endsNumber_blank _), spaced_operator _ rest⟩
  | test => trivial
  | consequent =>
    rw [spaced_append]
    exact ⟨(apart_of_legible he.1).operand (endsNumber_blank _), trivial,
      apart_spelling .question rfl _, trivial, trivial⟩
  | alternate =>
    rw [spaced_append, spaced_append, spaced_append]
    exact ⟨⟨⟨(apart_of_legible he.1).operand (endsNumber_blank _), trivial,
      apart_spelling .question rfl _, trivial, trivial⟩,
      (apart_of_legible he.2.1).spaced (endsNumber_blank _)⟩, trivial,
      apart_spelling .colon rfl _, trivial, trivial⟩
  | callee => trivial
  | arg =>
    rw [spaced_append]
    refine ⟨(apart_of_legible he.1).object (ends_cons (by decide)), apart_spelling .openParen rfl _, ?_⟩
    apply spaced_front
    intro d hd
    apply allLegible_iff.1 he.2 d (by simp [hd])
  | memberObject => trivial
  | indexObject => trivial
  | key =>
    rw [spaced_append]
    exact ⟨(apart_of_legible he.1).object (ends_cons (by decide)), apart_spelling .openBracket rfl _,
      trivial⟩

/-- What stands behind a part is spaced when the expression is ended. -/
theorem Site.spaced_after (he : e.Legible) (hrest : e.EndedBy rest) :
  Spaced after rest
  := by
  cases h with
  | left =>
    rw [spaced_append]
    exact ⟨spaced_operator _ _, (apart_of_legible he.2).operand (hrest.endsNumber rfl)⟩
  | right => trivial
  | test =>
    rw [spaced_append, spaced_append, spaced_append]
    exact ⟨⟨⟨⟨trivial, apart_spelling .question rfl _, trivial, trivial⟩,
      (apart_of_legible he.2.1).spaced (endsNumber_blank _)⟩, trivial,
      apart_spelling .colon rfl _, trivial, trivial⟩,
      (apart_of_legible he.2.2).spaced (hrest.endsNumber rfl)⟩
  | consequent =>
    rw [spaced_append]
    exact ⟨⟨trivial, apart_spelling .colon rfl _, trivial, trivial⟩,
      (apart_of_legible he.2.2).spaced (hrest.endsNumber rfl)⟩
  | alternate => trivial
  | callee =>
    refine ⟨apart_spelling .openParen rfl _, spaced_append.2 ⟨?_, apart_spelling .closeParen rfl _,
      trivial⟩⟩
    rw [listLexemes_eq_map]
    apply spaced_commaSeparated
    · intro ls hls rest' hrest'
      obtain ⟨d, hd, rfl⟩ := List.mem_map.1 hls
      exact (apart_of_legible (allLegible_iff.1 he.2 d hd)).spaced hrest'
    · apply endsNumber_cons (by decide) (by decide)
  | @arg callee arg front back =>
    rw [spaced_append]
    refine ⟨?_, apart_spelling .closeParen rfl _, trivial⟩
    apply spaced_back
    · intro d hd
      apply allLegible_iff.1 he.2 d (by simp [hd])
    · apply endsNumber_cons (by decide) (by decide)
  | memberObject => exact ⟨apart_spelling .dot rfl _, apart_word he.2 hrest.ends, trivial⟩
  | indexObject =>
    refine ⟨apart_spelling .openBracket rfl _, spaced_append.2 ⟨?_, apart_spelling .closeBracket rfl _,
      trivial⟩⟩
    apply (apart_of_legible he.2).spaced
    apply endsNumber_cons (by decide) (by decide)
  | key => exact ⟨apart_spelling .closeBracket rfl _, trivial⟩

/-- What stands behind an operand or a test ends a number. -/
theorem Site.endsNumber_after (hoperand : operand = true) (hrest : e.EndedBy rest) :
  EndsNumber (charsOf after ++ rest)
  := by
  cases h with
  | left => exact endsNumber_blank _
  | right => exact hrest.endsNumber rfl
  | test => exact endsNumber_blank _
  | _ => exact absurd hoperand Bool.false_ne_true

/-- What stands behind a part without parentheses ends the part. -/
theorem Site.endedBy_after (hneed : need = false) (hrest : e.EndedBy rest) :
  part.EndedBy (charsOf after ++ rest)
  := by
  cases h with
  | left => exact endedBy_of_endsNumber (endsNumber_blank _)
  | right => exact endedBy_of_endsNumber (hrest.endsNumber rfl)
  | test => exact endedBy_of_endsNumber (endsNumber_blank _)
  | consequent => exact endedBy_of_endsNumber (endsNumber_blank _)
  | alternate => exact endedBy_of_endsNumber (hrest.endsNumber rfl)
  | callee => exact endedBy_of_endsNumber (endsNumber_cons (by decide) (by decide))
  | arg =>
    apply endedBy_of_endsNumber
    rw [charsOf_append, List.append_assoc]
    apply endsNumber_back
    apply endsNumber_cons (by decide) (by decide)
  | memberObject =>
    refine ⟨ends_cons (by decide), fun hobject => ?_⟩
    rw [hneed] at hobject
    exact absurd hobject Bool.false_ne_true
  | indexObject => exact endedBy_of_endsNumber (endsNumber_cons (by decide) (by decide))
  | key => exact endedBy_of_endsNumber (endsNumber_cons (by decide) (by decide))

end

/-- Without a pair of parentheses around an operand or a test an expression is still spaced. -/
theorem Pair.spaced (h : e.Pair before inside after) (he : e.Legible) (hrest : e.EndedBy rest) :
  Spaced (before ++ inside ++ after) rest
  := by
  induction h generalizing rest with
  | here h _ =>
    rw [spaced_append, spaced_append]
    refine ⟨⟨h.spaced_before he _, ?_⟩, h.spaced_after he hrest⟩
    exact (apart_of_legible (h.legible he)).spaced (h.endsNumber_after rfl hrest)
  | @within e part operand need before after first inside last h _ ih =>
    have hshape : before ++ opening need ++ first ++ inside ++ (last ++ closing need ++ after)
        = before ++ wrapped need (first ++ inside ++ last) ++ after := by
      rw [wrapped_eq]
      simp
    rw [hshape, spaced_append, spaced_append]
    refine ⟨⟨h.spaced_before he _, ?_⟩, h.spaced_after he hrest⟩
    apply spaced_wrapped
    · intro rest' hrest'
      exact ih (h.legible he) (endedBy_of_endsNumber hrest')
    · intro hneed
      exact ih (h.legible he) (h.endedBy_after hneed hrest)

end Expr

/-! ## Texts without a pair -/

namespace Grammar

/-- The text is read as the expression. -/
def ReadsExpr (text : String) (e : Expr) : Prop :=
  ∃ ts, Scans text.toList ts ∧ Derives (.expr 0 e) ts

end Grammar

namespace Expr

open Grammar Lexeme

theorem endedBy_nil (e : Expr) :
  e.EndedBy []
  := by
  constructor
  · intro c hc
    cases hc
  · intro _ c hc
    cases hc

/-- Spaced lexemes are read as the expressions that their tokens are derived as. -/
theorem readsExpr_source_iff {ls : List Lexeme} (h : Spaced ls []) (e : Expr) :
  ReadsExpr (source ls) e ↔ Derives (.expr 0 e) (tokensOf ls)
  := by
  have hscans : Scans (source ls).toList (tokensOf ls) := by
    have hscans := scans_of_spaced h .nil
    rw [List.append_nil, List.append_nil] at hscans
    rwa [source, String.toList_ofList]
  constructor
  · rintro ⟨ts, hts, hderives⟩
    rwa [hts.unique hscans] at hderives
  · intro hderives
    exact ⟨_, hscans, hderives⟩

/-- The parentheses around operands and tests are needed. The text of an expression is read as the
expression. When the parentheses around an operand of an operator or around the test of a conditional
are taken out of it, wherever in the expression they stand, what is left is read as another expression
or not at all. -/
theorem ne_of_readsExpr_without_pair {e : Expr} (he : e.Legible) {before inside after : List Lexeme}
    (h : e.Pair before inside after) :
  source e.lexemes = source before ++ "(" ++ source inside ++ ")" ++ source after
  ∧ ReadsExpr (source e.lexemes) e
  ∧ ∀ d, ReadsExpr (source before ++ source inside ++ source after) d → d ≠ e
  := by
  refine ⟨?_, ?_, ?_⟩
  · have hopening : source (sign "(" :: inside) = "(" ++ source inside := source_append [sign "("] inside
    have hclosing : source (sign ")" :: after) = ")" ++ source after := source_append [sign ")"] after
    rw [h.lexemes_eq, source_append, source_append, hopening, hclosing]
    simp only [String.append_assoc]
  · rw [readsExpr_source_iff ((apart_of_legible he).spaced_of_endedBy e.endedBy_nil)]
    exact derives_initial he
  · rintro d hreads rfl
    rw [← source_append, ← source_append, readsExpr_source_iff (h.spaced he d.endedBy_nil)] at hreads
    have hle := openings_le hreads
    rw [Phrase.openings, openingsIn_zero, h.lexemes_eq] at hle
    have hcount : openings (before ++ sign "(" :: inside ++ sign ")" :: after)
        = openings (before ++ inside ++ after) + 1 := by
      have hopening : openings [sign "("] = 1 := rfl
      have hclosing : openings [sign ")"] = 0 := rfl
      simp only [openings_append, openings_cons _ inside, openings_cons _ after, hopening, hclosing]
      omega
    rw [hcount] at hle
    exact Nat.not_succ_le_self _ hle

/-- A call with a power of a negative number, which stands between parentheses. -/
def powerOfNegative : Expr :=
  .call (.ident "f") [.ident "y", .binary (.literal (.number ⟨0xC000000000000000⟩)) .exp (.ident "x")]

/-- A test that is a conditional itself, as an operand. -/
def testOfTest : Expr :=
  .binary (.ident "a") .add
    (.conditional (.conditional (.ident "b") (.ident "c") (.ident "d")) (.ident "x") (.ident "y"))

/-- Without the parentheses of the negative number no text of the power is left. The conditional with a
conditional for a test reads as itself, and not when the outer pair is taken away, nor the inner one. -/
theorem ne_of_readsExpr_without_pair_powerOfNegative :
  (∀ d, ReadsExpr "f(y, -2 ** x)" d → d ≠ powerOfNegative)
  ∧ ReadsExpr "a + ((b ? c : d) ? x : y)" testOfTest
  ∧ (∀ d, ReadsExpr "a + (b ? c : d) ? x : y" d → d ≠ testOfTest)
  ∧ ∀ d, ReadsExpr "a + (b ? c : d ? x : y)" d → d ≠ testOfTest
  := by
  have hnames : ∀ name ∈ ["a", "b", "c", "d", "f", "x", "y"], Text.isName name = true := by
    decide +kernel
  simp only [List.forall_mem_cons] at hnames
  obtain ⟨ha, hb, hc, hd, hf, hx, hy, -⟩ := hnames
  have hpower : powerOfNegative.Pair [word "f", sign "(", word "y", sign ",", blank]
      [number ⟨0xC000000000000000⟩] [blank, sign "**", blank, word "x", sign ")"] :=
    .within (@Site.arg (.ident "f") _ [.ident "y"] []) (.here .left (by decide))
  have houter : testOfTest.Pair [word "a", blank, sign "+", blank]
      (Expr.conditional (.conditional (.ident "b") (.ident "c") (.ident "d")) (.ident "x")
        (.ident "y")).lexemes [] :=
    .here .right rfl
  have hinner : testOfTest.Pair [word "a", blank, sign "+", blank, sign "("]
      (Expr.conditional (.ident "b") (.ident "c") (.ident "d")).lexemes
      [blank, sign "?", blank, word "x", blank, sign ":", blank, word "y", sign ")"] :=
    .within .right (.here .test rfl)
  have htwo : (⟨0xC000000000000000⟩ : Binary64).isFinite = true := by decide
  have hlegible : powerOfNegative.Legible := ⟨hf, hy, ⟨htwo, hx⟩, trivial⟩
  have hlegible' : testOfTest.Legible := ⟨ha, ⟨hb, hc, hd⟩, hx, hy⟩
  obtain ⟨-, -, hne⟩ := ne_of_readsExpr_without_pair hlegible hpower
  obtain ⟨-, hreads, hne'⟩ := ne_of_readsExpr_without_pair hlegible' houter
  obtain ⟨-, -, hne''⟩ := ne_of_readsExpr_without_pair hlegible' hinner
  refine ⟨?_, ?_, ?_, ?_⟩
  · intro d
    convert hne d using 2
    decide +kernel
  · convert hreads using 1
    decide +kernel
  · intro d
    convert hne' d using 2
    decide +kernel
  · intro d
    convert hne'' d using 2
    decide +kernel

end Expr

end Patchboard
