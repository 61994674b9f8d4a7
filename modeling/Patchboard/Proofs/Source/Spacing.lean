import Patchboard.Proofs.Source.Lexemes
import Patchboard.Source.Writer

/-!
# Written programs are spaced

A program is legible when its names are names and its numbers are finite. Between any two lexemes of a
legible program that would be read as one there is a blank, a line end or a sign, so the text of the
program is read as the tokens of its lexemes.
-/

namespace Patchboard

/-! ## Legible programs -/

namespace Expr

/-- What holds of every expression whose parts it holds of holds of every expression. -/
@[elab_as_elim]
theorem induction {P : Expr → Prop} (literal : ∀ l, P (.literal l)) (ident : ∀ name, P (.ident name))
    (binary : ∀ left op right, P left → P right → P (.binary left op right))
    (conditional : ∀ test consequent alternate, P test → P consequent → P alternate →
      P (.conditional test consequent alternate))
    (call : ∀ callee args, P callee → (∀ e ∈ args, P e) → P (.call callee args))
    (member : ∀ object property, P object → P (.member object property))
    (index : ∀ object key, P object → P key → P (.index object key)) (e : Expr) :
  P e
  := by
  apply @Expr.rec P fun es => ∀ e ∈ es, P e
  · exact literal
  · exact ident
  · exact binary
  · exact conditional
  · exact call
  · exact member
  · exact index
  · intro e he
    exact absurd he List.not_mem_nil
  · intro e es he hes d hd
    rcases List.mem_cons.mp hd with rfl | hd
    · exact he
    · apply hes d hd

/-- The lexemes of some expressions are the lexemes of each. -/
theorem listLexemes_eq_map (es : List Expr) :
  listLexemes es = es.map lexemes
  := by
  induction es with
  | nil => rw [listLexemes, List.map_nil]
  | cons e es ih => rw [listLexemes, ih, List.map_cons]

mutual

/-- The names of an expression are names, and its numbers are finite. -/
def Legible : Expr → Prop
  | literal (.number b) => b.isFinite = true
  | literal (.string _) => True
  | ident name => Text.isName name = true
  | binary left _ right => left.Legible ∧ right.Legible
  | conditional test consequent alternate =>
    test.Legible ∧ consequent.Legible ∧ alternate.Legible
  | call callee args => callee.Legible ∧ AllLegible args
  | member object property => object.Legible ∧ Text.isName property = true
  | index object key => object.Legible ∧ key.Legible

/-- Some expressions are legible. -/
def AllLegible : List Expr → Prop
  | [] => True
  | e :: es => e.Legible ∧ AllLegible es

end

theorem allLegible_iff {es : List Expr} :
  AllLegible es ↔ ∀ e ∈ es, e.Legible
  := by
  induction es with
  | nil => simp [AllLegible]
  | cons e es ih => simp only [AllLegible, ih, List.forall_mem_cons]

end Expr

/-- A statement is legible when its name is a name and its expression is legible. -/
def Stmt.Legible : Stmt → Prop
  | const name _ init => Text.isName name = true ∧ init.Legible
  | ret value => value.Legible

/-- A function is legible when its name and those of its parameters are names and its statements are
legible. -/
structure Function.Legible (f : Function) : Prop where
  name : Text.isName f.name = true
  params : ∀ p ∈ f.params, Text.isName p.name = true
  body : ∀ s ∈ f.body, s.Legible

/-- A program is legible when its functions are. -/
def Program.Legible (p : Program) : Prop :=
  ∀ f ∈ p.functions, f.Legible

/-! ## What ends a token -/

/-- No longer sign begins with this one. -/
def Sign.standsAlone : Sign → Bool
  | operator _ | equals => false
  | _ => true

/-- What follows ends a name or a text. -/
def Ends (rest : List Char) : Prop :=
  ∀ c ∈ rest.head?, Text.delimits c = true

/-- What follows ends any token. -/
def EndsNumber (rest : List Char) : Prop :=
  ∀ c ∈ rest.head?, Text.delimits c = true ∧ c ≠ '.'

theorem EndsNumber.ends {rest : List Char} (h : EndsNumber rest) :
  Ends rest
  := fun c hc => (h c hc).1

theorem ends_cons {c : Char} {cs : List Char} (h : Text.delimits c = true) :
  Ends (c :: cs)
  := by
  intro d hd
  obtain rfl := Option.some.inj hd
  exact h

theorem endsNumber_cons {c : Char} {cs : List Char} (h : Text.delimits c = true) (hdot : c ≠ '.') :
  EndsNumber (c :: cs)
  := by
  intro d hd
  obtain rfl := Option.some.inj hd
  exact ⟨h, hdot⟩

namespace Lexeme

variable {s : String} {ls : List Lexeme} {rest : List Char}

theorem apart_word (hs : Text.isName s = true) (h : Ends rest) :
  (word s).Apart rest
  := ⟨hs, fun c hc => Text.continuesName_of_delimits (h c hc)⟩

theorem apart_number {b : Binary64} (hb : b.isFinite = true) (h : EndsNumber rest) :
  (number b).Apart rest
  := ⟨hb, fun c hc => ⟨Text.isDigit_of_delimits (h c hc).1, (h c hc).2⟩⟩

/-- A sign is read by itself when a blank follows it. -/
theorem apart_spelling_blank (σ : Sign) (rest : List Char) :
  (sign σ.spelling).Apart (' ' :: rest)
  := by
  cases σ with
  | operator op =>
    cases op with
    | _ =>
      refine ⟨_, rfl, ?_⟩
      rw [Token.next?_of_delimits rfl (by decide) (by decide)]
      rfl
  | _ =>
    refine ⟨_, rfl, ?_⟩
    rw [Token.next?_of_delimits rfl (by decide) (by decide)]
    rfl

/-- A sign with which no longer one begins is read by itself whatever follows it. -/
theorem apart_spelling (σ : Sign) (h : σ.standsAlone = true) (rest : List Char) :
  (sign σ.spelling).Apart rest
  := by
  cases σ with
  | operator op => exact absurd h Bool.false_ne_true
  | equals => exact absurd h Bool.false_ne_true
  | _ =>
    refine ⟨_, rfl, ?_⟩
    rw [Token.next?_of_delimits rfl (by decide) (by decide)]
    rfl

/-! ## Parts of expressions -/

/-- What stands between parentheses is only followed by the closing one. -/
theorem spaced_wrapped {need : Bool} (h : ∀ rest', EndsNumber rest' → Spaced ls rest')
    (hrest : need = false → Spaced ls rest) :
  Spaced (wrapped need ls) rest
  := by
  cases need with
  | false => exact hrest rfl
  | true =>
    refine ⟨apart_spelling .openParen rfl _, spaced_append.mpr ⟨?_, ?_⟩⟩
    · apply h
      apply endsNumber_cons (by decide) (by decide)
    · exact ⟨apart_spelling .closeParen rfl _, trivial⟩

/-- Each part of a list is followed by a comma or by the end of the list. -/
theorem spaced_commaSeparated {lists : List (List Lexeme)}
    (h : ∀ ls ∈ lists, ∀ rest', EndsNumber rest' → Spaced ls rest') (hrest : EndsNumber rest) :
  Spaced (commaSeparated lists) rest
  := by
  induction lists with
  | nil => trivial
  | cons ls lists ih =>
    cases lists with
    | nil =>
      rw [commaSeparated, List.intercalate_singleton]
      apply h ls List.mem_cons_self rest hrest
    | cons ms lists =>
      rw [commaSeparated, List.intercalate_cons_cons, List.append_assoc, spaced_append]
      constructor
      · apply h ls List.mem_cons_self
        apply endsNumber_cons (by decide) (by decide)
      · refine ⟨apart_spelling .comma rfl _, trivial, ?_⟩
        apply ih
        intro ls' hls'
        apply h ls' (List.mem_cons_of_mem _ hls')

end Lexeme

namespace Expr

open Lexeme

/-- The expression is spaced when what follows ends its last token. Only where it may end in a number
a dot would not. -/
def Apart (e : Expr) : Prop :=
  ∀ rest, Ends rest → (e.needsParensAsObject = true → EndsNumber rest) → Spaced e.lexemes rest

section

variable {e : Expr} {need : Bool} {rest : List Char} (h : e.Apart)
include h

theorem Apart.spaced (hrest : EndsNumber rest) :
  Spaced e.lexemes rest
  := h rest hrest.ends fun _ => hrest

theorem Apart.operand (hrest : EndsNumber rest) :
  Spaced (wrapped need e.lexemes) rest
  := by
  apply spaced_wrapped
  · intro rest' hrest'
    apply h.spaced hrest'
  · intro _
    apply h.spaced hrest

theorem Apart.object (hrest : Ends rest) :
  Spaced (wrapped e.needsParensAsObject e.lexemes) rest
  := by
  apply spaced_wrapped
  · intro rest' hrest'
    apply h.spaced hrest'
  · intro hneed
    apply h rest hrest
    intro hneed'
    rw [hneed] at hneed'
    exact absurd hneed' Bool.false_ne_true

end

theorem apart_of_legible {e : Expr} (he : e.Legible) :
  e.Apart
  := by
  induction e using Expr.induction with
  | literal l =>
    intro rest hrest hdot
    cases l with
    | number b => exact ⟨apart_number he (hdot rfl), trivial⟩
    | string s => exact ⟨trivial, trivial⟩
  | ident name =>
    intro rest hrest _
    exact ⟨apart_word he hrest, trivial⟩
  | binary left op right ihl ihr =>
    intro rest _ hdot
    rw [lexemes, spaced_append, spaced_append]
    refine ⟨⟨?_, ?_⟩, ?_⟩
    · apply (ihl he.1).operand
      apply endsNumber_cons (by decide) (by decide)
    · exact ⟨trivial, apart_spelling_blank (.operator op) _, trivial, trivial⟩
    · apply (ihr he.2).operand (hdot rfl)
  | conditional test consequent alternate iht ihc iha =>
    intro rest _ hdot
    rw [lexemes, spaced_append, spaced_append, spaced_append, spaced_append]
    refine ⟨⟨⟨⟨?_, ?_⟩, ?_⟩, ?_⟩, ?_⟩
    · apply (iht he.1).operand
      apply endsNumber_cons (by decide) (by decide)
    · exact ⟨trivial, apart_spelling .question rfl _, trivial, trivial⟩
    · apply (ihc he.2.1).spaced
      apply endsNumber_cons (by decide) (by decide)
    · exact ⟨trivial, apart_spelling .colon rfl _, trivial, trivial⟩
    · apply (iha he.2.2).spaced (hdot rfl)
  | call callee args ihf iha =>
    intro rest hrest _
    rw [lexemes, spaced_append, spaced_append]
    refine ⟨⟨?_, ?_, ?_⟩, ?_⟩
    · apply (ihf he.1).object
      apply ends_cons (by decide)
    · apply apart_spelling .openParen rfl _
    · rw [listLexemes_eq_map]
      apply spaced_commaSeparated
      · intro ls hls rest' hrest'
        obtain ⟨e, hmem, rfl⟩ := List.mem_map.mp hls
        apply (iha e hmem (allLegible_iff.mp he.2 e hmem)).spaced hrest'
      · apply endsNumber_cons (by decide) (by decide)
    · exact ⟨apart_spelling .closeParen rfl _, trivial⟩
  | member object property ih =>
    intro rest hrest _
    rw [lexemes, spaced_append]
    constructor
    · apply (ih he.1).object
      apply ends_cons (by decide)
    · exact ⟨apart_spelling .dot rfl _, apart_word he.2 hrest, trivial⟩
  | index object key iho ihk =>
    intro rest hrest _
    rw [lexemes, spaced_append, spaced_append]
    refine ⟨⟨?_, ?_, ?_⟩, ?_⟩
    · apply (iho he.1).object
      apply ends_cons (by decide)
    · apply apart_spelling .openBracket rfl _
    · apply (ihk he.2).spaced
      apply endsNumber_cons (by decide) (by decide)
    · exact ⟨apart_spelling .closeBracket rfl _, trivial⟩

end Expr

/-! ## Statements and functions -/

open Lexeme

theorem ValueType.spaced_lexemes (a : ValueType) {rest : List Char} (hrest : Ends rest) :
  Spaced a.lexemes rest
  := by
  have hword : Text.isName a.keyword.word = true := by
    cases a.keyword <;> decide +kernel
  cases harray : a.array with
  | false =>
    rw [lexemes, harray]
    exact ⟨apart_word hword hrest, trivial⟩
  | true =>
    rw [lexemes, harray]
    refine ⟨apart_word hword ?_, apart_spelling .openBracket rfl _,
      apart_spelling .closeBracket rfl _, trivial⟩
    apply ends_cons (by decide)

theorem ValueType.spaced_behindColon (a : Option ValueType) {rest : List Char}
    (hrest : Ends rest) :
  Spaced (behindColon a) rest
  := by
  cases a with
  | none => trivial
  | some a => exact ⟨apart_spelling .colon rfl _, trivial, a.spaced_lexemes hrest⟩

/-- What stands behind a name ends it. -/
theorem ValueType.ends_behindColon (a : Option ValueType) {rest : List Char} (hrest : Ends rest) :
  Ends (charsOf (behindColon a) ++ rest)
  := by
  cases a with
  | none => exact hrest
  | some a => exact ends_cons (by decide)

theorem Stmt.spaced_lexemes (options : SourceOptions) {s : Stmt} (h : s.Legible)
    (rest : List Char) :
  Spaced (s.lexemes options) rest
  := by
  cases s with
  | const name type init =>
    rw [lexemes, spaced_append]
    refine ⟨⟨trivial, ?_⟩, apart_spelling .semicolon rfl _, trivial, trivial⟩
    simp only [spaced_append]
    refine ⟨⟨⟨⟨?_, trivial, ?_, trivial⟩, ?_⟩, ?_⟩, ?_⟩
    · apply apart_word (by decide +kernel) (ends_cons (by decide))
    · apply apart_word h.1
      apply ValueType.ends_behindColon
      apply ends_cons (by decide)
    · apply ValueType.spaced_behindColon
      apply ends_cons (by decide)
    · exact ⟨trivial, apart_spelling_blank .equals _, trivial, trivial⟩
    · apply (Expr.apart_of_legible h.2).spaced
      apply endsNumber_cons (by decide) (by decide)
  | ret value =>
    rw [lexemes, spaced_append]
    refine ⟨⟨trivial, spaced_append.mpr ⟨⟨?_, trivial, trivial⟩, ?_⟩⟩,
      apart_spelling .semicolon rfl _, trivial, trivial⟩
    · apply apart_word (by decide +kernel) (ends_cons (by decide))
    · apply (Expr.apart_of_legible h).spaced
      apply endsNumber_cons (by decide) (by decide)

theorem Param.spaced_lexemes {p : Param} (h : Text.isName p.name = true) {rest : List Char}
    (hrest : Ends rest) :
  Spaced p.lexemes rest
  := by
  refine ⟨apart_word h ?_, ValueType.spaced_behindColon (some p.type) hrest⟩
  apply ValueType.ends_behindColon (some p.type) hrest

theorem Function.spaced_lexemes (options : SourceOptions) {f : Function} (h : f.Legible)
    (rest : List Char) :
  Spaced (f.lexemes options) rest
  := by
  have hbody : ∀ ss : List Stmt, (∀ s ∈ ss, s.Legible) → ∀ rest',
      Spaced (ss.flatMap (Stmt.lexemes options)) rest' := by
    intro ss hss rest'
    induction ss with
    | nil => trivial
    | cons s ss ih =>
      rw [List.flatMap_cons, spaced_append]
      constructor
      · apply Stmt.spaced_lexemes
        apply hss s List.mem_cons_self
      · apply ih
        intro s' hs'
        apply hss s' (List.mem_cons_of_mem _ hs')
  simp only [lexemes, signatureLexemes, spaced_append]
  refine ⟨⟨⟨⟨⟨⟨?_, trivial, trivial⟩, ⟨?_, ?_, ?_⟩, ?_⟩, ?_⟩, ?_⟩, ?_⟩, ?_⟩
  · apply apart_word (by decide +kernel) (ends_cons (by decide))
  · apply apart_word h.name (ends_cons (by decide))
  · apply apart_spelling .openParen rfl _
  · apply spaced_commaSeparated
    · intro ls hls rest' hrest'
      obtain ⟨p, hp, rfl⟩ := List.mem_map.mp hls
      apply Param.spaced_lexemes (h.params p hp) hrest'.ends
    · apply endsNumber_cons (by decide) (by decide)
  · exact ⟨apart_spelling .closeParen rfl _, trivial⟩
  · split
    · apply ValueType.spaced_behindColon
      apply ends_cons (by decide)
    · trivial
  · exact ⟨trivial, apart_spelling .openBrace rfl _, trivial, trivial⟩
  · apply hbody f.body h.body
  · exact ⟨apart_spelling .closeBrace rfl _, trivial, trivial⟩

theorem Program.spaced_lexemes (options : SourceOptions) {p : Program} (h : p.Legible) :
  Spaced (p.lexemes options) []
  := by
  have hfunctions : ∀ fs : List Function, (∀ f ∈ fs, f.Legible) →
      Spaced (List.intercalate [newline] (fs.map (Function.lexemes options))) [] := by
    intro fs hfs
    induction fs with
    | nil => trivial
    | cons f fs ih =>
      have hf := Function.spaced_lexemes options (hfs f List.mem_cons_self)
      have hfs' := ih fun f' hf' => hfs f' (List.mem_cons_of_mem _ hf')
      cases fs with
      | nil =>
        rw [List.map_singleton, List.intercalate_singleton]
        apply hf
      | cons f' fs =>
        rw [List.map_cons, List.map_cons, List.intercalate_cons_cons, List.append_assoc,
          spaced_append]
        exact ⟨hf _, trivial, hfs'⟩
  apply hfunctions p.functions h

/-- The source text of a legible program is read as the tokens of its lexemes. -/
theorem Program.scans_source (options : SourceOptions) {p : Program} (h : p.Legible) :
  Scans (p.source options).toList (tokensOf (p.lexemes options))
  := by
  have hscans := scans_of_spaced (spaced_lexemes options h) .nil
  rw [List.append_nil, List.append_nil] at hscans
  rw [source, Lexeme.source, String.toList_ofList]
  exact hscans

end Patchboard
