import Patchboard.Proofs.Source.Scanning
import Patchboard.Source.Lexeme

/-!
# Lexemes as tokens

Each lexeme is written as the characters of its tokens, and read back as these when what follows does
not continue it. A word must not be followed by more of a name, a number not by more of a numeral, and
a sign not by what would make it a longer one.
-/

namespace Patchboard

/-! ## Escapes -/

/-- A character as it is written in a text. -/
def Lexeme.escapeChar (c : Char) : List Char :=
  (escapes.lookup c).getD [c]

/-- A character without an escape is written as it is. -/
theorem Lexeme.escapeChar_of_not_mem {c : Char} (h : ∀ p ∈ escapes, c ≠ p.1) :
  escapeChar c = [c]
  := by
  have hnone : escapes.lookup c = none := by
    rw [List.lookup_eq_none_iff]
    intro p hp
    apply bne_iff_ne.mpr (h p hp)
  rw [escapeChar, hnone, Option.getD_none]

/-- The replacements, one after the other, are one replacement of each character: none of them
changes what an earlier one has put in. -/
theorem Lexeme.escape_eq_flatMap (cs : List Char) :
  escape cs = cs.flatMap escapeChar
  := by
  simp only [escape, escapes, List.foldl_cons, List.foldl_nil, replaceChar, List.flatMap_assoc]
  apply congrArg (List.flatMap · cs)
  funext c
  by_cases h : ∃ p ∈ escapes, c = p.1
  · simp only [escapes, List.mem_cons, List.not_mem_nil, or_false, exists_eq_or_imp,
      exists_eq_left] at h
    rcases h with rfl | rfl | rfl | rfl | rfl <;> rfl
  · rw [escapeChar_of_not_mem (fun p hp hc => h ⟨p, hp, hc⟩)]
    simp only [escapes, List.mem_cons, List.not_mem_nil, or_false, exists_eq_or_imp,
      exists_eq_left, not_or] at h
    simp [h]

/-- What is written for a character of a text is read as that character. -/
theorem Text.unquote?_escapeChar (c : Char) (cs : List Char) :
  unquote? (Lexeme.escapeChar c ++ cs) = (unquote? cs).map (Prod.map (c :: ·) id)
  := by
  by_cases h : ∃ p ∈ Lexeme.escapes, c = p.1
  · have hescaped : ∃ e, Lexeme.escapeChar c = ['\\', e] ∧ unescape? e = some c := by
      simp only [Lexeme.escapes, List.mem_cons, List.not_mem_nil, or_false, exists_eq_or_imp,
        exists_eq_left] at h
      rcases h with rfl | rfl | rfl | rfl | rfl <;> exact ⟨_, rfl, rfl⟩
    obtain ⟨e, he, hc⟩ := hescaped
    rw [he, List.cons_append, List.cons_append, List.nil_append, unquote?, hc]
    cases unquote? cs <;> rfl
  · rw [Lexeme.escapeChar_of_not_mem (fun p hp hc => h ⟨p, hp, hc⟩)]
    simp only [Lexeme.escapes, List.mem_cons, List.not_mem_nil, or_false, exists_eq_or_imp,
      exists_eq_left, not_or] at h
    obtain ⟨hbackslash, hquote, hnewline, hreturn, -⟩ := h
    rw [List.cons_append, List.nil_append, unquote?]
    · rw [if_neg (by simp [hnewline, hreturn])]
      rfl
    · exact hquote
    · intro d ds hd _
      apply hbackslash hd

/-- A text is read back from its escapes. -/
theorem Text.unquote?_escape (cs rest : List Char) :
  unquote? (Lexeme.escape cs ++ '"' :: rest) = some (cs, rest)
  := by
  rw [Lexeme.escape_eq_flatMap]
  induction cs with
  | nil => rfl
  | cons c cs ih =>
    rw [List.flatMap_cons, List.append_assoc, unquote?_escapeChar, ih]
    rfl

namespace Lexeme

/-! ## Tokens -/

/-- The tokens of a lexeme. A negative number has a sign in front of its digits. -/
def tokens : Lexeme → List Token
  | word s => [.word s]
  | number b =>
    (if b.isNegative then [.sign (.operator .sub)] else [])
      ++ [.numeral (Decimal.scan (Layout.plain.writeDecimal (b.shortest Layout.plain.tie))).1]
  | text s => [.text s]
  | sign s => (Sign.ofSpelling? s).toList.map .sign
  | blanks _ => []
  | newline => []

/-- What follows a lexeme does not continue it. -/
def Apart (l : Lexeme) (rest : List Char) : Prop :=
  match l with
  | word s => Text.isName s = true ∧ ∀ c ∈ rest.head?, Text.continuesName c = false
  | number b => b.isFinite = true ∧ ∀ c ∈ rest.head?, c.isDigit = false ∧ c ≠ '.'
  | sign s => ∃ σ, Sign.ofSpelling? s = some σ
    ∧ Token.next? (s.toList ++ rest) = some (.sign σ, rest)
  | _ => True

/-- The characters of a finite number are perhaps a sign, and the digits of its shortest decimal. -/
theorem chars_number {b : Binary64} (h : b.isFinite = true) :
  (number b).chars = (if b.isNegative then ['-'] else [])
    ++ Layout.plain.writeDecimal (b.shortest Layout.plain.tie)
  := by
  rw [chars, Layout.write, Binary64.isNaN_of_isFinite h, h]
  cases b.isNegative <;> simp

/-- The digits of a number are read as a decimal of its value. -/
theorem next?_digits (b : Binary64) {rest : List Char}
    (hrest : ∀ c ∈ rest.head?, c.isDigit = false ∧ c ≠ '.') :
  ∃ d : Decimal, d.value = (b.shortest Layout.plain.tie).value
    ∧ (Decimal.scan (Layout.plain.writeDecimal (b.shortest Layout.plain.tie))).1 = d
    ∧ Token.next? (Layout.plain.writeDecimal (b.shortest Layout.plain.tie) ++ rest)
      = some (.numeral d, rest)
  := by
  obtain ⟨whole, fraction, hchars, hne, hdigits, hvalue⟩ :=
    Layout.spelledBy_plain (b.shortest Layout.plain.tie)
  refine ⟨Decimal.ofDigits whole fraction, hvalue, ?_, ?_⟩
  · have hscan := @Decimal.scan_append whole fraction [] hdigits (by simp)
    rw [List.append_nil] at hscan
    rw [hchars, hscan]
  · rw [hchars]
    apply Token.next?_numeral hne hdigits hrest

/-- A lexeme is read as its tokens when what follows does not continue it. -/
theorem scans {l : Lexeme} {rest : List Char} {ts : List Token} (h : l.Apart rest)
    (hrest : Scans rest ts) :
  Scans (l.chars ++ rest) (l.tokens ++ ts)
  := by
  cases l with
  | word s => exact .token (Token.next?_name h.1 h.2) hrest
  | number b =>
    obtain ⟨d, -, hd, hnext⟩ := next?_digits b h.2
    have hdigits := Scans.token hnext hrest
    rw [chars_number h.1, tokens, hd]
    cases b.isNegative with
    | false => simpa using hdigits
    | true =>
      have hminus : ∀ cs, Token.next? ('-' :: cs) = some (.sign (.operator .sub), cs) := by
        intro cs
        rw [Token.next?_of_delimits rfl (by decide) (by decide)]
        rfl
      simpa using Scans.token (hminus _) hdigits
  | text s =>
    have hnext : Token.next? ((text s).chars ++ rest) = some (.text s, rest) := by
      have hquote : Token.next? ('"' :: (escape s.toList ++ '"' :: rest)) = some (.text s, rest) := by
        have hstart : Text.startsName '"' = false := Text.startsName_of_delimits (by decide)
        rw [Token.next?, hstart, if_neg Bool.false_ne_true, if_neg (by decide), if_pos rfl,
          Text.unquote?_escape]
        simp
      simpa [chars] using hquote
    exact .token hnext hrest
  | sign s =>
    obtain ⟨σ, hσ, hnext⟩ := h
    rw [chars, tokens, hσ]
    exact .token hnext hrest
  | blanks n =>
    induction n with
    | zero => exact hrest
    | succ n ih => exact .space rfl (ih trivial)
  | newline => exact .space rfl hrest

/-! ## Lexemes in a row -/

/-- The characters of some lexemes. -/
def charsOf (ls : List Lexeme) : List Char :=
  ls.flatMap chars

/-- The tokens of some lexemes. -/
def tokensOf (ls : List Lexeme) : List Token :=
  ls.flatMap tokens

/-- No lexeme of a list is continued by what follows it there, nor the last one by what follows the
list. -/
def Spaced (ls : List Lexeme) (rest : List Char) : Prop :=
  match ls with
  | [] => True
  | l :: ls => l.Apart (charsOf ls ++ rest) ∧ Spaced ls rest

theorem charsOf_append (as bs : List Lexeme) :
  charsOf (as ++ bs) = charsOf as ++ charsOf bs
  := List.flatMap_append

theorem tokensOf_append (as bs : List Lexeme) :
  tokensOf (as ++ bs) = tokensOf as ++ tokensOf bs
  := List.flatMap_append

theorem spaced_append {as bs : List Lexeme} {rest : List Char} :
  Spaced (as ++ bs) rest ↔ Spaced as (charsOf bs ++ rest) ∧ Spaced bs rest
  := by
  induction as with
  | nil => simp [Spaced]
  | cons a as ih => simp only [List.cons_append, Spaced, ih, charsOf_append, List.append_assoc,
      and_assoc]

/-- Lexemes are read as their tokens when none is continued by what follows it. -/
theorem scans_of_spaced {ls : List Lexeme} {rest : List Char} {ts : List Token}
    (h : Spaced ls rest) (hrest : Scans rest ts) :
  Scans (charsOf ls ++ rest) (tokensOf ls ++ ts)
  := by
  induction ls with
  | nil => exact hrest
  | cons l ls ih =>
    have hl := scans h.1 (ih h.2)
    simpa [charsOf, tokensOf] using hl

end Lexeme

end Patchboard
