import Mathlib.Algebra.Ring.Parity
import Mathlib.Data.List.DropRight
import Patchboard.Proofs.Source.Lexemes

/-!
# Escapes as a code

A text is escaped by replacing one character after the other throughout. Since the backslash comes first,
this is the same as spelling each character by itself. The spelling of a text stays on one line, every quote
in it is behind an odd run of backslashes, and it is read back, a backslash together with the character
behind it, as the text that was spelled.
-/

namespace Patchboard

namespace Text

/-- A character of a text as it is spelled between quotes. -/
def spelling : Char → List Char
  | '\\' => ['\\', '\\']
  | '"' => ['\\', '"']
  | '\n' => ['\\', 'n']
  | '\r' => ['\\', 'r']
  | '\t' => ['\\', 't']
  | c => [c]

/-- The text that some characters spell, read in one pass: a backslash is taken together with the character
behind it. There is none if no character is behind the backslash, or one that is in no escape. -/
def unspelled? : List Char → Option (List Char)
  | [] => some []
  | ['\\'] => none
  | '\\' :: c :: cs => do return (← unescape? c) :: (← unspelled? cs)
  | c :: cs => do return c :: (← unspelled? cs)

/-- The length of the run of backslashes that some characters end in. -/
def trailing (cs : List Char) : Nat :=
  (cs.rtakeWhile fun c => c == '\\').length

/-! ## Characters -/

/-- The characters that are not spelled as they are. -/
def Escaped (c : Char) : Prop :=
  c = '\\' ∨ c = '"' ∨ c = '\n' ∨ c = '\r' ∨ c = '\t'

/-- The spelling of a character that needs no escape is the character. -/
theorem spelling_of_not_escaped {c : Char} (h : ¬ Escaped c) :
  spelling c = [c]
  := by
  rw [Escaped] at h
  unfold spelling
  split <;> simp_all

/-- The escapes are the spellings. -/
theorem escapeChar_eq_spelling (c : Char) :
  Lexeme.escapeChar c = spelling c
  := by
  by_cases h : Escaped c
  · rcases h with rfl | rfl | rfl | rfl | rfl <;> rfl
  · rw [spelling_of_not_escaped h]
    apply Lexeme.escapeChar_of_not_mem
    simpa [Lexeme.escapes, Escaped] using h

/-- Nothing that breaks or indents a line is in a spelling. -/
theorem inline_of_mem_spelling {c d : Char} (h : d ∈ spelling c) :
  d ≠ '\n' ∧ d ≠ '\r' ∧ d ≠ '\t'
  := by
  by_cases hc : Escaped c
  · have hall : ((spelling c).all fun d => d ≠ '\n' ∧ d ≠ '\r' ∧ d ≠ '\t') = true := by
      rcases hc with rfl | rfl | rfl | rfl | rfl <;> decide
    simpa only [decide_eq_true_eq] using List.all_eq_true.1 hall d h
  · rw [spelling_of_not_escaped hc, List.mem_singleton] at h
    rw [h]
    simp only [Escaped, not_or] at hc
    exact hc.2.2

/-- A spelling is read as its character, whatever is behind it. -/
theorem unspelled?_spelling (c : Char) (cs : List Char) :
  unspelled? (spelling c ++ cs) = (unspelled? cs).map (c :: ·)
  := by
  by_cases h : Escaped c
  · have hescape : ∃ e, spelling c = ['\\', e] ∧ unescape? e = some c := by
      rcases h with rfl | rfl | rfl | rfl | rfl <;> exact ⟨_, rfl, rfl⟩
    obtain ⟨e, he, hc⟩ := hescape
    rw [he, List.cons_append, List.cons_append, List.nil_append, unspelled?, hc]
    cases unspelled? cs <;> rfl
  · have hbackslash : c ≠ '\\' := fun hc => h (.inl hc)
    rw [spelling_of_not_escaped h, List.singleton_append, unspelled?]
    · cases unspelled? cs <;> rfl
    · intro hc
      apply absurd hc hbackslash
    · intro d ds hc
      apply absurd hc hbackslash

/-! ## Runs of backslashes -/

/-- A backslash makes the run longer, and every other character ends it. -/
theorem trailing_concat (cs : List Char) (c : Char) :
  trailing (cs ++ [c]) = if c = '\\' then trailing cs + 1 else 0
  := by
  rw [trailing, List.rtakeWhile_concat]
  by_cases h : c = '\\'
  · simp [h, trailing]
  · simp [h]

/-- Behind an even run, a run is odd exactly when it is odd by itself. -/
theorem odd_trailing_append {cs : List Char} (h : Even (trailing cs)) (ds : List Char) :
  Odd (trailing (cs ++ ds)) ↔ Odd (trailing ds)
  := by
  induction ds using List.reverseRecOn with
  | nil =>
    rw [List.append_nil]
    apply iff_of_false (Nat.not_odd_iff_even.2 h)
    decide
  | append_singleton ds d ih =>
    rw [← List.append_assoc, trailing_concat, trailing_concat]
    split
    · rw [Nat.odd_add_one, Nat.odd_add_one, ih]
    · rfl

/-- A spelling ends in an even run. -/
theorem even_trailing_spelling (c : Char) :
  Even (trailing (spelling c))
  := by
  by_cases h : Escaped c
  · rcases h with rfl | rfl | rfl | rfl | rfl <;> decide
  · have hbackslash : c ≠ '\\' := fun hc => h (.inl hc)
    have hnone : trailing [c] = 0 := by
      rw [← List.nil_append [c], trailing_concat, if_neg hbackslash]
    rw [spelling_of_not_escaped h, hnone]
    decide

/-- Only a quote has a quote in its spelling. -/
theorem eq_quote_of_mem_spelling {c : Char} (h : '"' ∈ spelling c) :
  c = '"'
  := by
  by_cases hc : Escaped c
  · rcases hc with rfl | rfl | rfl | rfl | rfl <;> revert h <;> decide
  · rw [spelling_of_not_escaped hc, List.mem_singleton] at h
    exact h.symm

/-- A quote in a spelling is behind one backslash. -/
theorem eq_of_spelling_eq_append {c : Char} {before after : List Char}
    (h : spelling c = before ++ '"' :: after) :
  before = ['\\']
  := by
  have hquote : '"' ∈ spelling c := by
    rw [h]
    simp
  rw [eq_quote_of_mem_spelling hquote] at h
  match before, h with
  | [], h => cases h
  | [_], h => rw [(List.cons.inj h).1]
  | _ :: _ :: _, h => simp [spelling] at h

/-- Every quote in the spelling of a text is behind an odd run of backslashes. -/
theorem odd_trailing_of_flatMap_spelling {cs before after : List Char}
    (h : cs.flatMap spelling = before ++ '"' :: after) :
  Odd (trailing before)
  := by
  induction cs generalizing before with
  | nil => simp at h
  | cons c cs ih =>
    rw [List.flatMap_cons] at h
    -- The quote is behind the spelling of the first character, or within it.
    rcases List.append_eq_append_iff.1 h with ⟨inner, hbefore, hrest⟩ | ⟨inner, hspelling, hrest⟩
    · rw [hbefore, odd_trailing_append (even_trailing_spelling c)]
      apply ih hrest
    · cases inner with
      | nil =>
        rw [List.append_nil] at hspelling
        rw [← hspelling, ← List.append_nil (spelling c), odd_trailing_append (even_trailing_spelling c)]
        apply ih
        exact hrest.symm
      | cons d inner =>
        obtain ⟨rfl, -⟩ := List.cons.inj hrest
        rw [eq_of_spelling_eq_append hspelling]
        decide

/-! ## Texts -/

/-- The spelling of a text is read back as the text. -/
theorem unspelled?_flatMap_spelling (cs : List Char) :
  unspelled? (cs.flatMap spelling) = some cs
  := by
  induction cs with
  | nil => rfl
  | cons c cs ih =>
    rw [List.flatMap_cons, unspelled?_spelling, ih]
    rfl

/-- The replacements throughout a text come to spelling each character. -/
theorem escape_eq_flatMap_spelling (cs : List Char) :
  Lexeme.escape cs = cs.flatMap spelling
  := by
  rw [Lexeme.escape_eq_flatMap]
  congr 1
  funext c
  apply escapeChar_eq_spelling

/-- No two texts have the same escapes. To escape a text, one character after the other, is to spell each
of its characters by itself. What comes out has no line end, carriage return or tab, each quote in it is
behind an odd run of backslashes, and it is read in one pass as the text. -/
theorem escape_injective_and_read :
  Function.Injective Lexeme.escape ∧
  ∀ s : String,
    Lexeme.escape s.toList = s.toList.flatMap spelling ∧
    (∀ c ∈ Lexeme.escape s.toList, c ≠ '\n' ∧ c ≠ '\r' ∧ c ≠ '\t') ∧
    (∀ before after, Lexeme.escape s.toList = before ++ '"' :: after → Odd (trailing before)) ∧
    (unspelled? (Lexeme.escape s.toList)).map String.ofList = some s
  := by
  have hread : ∀ cs, unspelled? (Lexeme.escape cs) = some cs := by
    intro cs
    rw [escape_eq_flatMap_spelling, unspelled?_flatMap_spelling]
  refine ⟨?_, fun s => ⟨escape_eq_flatMap_spelling s.toList, ?_, ?_, ?_⟩⟩
  · intro cs ds h
    have hcs := hread cs
    rw [h, hread ds] at hcs
    exact (Option.some.inj hcs).symm
  · intro d hd
    rw [escape_eq_flatMap_spelling] at hd
    obtain ⟨c, -, hd⟩ := List.mem_flatMap.1 hd
    apply inline_of_mem_spelling hd
  · intro before after h
    rw [escape_eq_flatMap_spelling] at h
    apply odd_trailing_of_flatMap_spelling h
  · rw [hread, Option.map_some, String.ofList_toList]

/-- A backslash in front of a letter, a quote, and a line end in a row. The quote is behind three
backslashes, the second and third of which could be taken for an escape of their own. -/
theorem escape_injective_and_read_windowsPath :
  Lexeme.escape "\\n\\\"\n".toList
      = ['\\', '\\', 'n', '\\', '\\', '\\', '"', '\\', 'n'] ∧
    Odd (trailing ['\\', '\\', 'n', '\\', '\\', '\\']) ∧
    (unspelled? (Lexeme.escape "\\n\\\"\n".toList)).map String.ofList = some "\\n\\\"\n"
  := by
  have hescape : Lexeme.escape "\\n\\\"\n".toList
      = ['\\', '\\', 'n', '\\', '\\', '\\', '"', '\\', 'n'] := by decide
  obtain ⟨-, -, hodd, hread⟩ := escape_injective_and_read.2 "\\n\\\"\n"
  exact ⟨hescape, hodd _ _ hescape, hread⟩

end Text

end Patchboard
