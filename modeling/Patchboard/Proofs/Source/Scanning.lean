import Patchboard.Program.Operator
import Patchboard.Proofs.Decimal.Digits
import Patchboard.Text.Name

/-!
# Scanning source text

Source text is read as tokens: words, numerals, texts and signs. Each token is as long as possible,
and the white space between tokens is skipped. A numeral is read as the decimal it spells, and a text
as the characters its escapes stand for.
-/

namespace Patchboard

/-- A sign of the language. -/
inductive Sign where
  | operator (op : Operator)
  | openParen
  | closeParen
  | openBracket
  | closeBracket
  | openBrace
  | closeBrace
  | comma
  | semicolon
  | colon
  | dot
  | question
  | equals
deriving DecidableEq

/-- A token of the language. -/
inductive Token where
  /-- A keyword or a name. -/
  | word (text : String)
  /-- Digits, perhaps with a point. -/
  | numeral (value : Decimal)
  /-- What stands between quotes, without its escapes. -/
  | text (value : String)
  | sign (s : Sign)

/-! ## Signs -/

namespace Sign

/-- The spelling of a sign. -/
def spelling : Sign → String
  | operator op => op.token
  | openParen => "("
  | closeParen => ")"
  | openBracket => "["
  | closeBracket => "]"
  | openBrace => "\x7b"
  | closeBrace => "\x7d"
  | comma => ","
  | semicolon => ";"
  | colon => ":"
  | dot => "."
  | question => "?"
  | equals => "="

/-- Every sign. -/
def all : List Sign :=
  Operator.all.map operator ++ [openParen, closeParen, openBracket, closeBracket, openBrace,
    closeBrace, comma, semicolon, colon, dot, question, equals]

/-- Every sign, those with longer spellings first. -/
def longestFirst : List Sign :=
  [3, 2, 1].flatMap fun n => all.filter fun s => s.spelling.length == n

/-- The sign with a spelling. -/
def ofSpelling? (text : String) : Option Sign :=
  all.find? fun s => s.spelling == text

/-- The longest sign at the beginning of some characters, and the characters behind it. -/
def scan? (cs : List Char) : Option (Sign × List Char) :=
  (longestFirst.find? fun s => s.spelling.toList.isPrefixOf cs).map fun s =>
    (s, cs.drop s.spelling.length)

end Sign

/-! ## Numerals and texts -/

/-- The decimal that the digits at the beginning of some characters spell, with or without a point,
and the characters behind it. -/
def Decimal.scan (cs : List Char) : Decimal × List Char :=
  let whole := cs.takeWhile Char.isDigit
  match cs.dropWhile Char.isDigit with
  | '.' :: rest =>
    if (rest.takeWhile Char.isDigit).isEmpty then (ofDigits whole [], '.' :: rest)
    else (ofDigits whole (rest.takeWhile Char.isDigit), rest.dropWhile Char.isDigit)
  | rest => (ofDigits whole [], rest)

namespace Text

/-- The character that a character behind a backslash stands for. -/
def unescape? : Char → Option Char
  | '\\' => some '\\'
  | '"' => some '"'
  | 'n' => some '\n'
  | 'r' => some '\r'
  | 't' => some '\t'
  | _ => none

/-- The text up to a quote, without its escapes, and the characters behind the quote. A text does not
go beyond its line. -/
def unquote? : List Char → Option (List Char × List Char)
  | [] => none
  | '"' :: rest => some ([], rest)
  | '\\' :: c :: rest => do
    let d ← unescape? c
    let (text, rest) ← unquote? rest
    return (d :: text, rest)
  | c :: rest =>
    if c = '\n' ∨ c = '\r' then none
    else (unquote? rest).map fun (text, rest) => (c :: text, rest)

end Text

/-! ## Tokens -/

/-- The token at the beginning of some characters, and the characters behind it. -/
def Token.next? : List Char → Option (Token × List Char)
  | [] => none
  | c :: cs =>
    if Text.startsName c then
      some (word (String.ofList (c :: cs.takeWhile Text.continuesName)),
        cs.dropWhile Text.continuesName)
    else if c.isDigit then some ((Decimal.scan (c :: cs)).map numeral id)
    else if c = '"' then (Text.unquote? cs).map (Prod.map (fun s => text (String.ofList s)) id)
    else (Sign.scan? (c :: cs)).map (Prod.map sign id)

/-- Characters read as tokens, with white space between them. -/
inductive Scans : List Char → List Token → Prop where
  | nil : Scans [] []
  | space {c cs ts} (hc : c.isWhitespace = true) (h : Scans cs ts) : Scans (c :: cs) ts
  | token {cs t rest ts} (ht : Token.next? cs = some (t, rest)) (h : Scans rest ts) :
    Scans cs (t :: ts)

/-! ## Kinds of characters -/

namespace Text

/-- The letters among the basic characters. -/
theorem alphabetic_basic :
  ∀ r ∈ alphabetic, (0x41 ≤ r.1 ∧ r.2 ≤ 0x5A) ∨ (0x61 ≤ r.1 ∧ r.2 ≤ 0x7A) ∨ 0x80 ≤ r.1
  := by
  decide +kernel

/-- The digits among the basic characters. -/
theorem numeric_basic :
  ∀ r ∈ numeric, (0x30 ≤ r.1 ∧ r.2 ≤ 0x39) ∨ 0x80 ≤ r.1
  := by
  decide +kernel

/-- The basic characters that stand in names: the dollar sign, the digits, the letters and the
underscore. -/
def basicNames : Ranges :=
  [(0x24, 0x24), (0x30, 0x39), (0x41, 0x5A), (0x5F, 0x5F), (0x61, 0x7A)]

/-- The basic characters that do not stand in names. -/
def delimits (c : Char) : Bool :=
  c.toNat < 0x80 && !basicNames.contains c

theorem toNat_of_isDigit {c : Char} (h : c.isDigit = true) :
  0x30 ≤ c.toNat ∧ c.toNat ≤ 0x39
  := by
  simpa [Char.isDigit, UInt32.le_iff_toNat_le] using h

/-- No name begins with a digit. -/
theorem startsName_of_isDigit {c : Char} (h : c.isDigit = true) :
  startsName c = false
  := by
  obtain ⟨hlow, hhigh⟩ := toNat_of_isDigit h
  have halpha : alphabetic.contains c = false := by
    rw [Bool.eq_false_iff]
    intro hc
    obtain ⟨r, hr, hfirst, hlast⟩ := (Ranges.contains_iff alphabetic c).mp hc
    rcases alphabetic_basic r hr with hb | hb | hb <;> omega
  simp only [startsName, halpha, Bool.false_or, Bool.or_eq_false_iff, beq_eq_false_iff_ne]
  constructor
  · rintro rfl
    exact absurd hhigh (by decide)
  · rintro rfl
    exact absurd hlow (by decide)

theorem continuesName_of_delimits {c : Char} (h : delimits c = true) :
  continuesName c = false
  := by
  simp only [delimits, Bool.and_eq_true, decide_eq_true_eq, Bool.not_eq_true'] at h
  obtain ⟨hbasic, hnames⟩ := h
  have houtside : ∀ r ∈ basicNames, ¬ (r.1 ≤ c.toNat ∧ c.toNat ≤ r.2) := by
    intro r hr hc
    have := (Ranges.contains_iff basicNames c).mpr ⟨r, hr, hc⟩
    rw [hnames] at this
    exact absurd this Bool.false_ne_true
  have hdigit := houtside (0x30, 0x39) (by decide)
  have hupper := houtside (0x41, 0x5A) (by decide)
  have hlower := houtside (0x61, 0x7A) (by decide)
  have halpha : alphabetic.contains c = false := by
    rw [Bool.eq_false_iff]
    intro hc
    obtain ⟨r, hr, hfirst, hlast⟩ := (Ranges.contains_iff alphabetic c).mp hc
    rcases alphabetic_basic r hr with hb | hb | hb <;> omega
  have hnumeric : numeric.contains c = false := by
    rw [Bool.eq_false_iff]
    intro hc
    obtain ⟨r, hr, hfirst, hlast⟩ := (Ranges.contains_iff numeric c).mp hc
    rcases numeric_basic r hr with hb | hb <;> omega
  simp only [continuesName, halpha, hnumeric, Bool.false_or, Bool.or_eq_false_iff,
    beq_eq_false_iff_ne]
  constructor
  · rintro rfl
    apply houtside (0x5F, 0x5F) (by decide) (by decide)
  · rintro rfl
    apply houtside (0x24, 0x24) (by decide) (by decide)

theorem startsName_of_delimits {c : Char} (h : delimits c = true) :
  startsName c = false
  := by
  rw [Bool.eq_false_iff]
  intro hc
  have := continuesName_of_startsName hc
  rw [continuesName_of_delimits h] at this
  exact absurd this Bool.false_ne_true

theorem isDigit_of_delimits {c : Char} (h : delimits c = true) :
  c.isDigit = false
  := by
  rw [Bool.eq_false_iff]
  intro hc
  have hnames : basicNames.contains c = true :=
    (Ranges.contains_iff basicNames c).mpr ⟨(0x30, 0x39), by decide, toNat_of_isDigit hc⟩
  rw [delimits, hnames, Bool.not_true, Bool.and_false] at h
  exact absurd h Bool.false_ne_true

end Text

/-- Characters of one kind end where another kind begins. -/
theorem takeWhile_dropWhile_append {p : Char → Bool} {cs rest : List Char}
    (hcs : ∀ c ∈ cs, p c = true) (hrest : ∀ c ∈ rest.head?, p c = false) :
  (cs ++ rest).takeWhile p = cs ∧ (cs ++ rest).dropWhile p = rest
  := by
  rw [List.takeWhile_append_of_pos hcs, List.dropWhile_append_of_pos hcs]
  cases rest with
  | nil => exact ⟨List.append_nil cs, rfl⟩
  | cons c cs =>
    have hc : p c = false := hrest c rfl
    simp [hc]

/-- Spelled digits are read back if what follows does not continue them. -/
theorem Decimal.scan_append {whole fraction rest : List Char}
    (hdigits : ∀ c ∈ whole ++ fraction, c.isDigit = true)
    (hrest : ∀ c ∈ rest.head?, c.isDigit = false ∧ c ≠ '.') :
  scan (whole ++ pointed fraction ++ rest) = (ofDigits whole fraction, rest)
  := by
  have hwhole : ∀ c ∈ whole, c.isDigit = true := fun c hc => hdigits c (by simp [hc])
  have hfraction : ∀ c ∈ fraction, c.isDigit = true := fun c hc => hdigits c (by simp [hc])
  have hstop : ∀ c ∈ rest.head?, c.isDigit = false := fun c hc => (hrest c hc).1
  cases fraction with
  | nil =>
    obtain ⟨htake, hdrop⟩ := takeWhile_dropWhile_append hwhole hstop
    have hempty : whole ++ pointed [] ++ rest = whole ++ rest := by simp [pointed]
    rw [hempty, scan, htake, hdrop]
    split
    · exact absurd rfl (hrest '.' rfl).2
    · rfl
  | cons d ds =>
    have hpoint : ∀ c ∈ ('.' :: (d :: ds ++ rest)).head?, c.isDigit = false := by
      intro c hc
      obtain rfl := Option.some.inj hc
      rfl
    obtain ⟨htake, hdrop⟩ := takeWhile_dropWhile_append hwhole hpoint
    obtain ⟨htake', hdrop'⟩ := takeWhile_dropWhile_append hfraction hstop
    have hpointed : whole ++ pointed (d :: ds) ++ rest = whole ++ '.' :: (d :: ds ++ rest) := by
      simp [pointed]
    rw [hpointed, scan, htake, hdrop]
    simp only [htake', hdrop', List.isEmpty_cons, Bool.false_eq_true, if_false]

/-! ## The next token -/

namespace Token

variable {cs rest : List Char}

/-- What neither begins a word nor a numeral nor a text begins a sign. -/
theorem next?_of_delimits {c : Char} (hhead : cs.head? = some c) (hc : Text.delimits c = true)
    (hquote : c ≠ '"') :
  next? cs = (Sign.scan? cs).map (Prod.map sign id)
  := by
  cases cs with
  | nil => exact absurd hhead (by simp)
  | cons d ds =>
    obtain rfl := Option.some.inj hhead
    simp only [next?, Text.startsName_of_delimits hc, Text.isDigit_of_delimits hc, hquote, if_false,
      Bool.false_eq_true]

/-- White space is no part of a token. -/
theorem next?_of_isWhitespace {c : Char} (h : c.isWhitespace = true) :
  next? (c :: cs) = none
  := by
  have hc : c = ' ' ∨ c = '\t' ∨ c = '\r' ∨ c = '\n' := by
    simpa [Char.isWhitespace, or_assoc] using h
  have hnone : Sign.scan? (c :: cs) = none := by
    rcases hc with rfl | rfl | rfl | rfl <;> rfl
  have hdelimits : Text.delimits c = true ∧ c ≠ '"' := by
    rcases hc with rfl | rfl | rfl | rfl <;> decide
  rw [next?_of_delimits rfl hdelimits.1 hdelimits.2, hnone, Option.map_none]

/-- A name is read as a word if what follows does not continue it. -/
theorem next?_name {s : String} (hs : Text.isName s = true)
    (hrest : ∀ c ∈ rest.head?, Text.continuesName c = false) :
  next? (s.toList ++ rest) = some (word s, rest)
  := by
  cases hchars : s.toList with
  | nil => exact absurd hs (by simp [Text.isName, hchars])
  | cons c cs =>
    have hcs : Text.startsName c = true ∧ ∀ d ∈ cs, Text.continuesName d = true := by
      simpa [Text.isName, hchars] using hs
    obtain ⟨htake, hdrop⟩ := takeWhile_dropWhile_append hcs.2 hrest
    rw [List.cons_append, next?, if_pos hcs.1, htake, hdrop, ← hchars, String.ofList_toList]

/-- Spelled digits are read as a numeral if what follows does not continue them. -/
theorem next?_numeral {whole fraction : List Char} (hne : whole ≠ [])
    (hdigits : ∀ c ∈ whole ++ fraction, c.isDigit = true)
    (hrest : ∀ c ∈ rest.head?, c.isDigit = false ∧ c ≠ '.') :
  next? (whole ++ Decimal.pointed fraction ++ rest)
    = some (numeral (Decimal.ofDigits whole fraction), rest)
  := by
  have hscan := Decimal.scan_append hdigits hrest
  cases whole with
  | nil => exact absurd rfl hne
  | cons c cs =>
    have hc : c.isDigit = true := hdigits c (by simp)
    simp only [List.cons_append] at hscan ⊢
    rw [next?, Text.startsName_of_isDigit hc, if_neg Bool.false_ne_true, if_pos hc, hscan]
    rfl

end Token

/-- Characters are read as tokens in one way. -/
theorem Scans.unique {cs : List Char} {ts us : List Token} (h : Scans cs ts) (h' : Scans cs us) :
  ts = us
  := by
  induction h generalizing us with
  | nil =>
    cases h' with
    | nil => rfl
    | token ht _ => exact absurd ht (by simp [Token.next?])
  | space hc _ ih =>
    cases h' with
    | space _ h' => exact ih h'
    | token ht _ => exact absurd ht (by simp [Token.next?_of_isWhitespace hc])
  | token ht _ ih =>
    cases h' with
    | nil => exact absurd ht (by simp [Token.next?])
    | space hc _ => exact absurd ht (by simp [Token.next?_of_isWhitespace hc])
    | token ht' h' =>
      obtain ⟨rfl, rfl⟩ := Prod.mk.inj (Option.some.inj (ht.symm.trans ht'))
      rw [ih h']

end Patchboard
