import Patchboard.Decimal.Numeral
import Patchboard.Json.Basic

/-!
# Reading JSON text

The reader takes a text and gives its value. When the text stops being JSON, it gives the fragment
it has read up to there, because whoever uses the values in the order of the text may find fault
with an earlier one first. Values nest at most 127 levels deep.

Every step of the reader takes the characters ahead and gives back fewer, so it ends.
-/

namespace Patchboard.Json

/-- What a text spells up to the place where it stops being JSON. -/
inductive Fragment where
  /-- No value, or a part of one that is no list or object. -/
  | nothing
  /-- A list: its whole items, and what there is of the next. -/
  | items (whole : List Json) (last : Fragment)
  /-- An object: its whole members, and the key and what there is of the value of the next. -/
  | members (whole : List (String × Json)) (last : Option (String × Fragment))
  /-- A whole value with something behind it. -/
  | trailed (value : Json)

/-- What was read from the characters `cs`, and the characters behind it. -/
structure Read (α : Type) (cs : List Char) where
  /-- What was read. -/
  value : α
  /-- The characters behind it. -/
  rest : List Char
  /-- Reading took at least one character. -/
  shorter : rest.length < cs.length

/-- Reads a value from the characters ahead, or gives the fragment there is. -/
abbrev Reader := (cs : List Char) → Except Fragment (Read Json cs)

/-- What was read from a part of the characters was read from the characters. -/
def Read.widen {cs ds : List Char} (r : Read α cs) (h : cs.length ≤ ds.length) : Read α ds :=
  ⟨r.value, r.rest, Nat.lt_of_lt_of_le r.shorter h⟩

/-! ## Blanks -/

/-- The four characters that may stand between the signs of a JSON text. -/
def isBlank (c : Char) : Bool :=
  c == ' ' || c == '\n' || c == '\r' || c == '\t'

/-- The characters from the first that is no blank. -/
def skipBlank (cs : List Char) : List Char :=
  cs.dropWhile isBlank

/-- Dropping characters from the front makes no list longer. -/
theorem length_dropWhile_le (p : Char → Bool) (cs : List Char) :
  (cs.dropWhile p).length ≤ cs.length
  := (List.dropWhile_sublist p).length_le

/-- Skipping blanks makes no list longer. -/
theorem length_skipBlank_le (cs : List Char) :
  (skipBlank cs).length ≤ cs.length
  := length_dropWhile_le _ _

/-! ## Strings -/

/-- The value of a hexadecimal digit. -/
def hexDigit? (c : Char) : Option Nat :=
  if '0' ≤ c ∧ c ≤ '9' then some (c.toNat - '0'.toNat)
  else if 'a' ≤ c ∧ c ≤ 'f' then some (c.toNat - 'a'.toNat + 10)
  else if 'A' ≤ c ∧ c ≤ 'F' then some (c.toNat - 'A'.toNat + 10)
  else none

/-- The value of four hexadecimal digits. -/
def hexUnit? (a b c d : Char) : Option Nat := do
  return (← hexDigit? a) * 4096 + (← hexDigit? b) * 256 + (← hexDigit? c) * 16 + (← hexDigit? d)

/-- The character that a short escape stands for. -/
def shortEscape? (c : Char) : Option Char :=
  match c with
  | '"' => some '"'
  | '\\' => some '\\'
  | '/' => some '/'
  | 'b' => some '\x08'
  | 'f' => some '\x0c'
  | 'n' => some '\n'
  | 'r' => some '\r'
  | 't' => some '\t'
  | _ => none

/-- The characters of a string whose opening quote was read, up to its closing quote, and the
characters behind. `done` holds the characters so far, the last one first. Halves of a surrogate
pair count only together, and characters below the space must be escaped. -/
def stringRest? (done : List Char) : List Char → Option (List Char × List Char)
  | [] => none
  | '"' :: rest => some (done.reverse, rest)
  | '\\' :: 'u' :: a :: b :: c :: d :: rest =>
    match hexUnit? a b c d with
    | none => none
    | some unit =>
      if unit < 0xD800 ∨ 0xDFFF < unit then stringRest? (Char.ofNat unit :: done) rest
      else if 0xDBFF < unit then none
      else
        match rest with
        | '\\' :: 'u' :: a :: b :: c :: d :: rest =>
          match hexUnit? a b c d with
          | none => none
          | some low =>
            if low < 0xDC00 ∨ 0xDFFF < low then none
            else
              let code := 0x10000 + (unit - 0xD800) * 0x400 + (low - 0xDC00)
              stringRest? (Char.ofNat code :: done) rest
        | _ => none
  | '\\' :: c :: rest =>
    match shortEscape? c with
    | none => none
    | some c => stringRest? (c :: done) rest
  | c :: rest => if c < ' ' then none else stringRest? (c :: done) rest

/-- A string takes its closing quote at least. -/
theorem length_stringRest?_lt {done cs text rest : List Char}
    (h : stringRest? done cs = some (text, rest)) :
  rest.length < cs.length
  := by
  fun_induction stringRest? done cs with
  | case1 => simp at h
  | case2 => simp_all
  | case3 => simp at h
  | case4 _ _ _ _ _ _ _ _ _ ih => exact Nat.lt_of_lt_of_le (ih h) (by simp; omega)
  | case5 => simp at h
  | case6 => simp at h
  | case7 => simp at h
  | case8 _ _ _ _ _ _ _ _ _ _ _ _ _ _ _ _ _ _ ih =>
    exact Nat.lt_of_lt_of_le (ih h) (by simp; omega)
  | case9 => simp at h
  | case10 => simp at h
  | case11 _ _ _ _ _ _ ih => exact Nat.lt_of_lt_of_le (ih h) (by simp; omega)
  | case12 => simp at h
  | case13 _ _ _ _ _ _ _ ih => exact Nat.lt_of_lt_of_le (ih h) (by simp)

/-- A string, from its opening quote on. -/
def string? (cs : List Char) : Option (Read String cs) :=
  match cs with
  | '"' :: inner =>
    match h : stringRest? [] inner with
    | some (text, rest) =>
      some ⟨String.ofList text, rest, Nat.lt_succ_of_lt (length_stringRest?_lt h)⟩
    | none => none
  | _ => none

/-! ## Numbers -/

/-- The value of a decimal digit. -/
def digitValue (c : Char) : Nat :=
  c.toNat - '0'.toNat

/-- The digits at the front, which there must be, and the characters behind. -/
def digits? (cs : List Char) : Option (List Nat × List Char) :=
  let ds := cs.takeWhile Char.isDigit
  if ds.isEmpty then none else some (ds.map digitValue, cs.dropWhile Char.isDigit)

/-- The part of a numeral behind its whole digits: a point and digits, if there is a point. -/
def fraction? (cs : List Char) : Option (Option (List Nat) × List Char) :=
  match cs with
  | '.' :: rest => (digits? rest).map fun (ds, rest) => (some ds, rest)
  | _ => some (none, cs)

/-- The number that digits spell. -/
def amount (ds : List Nat) : Int :=
  Int.ofNat (ds.foldl (fun n d => n * 10 + d) 0)

/-- Digits with a sign in front, if there is one. -/
def signed? (cs : List Char) : Option (Option Int × List Char) :=
  match cs with
  | '-' :: rest => (digits? rest).map fun (ds, rest) => (some (-amount ds), rest)
  | '+' :: rest => (digits? rest).map fun (ds, rest) => (some (amount ds), rest)
  | _ => (digits? cs).map fun (ds, rest) => (some (amount ds), rest)

/-- The power of ten of a numeral: an `e` and signed digits, if there is an `e`. -/
def exponent? (cs : List Char) : Option (Option Int × List Char) :=
  match cs with
  | 'e' :: rest => signed? rest
  | 'E' :: rest => signed? rest
  | _ => some (none, cs)

/-- A numeral without its sign. A zero stands in front only alone. -/
def unsigned? (negative : Bool) (cs : List Char) : Option (Numeral × List Char) := do
  let (whole, rest) ← digits? cs
  if whole.head? = some 0 ∧ 1 < whole.length then none
  let (fraction, rest) ← fraction? rest
  let (exponent, rest) ← exponent? rest
  return (⟨negative, whole, fraction, exponent⟩, rest)

/-- A numeral, from its sign on. -/
def numeral? (cs : List Char) : Option (Numeral × List Char) :=
  match cs with
  | '-' :: rest => unsigned? true rest
  | _ => unsigned? false cs

/-- The value of a numeral: a whole number where it fits, and otherwise the binary64 number, which
must be in range. -/
def ofNumeral? (n : Numeral) : Option Json :=
  match n.toInt? with
  | some i => some (.int i)
  | none =>
    match n.toBinary64? with
    | none => none
    | some b => if h : b.isFinite = true then some (.real b h) else none

/-- Digits take at least one character. -/
theorem length_digits?_lt {cs rest : List Char} {ds : List Nat} (h : digits? cs = some (ds, rest)) :
  rest.length < cs.length
  := by
  simp only [digits?, Option.ite_none_left_eq_some, Option.some.injEq, Prod.mk.injEq] at h
  obtain ⟨hne, -, rfl⟩ := h
  have hsplit := congrArg List.length
      (List.takeWhile_append_dropWhile (p := Char.isDigit) (l := cs))
  have hpos : 0 < (cs.takeWhile Char.isDigit).length := by
    cases hds : cs.takeWhile Char.isDigit with
    | nil => simp [hds] at hne
    | cons => simp
  simp only [List.length_append] at hsplit
  omega

/-- A fraction that is not there takes nothing. -/
theorem length_fraction?_le {cs rest : List Char} {ds : Option (List Nat)}
    (h : fraction? cs = some (ds, rest)) :
  rest.length ≤ cs.length
  := by
  unfold fraction? at h
  split at h
  · rename_i tail
    obtain ⟨⟨ds', rest'⟩, hd, heq⟩ := Option.map_eq_some_iff.1 h
    have := length_digits?_lt hd
    simp only [Prod.mk.injEq] at heq
    obtain ⟨-, rfl⟩ := heq
    simp only [List.length_cons]
    omega
  · simp only [Option.some.injEq, Prod.mk.injEq] at h
    simp [h.2]

/-- Signed digits take at least one character. -/
theorem length_signed?_lt {cs rest : List Char} {e : Option Int} (h : signed? cs = some (e, rest)) :
  rest.length < cs.length
  := by
  have mapped : ∀ {ds : List Char} {f : List Nat → Option Int},
      ((digits? ds).map fun (x, y) => (f x, y)) = some (e, rest) → rest.length < ds.length := by
    intro ds f hd
    obtain ⟨⟨x, y⟩, hd, heq⟩ := Option.map_eq_some_iff.1 hd
    simp only [Prod.mk.injEq] at heq
    exact heq.2 ▸ length_digits?_lt hd
  unfold signed? at h
  split at h
  · exact Nat.lt_succ_of_lt (mapped (f := fun ds => some (-amount ds)) h)
  · exact Nat.lt_succ_of_lt (mapped (f := fun ds => some (amount ds)) h)
  · exact mapped (f := fun ds => some (amount ds)) h

/-- A power of ten that is not there takes nothing. -/
theorem length_exponent?_le {cs rest : List Char} {e : Option Int}
    (h : exponent? cs = some (e, rest)) :
  rest.length ≤ cs.length
  := by
  unfold exponent? at h
  split at h
  · exact Nat.le_of_lt (Nat.lt_succ_of_lt (length_signed?_lt h))
  · exact Nat.le_of_lt (Nat.lt_succ_of_lt (length_signed?_lt h))
  · simp only [Option.some.injEq, Prod.mk.injEq] at h
    simp [h.2]

/-- A numeral takes at least one character. -/
theorem length_numeral?_lt {cs rest : List Char} {n : Numeral} (h : numeral? cs = some (n, rest)) :
  rest.length < cs.length
  := by
  have unsigned : ∀ {negative : Bool} {ds : List Char},
      unsigned? negative ds = some (n, rest) → rest.length < ds.length := by
    intro negative ds hu
    simp only [unsigned?, Option.bind_eq_bind, Option.bind_eq_some_iff] at hu
    obtain ⟨⟨whole, r₁⟩, h₁, hu⟩ := hu
    split at hu
    · simp at hu
    · simp only [Option.pure_def, Option.bind_eq_some_iff] at hu
      obtain ⟨⟨_, r₂⟩, h₂, ⟨_, r₃⟩, h₃, heq⟩ := hu
      simp only [Option.some.injEq, Prod.mk.injEq] at heq
      obtain ⟨-, rfl⟩ := heq
      have hwhole := length_digits?_lt h₁
      have hfraction := length_fraction?_le h₂
      have hexponent := length_exponent?_le h₃
      simp only at hfraction hexponent
      omega
  unfold numeral? at h
  split at h
  · have := unsigned h
    simp only [List.length_cons]
    omega
  · exact unsigned h

/-- A number. -/
def number? (cs : List Char) : Option (Read Json cs) :=
  match h : numeral? cs with
  | none => none
  | some (n, rest) => (ofNumeral? n).map fun j => ⟨j, rest, length_numeral?_lt h⟩

/-! ## Lists and objects -/

/-- The items of a list from one item on, each read by `read`. `done` holds the items so far, the
last one first. -/
def itemsFrom (read : Reader) (done : List Json) (cs : List Char) :
    Except Fragment (Read Json cs) :=
  match read cs with
  | .error last => .error (.items done.reverse last)
  | .ok item =>
    have hitem := item.shorter
    have hblank := length_skipBlank_le item.rest
    match h : skipBlank item.rest with
    | ',' :: rest =>
      have hrest : rest.length < cs.length := by simp [h] at hblank; omega
      (itemsFrom read (item.value :: done) rest).map (·.widen (Nat.le_of_lt hrest))
    | ']' :: rest =>
      .ok ⟨.array (item.value :: done).reverse, rest, by simp [h] at hblank; omega⟩
    | _ => .error (.items (item.value :: done).reverse .nothing)
termination_by cs.length

/-- The members of an object from one key on, each value read by `read`. `done` holds the members
so far, the last one first. -/
def membersFrom (read : Reader) (done : List (String × Json)) (cs : List Char) :
    Except Fragment (Read Json cs) :=
  have hstart := length_skipBlank_le cs
  match string? (skipBlank cs) with
  | none => .error (.members done.reverse none)
  | some key =>
    have hkey := key.shorter
    have hgap := length_skipBlank_le key.rest
    match h : skipBlank key.rest with
    | ':' :: afterColon =>
      match read afterColon with
      | .error last => .error (.members done.reverse (some (key.value, last)))
      | .ok value =>
        have hvalue := value.shorter
        have hblank := length_skipBlank_le value.rest
        let done := (key.value, value.value) :: done
        match h' : skipBlank value.rest with
        | ',' :: rest =>
          have hrest : rest.length < cs.length := by simp [h] at hgap; simp [h'] at hblank; omega
          (membersFrom read done rest).map (·.widen (Nat.le_of_lt hrest))
        | '\x7d' :: rest =>
          .ok ⟨.object done.reverse, rest, by simp [h] at hgap; simp [h'] at hblank; omega⟩
        | _ => .error (.members done.reverse none)
    | _ => .error (.members done.reverse (some (key.value, .nothing)))
termination_by cs.length

/-- A list whose opening bracket was read. -/
def arrayRest (read : Reader) : Reader := fun cs =>
  have hblank := length_skipBlank_le cs
  match h : skipBlank cs with
  | ']' :: rest => .ok ⟨.array [], rest, by simp [h] at hblank; omega⟩
  | _ => itemsFrom read [] cs

/-- An object whose opening brace was read. -/
def objectRest (read : Reader) : Reader := fun cs =>
  have hblank := length_skipBlank_le cs
  match h : skipBlank cs with
  | '\x7d' :: rest => .ok ⟨.object [], rest, by simp [h] at hblank; omega⟩
  | _ => membersFrom read [] cs

/-! ## Values -/

/-- A value whose items or members are read by `inner`; none when no deeper level is allowed. -/
def valueWith (inner : Option Reader) : Reader := fun cs =>
  have hblank := length_skipBlank_le cs
  match h : skipBlank cs with
  | 'n' :: 'u' :: 'l' :: 'l' :: rest => .ok ⟨.null, rest, by simp [h] at hblank; omega⟩
  | 't' :: 'r' :: 'u' :: 'e' :: rest => .ok ⟨.bool true, rest, by simp [h] at hblank; omega⟩
  | 'f' :: 'a' :: 'l' :: 's' :: 'e' :: rest =>
    .ok ⟨.bool false, rest, by simp [h] at hblank; omega⟩
  | '[' :: rest =>
    match inner with
    | none => .error .nothing
    | some read => (arrayRest read rest).map (·.widen (by simp [h] at hblank; omega))
  | '\x7b' :: rest =>
    match inner with
    | none => .error .nothing
    | some read => (objectRest read rest).map (·.widen (by simp [h] at hblank; omega))
  | '"' :: _ =>
    match string? (skipBlank cs) with
    | none => .error .nothing
    | some s => .ok ⟨.string s.value, s.rest, Nat.lt_of_lt_of_le s.shorter hblank⟩
  | _ =>
    match number? (skipBlank cs) with
    | none => .error .nothing
    | some n => .ok (n.widen hblank)

/-- A value with at most `levels` lists and objects nested in each other. -/
def value : (levels : Nat) → Reader
  | 0 => valueWith none
  | levels + 1 => valueWith (some (value levels))

/-- The number of lists and objects that may nest in each other. -/
def maxLevels : Nat :=
  127

/-- The value of a whole text. -/
def read (text : String) : Except Fragment Json :=
  match value maxLevels text.toList with
  | .error fragment => .error fragment
  | .ok r => if (skipBlank r.rest).isEmpty then .ok r.value else .error (.trailed r.value)

end Patchboard.Json
