import Mathlib.Tactic.FieldSimp
import Patchboard.Decimal.Layout
import Patchboard.Proofs.Decimal.Rounding

/-!
# Digits with a point

A decimal that is written out in full has digits before the point and perhaps digits behind it. Read
together they are one whole number, and as many powers of ten are taken from it as there are digits
behind the point.
-/

namespace Patchboard

namespace Decimal

/-- The decimal with the given digits before and behind its point. -/
def ofDigits (whole fraction : List Char) : Decimal :=
  ⟨Nat.ofDigitChars 10 (whole ++ fraction) 0, -(fraction.length : Int)⟩

/-- Digits behind a point; without digits there is no point. -/
def pointed (fraction : List Char) : List Char :=
  if fraction.isEmpty then [] else '.' :: fraction

/-- Zeros that are put before the digits change nothing. -/
theorem ofDigits_zeros (n : Nat) (ds : List Char) :
  ofDigits ['0'] (List.replicate n '0' ++ ds) = ⟨Nat.ofDigitChars 10 ds 0, -((n + ds.length : Nat) : Int)⟩
  := by
  have hzeros : ['0'] ++ (List.replicate n '0' ++ ds) = List.replicate (n + 1) '0' ++ ds := by
    rw [List.replicate_succ]
    rfl
  rw [ofDigits, hzeros, Nat.ofDigitChars_append, Nat.ofDigitChars_replicate_zero, Nat.mul_zero,
    List.length_append, List.length_replicate]

/-- Each zero behind the digits is a power of ten. -/
theorem value_ofDigits_replicate (ds : List Char) (n : Nat) :
  (ofDigits (ds ++ List.replicate n '0') []).value = Nat.ofDigitChars 10 ds 0 * 10 ^ n
  := by
  rw [ofDigits, List.append_nil, Nat.ofDigitChars_append, Nat.ofDigitChars_replicate_zero, value]
  push_cast
  simp [mul_comm]

/-- The characters are digits, perhaps with a point between them, for the value of a decimal. -/
def SpelledBy (d : Decimal) (cs : List Char) : Prop :=
  ∃ whole fraction, cs = whole ++ pointed fraction ∧ whole ≠ []
    ∧ (∀ c ∈ whole ++ fraction, c.isDigit = true) ∧ (ofDigits whole fraction).value = d.value

/-! ## The three places of the point -/

section Places

variable {d : Decimal} {ds : List Char} {n : Nat} (hdigits : ∀ c ∈ ds, c.isDigit = true)
  (hvalue : Nat.ofDigitChars 10 ds 0 = d.digits)
include hdigits hvalue

/-- The point stands before all digits. -/
theorem spelledBy_zeros_append (hne : ds ≠ []) (he : d.exponent = -((n + ds.length : Nat) : Int)) :
  d.SpelledBy (['0', '.'] ++ List.replicate n '0' ++ ds)
  := by
  refine ⟨['0'], List.replicate n '0' ++ ds, ?_, ?_, ?_, ?_⟩
  · rw [pointed, if_neg]
    · simp
    · simp [hne]
  · simp
  · intro c hc
    simp only [List.cons_append, List.nil_append, List.mem_cons, List.mem_append,
      List.mem_replicate] at hc
    rcases hc with rfl | ⟨-, rfl⟩ | hc
    · rfl
    · rfl
    · apply hdigits c hc
  · rw [ofDigits_zeros, hvalue, ← he]

/-- No point is written; zeros may stand behind the digits. -/
theorem spelledBy_append_zeros (hne : ds ≠ []) (he : d.exponent = n) :
  d.SpelledBy (ds ++ List.replicate n '0')
  := by
  refine ⟨ds ++ List.replicate n '0', [], ?_, ?_, ?_, ?_⟩
  · simp [pointed]
  · simp [hne]
  · intro c hc
    simp only [List.append_nil, List.mem_append, List.mem_replicate] at hc
    rcases hc with hc | ⟨-, rfl⟩
    · apply hdigits c hc
    · rfl
  · rw [value_ofDigits_replicate, hvalue, value, he, zpow_natCast]

/-- The point stands between the digits. -/
theorem spelledBy_take_drop (hn : 0 < n) (hlt : n < ds.length)
    (he : d.exponent = -((ds.length - n : Nat) : Int)) :
  d.SpelledBy (ds.take n ++ '.' :: ds.drop n)
  := by
  refine ⟨ds.take n, ds.drop n, ?_, ?_, ?_, ?_⟩
  · rw [pointed, if_neg]
    simp only [List.isEmpty_iff, List.drop_eq_nil_iff]
    omega
  · intro hnil
    have := congrArg List.length hnil
    simp only [List.length_take, List.length_nil] at this
    omega
  · rw [List.take_append_drop]
    exact hdigits
  · rw [ofDigits, List.take_append_drop, hvalue, List.length_drop, ← he]

end Places

end Decimal

/-- A decimal in full is spelled by its digits. -/
theorem Layout.spelledBy_plain (d : Decimal) :
  d.SpelledBy (plain.writeDecimal d)
  := by
  have hpos : 0 < (Nat.toDigits 10 d.digits).length := Nat.length_toDigits_pos
  have hdigits : ∀ c ∈ Nat.toDigits 10 d.digits, c.isDigit = true := by
    intro c hc
    apply Nat.isDigit_of_mem_toDigits (by decide) (by decide) hc
  have hvalue : Nat.ofDigitChars 10 (Nat.toDigits 10 d.digits) 0 = d.digits :=
    Nat.ofDigitChars_ten_toDigits
  have hpositional : ∀ k, plain.positional k = true := fun _ => rfl
  have hunit : plain.unitFraction = false := rfl
  simp only [Layout.writeDecimal, Layout.writePositional, hpositional, hunit, if_true,
    Bool.false_eq_true, if_false, List.append_nil]
  generalize Nat.toDigits 10 d.digits = ds at hpos hdigits hvalue
  split
  · apply Decimal.spelledBy_zeros_append hdigits hvalue (List.ne_nil_of_length_pos hpos)
    simp only [Int.ofNat_eq_natCast] at *
    omega
  · split
    · apply Decimal.spelledBy_append_zeros hdigits hvalue (List.ne_nil_of_length_pos hpos)
      simp only [Int.ofNat_eq_natCast] at *
      omega
    · apply Decimal.spelledBy_take_drop hdigits hvalue
      · omega
      · omega
      · simp only [Int.ofNat_eq_natCast] at *
        omega

end Patchboard
