import Mathlib.Algebra.Order.Field.Power
import Mathlib.Algebra.Order.Field.Rat
import Mathlib.Tactic.Linarith
import Mathlib.Tactic.Positivity
import Mathlib.Tactic.Ring
import Patchboard.Decimal.Shortest

/-!
# The number that a decimal rounds to

A decimal is read as the binary64 number nearest to it, and as the one with an even pattern when two
are equally near. The patterns without a sign bit are ordered as the numbers are, from zero to
infinity, which stands for the first power of two beyond the finite numbers. So a number is nearest to
what lies between the midpoints to the numbers of the patterns before and after its own, and what a
decimal rounds to is unique.
-/

namespace Patchboard

/-! ## Values -/

/-- The number that a decimal stands for. -/
def Decimal.value (d : Decimal) : ℚ :=
  d.digits * 10 ^ d.exponent

namespace Binary64

/-- The significand and the power of two of the number with a pattern. -/
def partsOf (n : Nat) : Nat × Int :=
  if n / leadingBit = 0 then (n % leadingBit, -1074)
  else (n % leadingBit + leadingBit, Int.ofNat (n / leadingBit) - 1075)

theorem partsOf_cases (n : Nat) :
  n / leadingBit = 0 ∧ partsOf n = (n % leadingBit, -1074)
    ∨ n / leadingBit ≠ 0
      ∧ partsOf n = (n % leadingBit + leadingBit, ((n / leadingBit : Nat) : Int) - 1075)
  := by
  rw [partsOf]
  split
  · next h => exact .inl ⟨h, rfl⟩
  · next h => exact .inr ⟨h, rfl⟩

/-- The number with a pattern. -/
def weightOf (n : Nat) : ℚ :=
  (partsOf n).1 * 2 ^ (partsOf n).2

/-- The absolute value of a number. That of infinity is the power of two beyond all finite
numbers. -/
def weight (b : Binary64) : ℚ :=
  b.parts.1 * 2 ^ b.parts.2

theorem parts_eq (b : Binary64) :
  b.parts = partsOf b.magnitude
  := rfl

theorem weight_eq (b : Binary64) :
  b.weight = weightOf b.magnitude
  := rfl

/-! ## The order of the patterns -/

/-- One pattern further is one unit of the significand more, also where a new binade begins. -/
theorem weightOf_succ (n : Nat) :
  weightOf (n + 1) = weightOf n + 2 ^ (partsOf n).2
  := by
  have hL : (0 : Nat) < leadingBit := by decide
  have hdiv : (n + 1) / leadingBit = n / leadingBit ∧ (n + 1) % leadingBit = n % leadingBit + 1
      ∨ (n + 1) / leadingBit = n / leadingBit + 1 ∧ (n + 1) % leadingBit = 0
        ∧ n % leadingBit + 1 = leadingBit := by
    simp only [leadingBit]
    omega
  rcases hdiv with ⟨he, hf⟩ | ⟨he, hf, hlast⟩
  · simp only [weightOf, partsOf, he, hf]
    split
    · rw [Nat.cast_add_one, add_one_mul]
    · push_cast
      ring
  · have hlast' : ((n % leadingBit : Nat) : ℚ) = leadingBit - 1 := by
      have hcast := congrArg (Nat.cast : Nat → ℚ) hlast
      push_cast at hcast
      linarith
    simp only [weightOf, partsOf, he, hf, Nat.succ_ne_zero, if_false, zero_add]
    split
    · next h0 =>
      -- The first binade above the subnormal numbers has their unit.
      have hq : Int.ofNat (n / leadingBit + 1) - 1075 = -1074 := by
        rw [h0]
        rfl
      rw [hq, hlast', sub_one_mul, sub_add_cancel]
    · have hq : Int.ofNat (n / leadingBit + 1) - 1075 = Int.ofNat (n / leadingBit) - 1075 + 1 := by
        simp only [Int.ofNat_eq_natCast]
        push_cast
        ring
      rw [hq, zpow_add_one₀ (by norm_num)]
      push_cast
      rw [hlast']
      ring

/-- The number grows with its pattern. -/
theorem weightOf_strictMono :
  StrictMono weightOf
  := by
  apply strictMono_nat_of_lt_succ
  intro n
  rw [weightOf_succ]
  have : (0 : ℚ) < 2 ^ (partsOf n).2 := by positivity
  linarith

/-- The significand is even exactly when the pattern is. -/
theorem partsOf_mod_two (n : Nat) :
  (partsOf n).1 % 2 = n % 2
  := by
  rcases partsOf_cases n with ⟨-, hn⟩ | ⟨-, hn⟩
  · rw [hn]
    simp only [leadingBit]
    omega
  · rw [hn]
    simp only [leadingBit]
    omega

/-- The step down to the pattern before is the gap below the significand, a quarter of which is the
half of a step. -/
theorem weightOf_succ_sub_gapBelow (n : Nat) :
  weightOf (n + 1) - weightOf n
    = Decimal.gapBelow (partsOf (n + 1)).1 (partsOf (n + 1)).2 * 2 ^ ((partsOf (n + 1)).2 - 1)
  := by
  have hhalf : ∀ q : Int, (2 : ℚ) ^ q = 2 * 2 ^ (q - 1) := by
    intro q
    rw [mul_comm, ← zpow_add_one₀ (by norm_num), sub_add_cancel]
  rw [weightOf_succ, add_sub_cancel_left]
  -- The unit of the pattern before is the same, or half of it where a binade begins.
  have hunit : (partsOf n).2 = (partsOf (n + 1)).2
        ∧ ¬ ((partsOf (n + 1)).1 = leadingBit ∧ (partsOf (n + 1)).2 ≠ -1074)
      ∨ (partsOf n).2 = (partsOf (n + 1)).2 - 1
        ∧ (partsOf (n + 1)).1 = leadingBit ∧ (partsOf (n + 1)).2 ≠ -1074 := by
    rcases partsOf_cases n with ⟨he, hn⟩ | ⟨he, hn⟩
    · rcases partsOf_cases (n + 1) with ⟨he', hn'⟩ | ⟨he', hn'⟩
      · rw [hn, hn']
        simp
      · rw [hn, hn']
        simp only [leadingBit] at *
        omega
    · rcases partsOf_cases (n + 1) with ⟨he', hn'⟩ | ⟨he', hn'⟩
      · simp only [leadingBit] at *
        omega
      · rw [hn, hn']
        simp only [leadingBit] at *
        omega
  rcases hunit with ⟨hq, hm⟩ | ⟨hq, hm⟩
  · rw [Decimal.gapBelow, if_neg hm, hq, hhalf]
    norm_num
  · rw [Decimal.gapBelow, if_pos hm, hq]
    norm_num

/-! ## The pattern of a number -/

/-- A number with a given pattern and no sign bit. -/
def ofMagnitude (n : Nat) : Binary64 :=
  ⟨UInt64.ofNat n⟩

theorem magnitude_ofMagnitude {n : Nat} (h : n ≤ 0x7FF0000000000000) :
  (ofMagnitude n).magnitude = n
  := by
  simp only [ofMagnitude, magnitude, UInt64.toNat_ofNat']
  omega

/-- Numbers without a sign bit are determined by their pattern. -/
theorem eq_of_magnitude_eq {a b : Binary64} (ha : a.isNegative = false) (hb : b.isNegative = false)
    (h : a.magnitude = b.magnitude) :
  a = b
  := by
  apply rank_injective
  simp only [rank, ha, hb, h]

theorem isNaN_eq_false_iff {b : Binary64} :
  b.isNaN = false ↔ b.magnitude ≤ 0x7FF0000000000000
  := by
  simp only [isNaN, decide_eq_false_iff_not, not_lt, gt_iff_lt]

theorem isNaN_of_isFinite {b : Binary64} (h : b.isFinite = true) :
  b.isNaN = false
  := by
  simp only [isFinite, decide_eq_true_eq] at h
  rw [isNaN_eq_false_iff]
  omega

end Binary64

/-! ## Rounding to the nearest number -/

open Binary64

/-- A decimal rounds to the nearest number without a sign, and to the one with an even pattern when
another one is equally near. -/
structure Decimal.RoundsTo (d : Decimal) (b : Binary64) : Prop where
  positive : b.isNegative = false
  isNumber : b.isNaN = false
  nearest : ∀ c : Binary64, c.isNaN = false → |d.value - b.weight| ≤ |d.value - c.weight|
  even : ∀ c : Binary64, c.isNaN = false → c.magnitude ≠ b.magnitude →
    |d.value - b.weight| = |d.value - c.weight| → b.magnitude % 2 = 0

/-- Which of two numbers is nearer is decided by the midpoint. -/
theorem abs_sub_le_abs_sub_iff {x u v : ℚ} (h : u < v) :
  |x - v| ≤ |x - u| ↔ u + v ≤ 2 * x
  := by
  rw [← sq_le_sq]
  constructor
  · intro hsq
    nlinarith
  · intro hmid
    nlinarith

theorem abs_sub_le_abs_sub_iff' {x u v : ℚ} (h : u < v) :
  |x - u| ≤ |x - v| ↔ 2 * x ≤ u + v
  := by
  rw [← sq_le_sq]
  constructor
  · intro hsq
    nlinarith
  · intro hmid
    nlinarith

/-- A decimal rounds to one number only. Two numbers that are equally near would both have even
patterns, and a number between them would be nearer. -/
theorem Decimal.RoundsTo.unique {d : Decimal} {a b : Binary64} (ha : d.RoundsTo a)
    (hb : d.RoundsTo b) :
  a = b
  := by
  apply eq_of_magnitude_eq ha.positive hb.positive
  by_contra hne
  wlog hlt : a.magnitude < b.magnitude generalizing a b
  · apply this hb ha
    · apply Ne.symm hne
    · omega
  have hequal : |d.value - a.weight| = |d.value - b.weight| :=
    le_antisymm (ha.nearest b hb.isNumber) (hb.nearest a ha.isNumber)
  have heven_a := ha.even b hb.isNumber (Ne.symm hne) hequal
  have heven_b := hb.even a ha.isNumber hne hequal.symm
  have hbound := isNaN_eq_false_iff.mp hb.isNumber
  have hmag : (ofMagnitude (a.magnitude + 1)).magnitude = a.magnitude + 1 := by
    apply magnitude_ofMagnitude
    omega
  have hac : a.weight < (ofMagnitude (a.magnitude + 1)).weight := by
    rw [weight_eq, weight_eq, hmag]
    apply weightOf_strictMono
    omega
  have hcb : (ofMagnitude (a.magnitude + 1)).weight < b.weight := by
    rw [weight_eq, weight_eq, hmag]
    apply weightOf_strictMono
    omega
  have hmid := (abs_sub_le_abs_sub_iff (hac.trans hcb)).mp hequal.ge
  have hnearest := ha.nearest (ofMagnitude (a.magnitude + 1)) (by
    rw [isNaN_eq_false_iff, hmag]
    omega)
  have hmid' := (abs_sub_le_abs_sub_iff' hac).mp hnearest
  linarith

/-- A decimal rounds to a number when it lies between the midpoints to the numbers before and after,
and not on a midpoint unless the pattern is even. -/
theorem Decimal.roundsTo_of_between {d : Decimal} {b : Binary64} (hpos : b.isNegative = false)
    (hnum : b.isNaN = false)
    (hlow : ∀ k, k + 1 = b.magnitude → weightOf k + b.weight ≤ 2 * d.value)
    (hhigh : 2 * d.value ≤ b.weight + weightOf (b.magnitude + 1))
    (hodd : b.magnitude % 2 = 1 → (∀ k, k + 1 = b.magnitude → weightOf k + b.weight < 2 * d.value)
      ∧ 2 * d.value < b.weight + weightOf (b.magnitude + 1)) :
  d.RoundsTo b
  := by
  have hmono := weightOf_strictMono.monotone
  have hbelow : ∀ c : Binary64, c.magnitude < b.magnitude →
      ∃ k, k + 1 = b.magnitude ∧ c.weight ≤ weightOf k ∧ c.weight < b.weight := by
    intro c hc
    refine ⟨b.magnitude - 1, by omega, ?_, weightOf_strictMono hc⟩
    apply hmono
    omega
  have habove : ∀ c : Binary64, b.magnitude < c.magnitude →
      weightOf (b.magnitude + 1) ≤ c.weight ∧ b.weight < c.weight := by
    intro c hc
    exact ⟨hmono hc, weightOf_strictMono hc⟩
  constructor
  · exact hpos
  · exact hnum
  · intro c _
    rcases lt_trichotomy c.magnitude b.magnitude with hc | hc | hc
    · obtain ⟨k, hk, hck, hcb⟩ := hbelow c hc
      apply (abs_sub_le_abs_sub_iff hcb).mpr
      linarith [hlow k hk]
    · rw [weight_eq c, hc, weight_eq b]
    · obtain ⟨hck, hbc⟩ := habove c hc
      apply (abs_sub_le_abs_sub_iff' hbc).mpr
      linarith
  · intro c _ hne hequal
    by_contra hparity
    obtain ⟨hlow', hhigh'⟩ := hodd (by omega)
    rcases lt_or_gt_of_ne hne with hc | hc
    · obtain ⟨k, hk, hck, hcb⟩ := hbelow c hc
      have := (abs_sub_le_abs_sub_iff' hcb).mp hequal.ge
      linarith [hlow' k hk]
    · obtain ⟨hck, hbc⟩ := habove c hc
      have := (abs_sub_le_abs_sub_iff hbc).mp hequal.ge
      linarith

end Patchboard
