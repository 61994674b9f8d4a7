import Patchboard.Proofs.Decimal.Rounding

/-!
# The total order

Positions are compared by the total order of the patterns, which ranks all of them. Numbers come in the
order of their values, and `-0` before `0`. The NaN with a sign bit come before all numbers, and the
others after them; among themselves they are ordered by their patterns.
-/

namespace Patchboard.Binary64

/-- The value of a number. That of an infinity is the power of two beyond all finite numbers. -/
def value (b : Binary64) : ℚ :=
  if b.isNegative then -b.weight else b.weight

/-- The conditions that make up the IEEE total order. -/
structure IsTotalOrder (le : Binary64 → Binary64 → Bool) : Prop where
  total : ∀ a b, le a b = true ∨ le b a = true
  trans : ∀ a b c, le a b = true → le b c = true → le a c = true
  antisymm : ∀ a b, le a b = true → le b a = true → a = b
  /-- Numbers are ordered by value, and by sign where these are equal, -/
  numbers : ∀ a b, a.isNaN = false → b.isNaN = false →
    (le a b = true ↔ a.value < b.value ∨ a.value = b.value ∧ (b.isNegative = true → a.isNegative = true))
  /-- so that the negative zero is before the positive one. -/
  zeros : le zero.negate zero = true ∧ le zero zero.negate = false
  /-- A NaN with a sign bit is before all numbers, -/
  first : ∀ a b, a.isNaN = true → a.isNegative = true → b.isNaN = false → le a b = true ∧ le b a = false
  /-- and one without is after them. -/
  last : ∀ a b, a.isNaN = true → a.isNegative = false → b.isNaN = false → le b a = true ∧ le a b = false
  /-- NaN are ordered by sign, and then by pattern. -/
  nans : ∀ a b, a.isNaN = true → b.isNaN = true →
    (le a b = true ↔
      if a.isNegative then b.isNegative = true → b.magnitude ≤ a.magnitude
      else b.isNegative = false ∧ a.magnitude ≤ b.magnitude)

variable {a b : Binary64}

theorem totalLe_iff :
  a.totalLe b = true ↔ a.rank ≤ b.rank
  := decide_eq_true_iff

/-- Weights grow with the patterns. -/
theorem weight_le_weight :
  a.weight ≤ b.weight ↔ a.magnitude ≤ b.magnitude
  := weightOf_strictMono.le_iff_le

/-- No weight is negative. -/
theorem weight_nonneg (b : Binary64) :
  0 ≤ b.weight
  := by
  have hzero : weightOf 0 = 0 := by
    rw [weightOf, partsOf]
    simp
  rw [weight_eq, ← hzero]
  apply weightOf_strictMono.monotone (Nat.zero_le _)

/-- The total order of the patterns orders numbers by value, and by sign where these are equal. -/
theorem totalLe_iff_value :
  a.totalLe b = true
    ↔ a.value < b.value ∨ a.value = b.value ∧ (b.isNegative = true → a.isNegative = true)
  := by
  have ha := a.weight_nonneg
  have hb := b.weight_nonneg
  rw [totalLe_iff, rank, rank, value, value]
  cases hsa : a.isNegative <;> cases hsb : b.isNegative <;>
    simp only [Bool.false_eq_true, if_true, if_false, false_imp_iff, true_imp_iff, and_true, and_false,
      or_false]
  · rw [← le_iff_lt_or_eq, weight_le_weight]
    omega
  · constructor
    · intro h
      omega
    · intro h
      linarith
  · constructor
    · intro _
      rw [← le_iff_lt_or_eq]
      linarith
    · intro _
      omega
  · rw [← le_iff_lt_or_eq, neg_le_neg_iff, weight_le_weight]
    omega

/-- The pattern of a NaN is beyond those of all numbers of its sign. -/
theorem magnitude_lt_of_isNaN (ha : a.isNaN = true) (hb : b.isNaN = false) :
  b.magnitude < a.magnitude
  := by
  simp only [isNaN, gt_iff_lt, decide_eq_true_eq, decide_eq_false_iff_not, not_lt] at ha hb
  exact hb.trans_lt ha

/-- The order of the patterns is the IEEE total order. -/
theorem isTotalOrder_totalLe :
  IsTotalOrder totalLe
  := by
  constructor
  · intro a b
    apply Bool.or_eq_true_iff.1 (totalLe_total a b)
  · intro a b c
    apply totalLe_trans
  · intro a b hab hba
    apply rank_injective
    exact le_antisymm (totalLe_iff.1 hab) (totalLe_iff.1 hba)
  · intro a b _ _
    exact totalLe_iff_value
  · decide
  · intro a b ha hsign hb
    have hlt := magnitude_lt_of_isNaN ha hb
    rw [← Bool.not_eq_true (b.totalLe a), totalLe_iff, totalLe_iff, rank, rank, if_pos hsign]
    split <;> omega
  · intro a b ha hsign hb
    have hlt := magnitude_lt_of_isNaN ha hb
    rw [← Bool.not_eq_true (a.totalLe b), totalLe_iff, totalLe_iff, rank, rank,
      if_neg (Bool.eq_false_iff.1 hsign)]
    split <;> omega
  · intro a b _ _
    rw [totalLe_iff, rank, rank]
    cases a.isNegative <;> cases b.isNegative <;> simp <;> omega

end Patchboard.Binary64
