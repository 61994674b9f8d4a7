import Mathlib.Tactic.FieldSimp
import Patchboard.Proofs.Decimal.Rounding

/-!
# The shortest decimal rounds back

The search for the shortest decimal compares whole numbers. Its comparisons are those of the numbers
that the decimals stand for, so what it finds lies between the midpoints to the neighbours and rounds
to the number it was found for.
-/

namespace Patchboard.Decimal

open Binary64 (weightOf partsOf)

/-! ## Comparisons -/

theorem tens_pos (k : Int) :
  0 < tens k
  := Nat.pow_pos (by norm_num)

theorem twos_pos (k : Int) :
  0 < twos k
  := Nat.pow_pos (by norm_num)

/-- A power with an integer exponent is a quotient of whole powers. -/
theorem zpow_eq_div (b : Nat) (k : Int) :
  (b : ℚ) ^ k = (Nat.pow b k.toNat : Nat) / (Nat.pow b (-k).toNat : Nat)
  := by
  obtain ⟨n, rfl | rfl⟩ := k.eq_nat_or_neg
  · simp
  · simp

theorem ten_zpow (k : Int) :
  (10 : ℚ) ^ k = tens k / tens (-k)
  := zpow_eq_div 10 k

theorem two_zpow (k : Int) :
  (2 : ℚ) ^ k = twos k / twos (-k)
  := zpow_eq_div 2 k

theorem compareDyadic_eq_lt_iff {d m : Nat} {e q : Int} :
  compareDyadic d e m q = .lt ↔ (d : ℚ) * 10 ^ e < m * 2 ^ q
  := by
  have he : (0 : ℚ) < tens (-e) := by exact_mod_cast tens_pos (-e)
  have hq : (0 : ℚ) < twos (-q) := by exact_mod_cast twos_pos (-q)
  rw [compareDyadic, Nat.compare_eq_lt, ten_zpow, two_zpow, ← mul_div_assoc, ← mul_div_assoc,
    div_lt_div_iff₀ he hq]
  norm_cast

theorem compareDyadic_eq_gt_iff {d m : Nat} {e q : Int} :
  compareDyadic d e m q = .gt ↔ (m : ℚ) * 2 ^ q < d * 10 ^ e
  := by
  have he : (0 : ℚ) < tens (-e) := by exact_mod_cast tens_pos (-e)
  have hq : (0 : ℚ) < twos (-q) := by exact_mod_cast twos_pos (-q)
  rw [compareDyadic, Nat.compare_eq_gt, ten_zpow, two_zpow, ← mul_div_assoc, ← mul_div_assoc,
    div_lt_div_iff₀ hq he]
  norm_cast

/-! ## The interval of a number -/

/-- The decimals that are found to round to a number lie between its midpoints, and on them only if
the significand is even. -/
theorem between_of_roundsTo {d m : Nat} {e q : Int} (hm : 0 < m) (h : roundsTo d e m q = true) :
  2 * m * 2 ^ q - gapBelow m q * 2 ^ (q - 1) ≤ 2 * ((d : ℚ) * 10 ^ e)
    ∧ 2 * ((d : ℚ) * 10 ^ e) ≤ 2 * m * 2 ^ q + 2 ^ q
    ∧ (m % 2 = 1 → 2 * m * 2 ^ q - gapBelow m q * 2 ^ (q - 1) < 2 * ((d : ℚ) * 10 ^ e)
      ∧ 2 * ((d : ℚ) * 10 ^ e) < 2 * m * 2 ^ q + 2 ^ q)
  := by
  have hgap : gapBelow m q ≤ 4 * m := by
    rw [gapBelow]
    split <;> omega
  have hunit : (2 : ℚ) ^ q = 4 * 2 ^ (q - 2) := by
    rw [show q = q - 2 + 2 by ring, zpow_add₀ (by norm_num), add_sub_cancel_right]
    ring
  have hhalf : (2 : ℚ) ^ (q - 1) = 2 * 2 ^ (q - 2) := by
    rw [show q - 1 = q - 2 + 1 by ring, zpow_add_one₀ (by norm_num)]
    ring
  rw [hunit, hhalf]
  simp only [roundsTo] at h
  split at h
  · next heven =>
    simp only [Bool.and_eq_true, bne_iff_ne, ne_eq, compareDyadic_eq_lt_iff,
      compareDyadic_eq_gt_iff, not_lt, Nat.cast_sub hgap] at h
    push_cast at h
    refine ⟨by linarith [h.1], by linarith [h.2], ?_⟩
    intro hodd
    omega
  · simp only [Bool.and_eq_true, beq_iff_eq, compareDyadic_eq_lt_iff,
      compareDyadic_eq_gt_iff, Nat.cast_sub hgap] at h
    push_cast at h
    refine ⟨by linarith [h.1], by linarith [h.2], ?_⟩
    intro _
    exact ⟨by linarith [h.1], by linarith [h.2]⟩

/-! ## The search -/

/-- What is found on a grid rounds to the number. -/
theorem roundsTo_of_onGrid? {tie : Tie} {m d : Nat} {q e : Int} (h : onGrid? tie m q e = some d) :
  roundsTo d e m q = true
  := by
  have hnearer : ∀ c, nearer tie c e m q = c ∨ nearer tie c e m q = c + 1 := by
    intro c
    unfold nearer
    split
    · exact .inr rfl
    · exact .inl rfl
    · split
      · exact .inr rfl
      · split
        · exact .inl rfl
        · exact .inr rfl
  simp only [onGrid?] at h
  split at h
  · next hlow hhigh =>
    obtain rfl := Option.some.inj h
    rcases hnearer (wholePart m q e) with heq | heq
    · rw [heq]
      exact hlow
    · rw [heq]
      exact hhigh
  · next hlow _ =>
    obtain rfl := Option.some.inj h
    exact hlow
  · next _ hhigh =>
    obtain rfl := Option.some.inj h
    exact hhigh
  · exact absurd h (by simp)

/-- Zeros at the end of the digits are carried by the power of ten. -/
theorem value_trim (d : Nat) (e : Int) :
  (trim d e).value = d * 10 ^ e
  := by
  fun_induction trim d e with
  | case1 d e h ih =>
    have hd : d = d / 10 * 10 := by omega
    rw [ih, zpow_add_one₀ (by norm_num)]
    conv_rhs => rw [hd]
    push_cast
    ring
  | case2 d e h => rfl

theorem value_exact (m : Nat) (q : Int) :
  (exact m q).value = m * 2 ^ q
  := by
  rw [exact, value_trim]
  obtain ⟨n, rfl | rfl⟩ := q.eq_nat_or_neg
  · simp [twos]
  · have hten : (10 : ℚ) ^ n = 2 ^ n * 5 ^ n := by
      rw [← mul_pow]
      norm_num
    have h2 : (2 : ℚ) ^ n ≠ 0 := by positivity
    have h5 : (5 : ℚ) ^ n ≠ 0 := by positivity
    simp only [twos, Int.neg_neg, Int.toNat_natCast, Int.ofNat_eq_natCast, zpow_neg, zpow_natCast,
      hten, Nat.pow_eq]
    have hzero : (-(n : Int)).toNat = 0 := by omega
    rw [hzero]
    push_cast
    field_simp

/-- The shortest decimal of a significand that is not zero either was found to round to the number,
or equals it. -/
theorem shortest_spec (tie : Tie) {m : Nat} (q : Int) (hm : m ≠ 0) :
  (∃ d e, roundsTo d e m q = true ∧ (shortest tie m q).value = (d : ℚ) * 10 ^ e)
    ∨ (shortest tie m q).value = m * 2 ^ q
  := by
  simp only [shortest, if_neg hm]
  cases hfound : (List.range 17).findSome? fun n =>
      (onGrid? tie m q (pointPosition m q - Int.ofNat (n + 1))).map
        fun d => trim d (pointPosition m q - Int.ofNat (n + 1)) with
  | none =>
    right
    rw [Option.getD_none, value_exact]
  | some found =>
    left
    obtain ⟨n, -, hn⟩ := List.exists_of_findSome?_eq_some hfound
    obtain ⟨d, hd, rfl⟩ := Option.map_eq_some_iff.mp hn
    exact ⟨d, _, roundsTo_of_onGrid? hd, value_trim d _⟩

end Patchboard.Decimal

namespace Patchboard.Binary64

open Decimal

/-- A decimal that equals a number rounds to it. -/
theorem roundsTo_of_value_eq {d : Decimal} {b : Binary64} (hnum : b.isNaN = false)
    (hpos : b.isNegative = false) (h : d.value = b.weight) :
  d.RoundsTo b
  := by
  have hlow : ∀ k, k + 1 = b.magnitude → weightOf k + b.weight < 2 * d.value := by
    intro k hk
    have := weightOf_strictMono (Nat.lt_succ_self k)
    rw [h, weight_eq, ← hk]
    linarith
  have hhigh : 2 * d.value < b.weight + weightOf (b.magnitude + 1) := by
    have := weightOf_strictMono (Nat.lt_succ_self b.magnitude)
    rw [h, weight_eq]
    linarith
  apply roundsTo_of_between hpos hnum (fun k hk => (hlow k hk).le) hhigh.le
  intro _
  exact ⟨hlow, hhigh⟩

/-- The shortest decimal of a finite number rounds back to it. -/
theorem shortest_roundsTo (tie : Tie) {b : Binary64} (hfinite : b.isFinite = true)
    (hpos : b.isNegative = false) :
  (b.shortest tie).RoundsTo b
  := by
  have hnum := isNaN_of_isFinite hfinite
  by_cases hm : b.parts.1 = 0
  · apply roundsTo_of_value_eq hnum hpos
    simp [shortest, Decimal.shortest, hm, Decimal.value, weight]
  rcases shortest_spec tie b.parts.2 hm with ⟨d, e, hrounds, hvalue⟩ | hvalue
  · obtain ⟨hlow, hhigh, hodd⟩ := between_of_roundsTo (Nat.pos_of_ne_zero hm) hrounds
    -- The midpoints, said of the significand and of the patterns.
    have hbelow : ∀ k, k + 1 = b.magnitude → weightOf k + b.weight
        = 2 * b.parts.1 * 2 ^ b.parts.2 - gapBelow b.parts.1 b.parts.2 * 2 ^ (b.parts.2 - 1) := by
      intro k hk
      have hgap := weightOf_succ_sub_gapBelow k
      rw [hk, ← weight_eq, ← parts_eq] at hgap
      rw [← hgap, weight]
      ring
    have habove : b.weight + weightOf (b.magnitude + 1)
        = 2 * b.parts.1 * 2 ^ b.parts.2 + 2 ^ b.parts.2 := by
      rw [weightOf_succ, ← weight_eq, weight, ← parts_eq]
      ring
    rw [← hvalue, ← habove] at hhigh
    rw [← hvalue, ← habove] at hodd
    rw [← hvalue] at hlow
    apply roundsTo_of_between hpos hnum
    · intro k hk
      rw [hbelow k hk]
      exact hlow
    · exact hhigh
    · intro hparity
      obtain ⟨hlow', hhigh'⟩ := hodd (by rw [parts_eq, partsOf_mod_two, hparity])
      constructor
      · intro k hk
        rw [hbelow k hk]
        exact hlow'
      · exact hhigh'
  · apply roundsTo_of_value_eq hnum hpos hvalue

end Patchboard.Binary64
