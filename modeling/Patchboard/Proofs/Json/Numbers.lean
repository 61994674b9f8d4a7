import Mathlib
import Patchboard.Json.Decode

/-!
# Numbers as JSON

A finite number is written as itself and is read back. A whole number is rounded when it is read; as
it has at most 64 bits, rounding does not come near the largest number, so whatever is read is
finite.
-/

namespace Patchboard

namespace Binary64

open Float.Model Float.Model.UnpackedFloat

/-! ## Rounding a whole number -/

/-- Bits that are shifted out do not raise a mantissa. -/
theorem mantissa_shiftRight_le (em : ExtendedMantissa) (k : Nat) :
  (em >>> k).mantissa ≤ em.mantissa
  := by
  show (k.repeat ExtendedMantissa.shiftRightOne em).mantissa ≤ em.mantissa
  induction k with
  | zero => exact Nat.le_refl _
  | succ k ih => exact Nat.le_trans (Nat.div_le_self _ 2) ih

/-- Rounding raises a mantissa by at most one. -/
theorem roundedMantissa_le (em : ExtendedMantissa) :
  em.roundedMantissa ≤ em.mantissa + 1
  := by
  obtain ⟨m, round, sticky⟩ := em
  cases round <;> cases sticky <;>
    simp only [ExtendedMantissa.roundedMantissa, ExtendedMantissa.accuracy,
      Accuracy.roundToNearestEven] <;> omega

/-- The shift to the precision of the format does not raise the mantissa. -/
theorem mantissa_shiftToTargetExponent_le (m : Nat) (e : Int) (accuracy : Accuracy) :
  (shiftToTargetExponent .binary64 m e accuracy).1.mantissa ≤ m
  := by
  apply Nat.le_trans (mantissa_shiftRight_le _ _)
  cases accuracy with
  | exact => exact Nat.le_refl m
  | inexact o => cases o <;> exact Nat.le_refl m

/-- The shift to the precision of the format raises the exponent by no more than the length of the
mantissa. -/
theorem exponent_shiftToTargetExponent (m : Nat) {e : Int} (accuracy : Accuracy) (he : -1074 ≤ e) :
  e ≤ (shiftToTargetExponent .binary64 m e accuracy).2
    ∧ (shiftToTargetExponent .binary64 m e accuracy).2 ≤ e + m.log2
  := by
  simp only [shiftToTargetExponent, shiftToExponent, Format.targetExponent, totalExponent,
    Format.mantissaBits, Format.minExponent]
  omega

/-- A number that the format can hold: a zero, or one whose exponent does not overflow. -/
def Held : UnpackedFloat → Prop
  | .zero _ => True
  | .finite _ _ e _ => e ≤ 970
  | _ => False

/-- A number below a power of two has a logarithm below the exponent. -/
theorem log2_lt {m k : Nat} (hk : 0 < k) (h : m < 2 ^ k) :
  m.log2 < k
  := by
  by_cases hm : m = 0
  · rw [hm, Nat.log2_zero]
    exact hk
  · rwa [Nat.log2_lt hm]

/-- A number below `2 ^ 116` does not overflow when it is rounded. -/
theorem held_roundWithAccuracy (s : UnpackedFloat.Sign) {m : Nat} {e : Int} (hm : m < 2 ^ 116)
    (hle : -1074 ≤ e) (hle' : e ≤ 0) :
  Held (roundWithAccuracy .binary64 s m e .exact)
  := by
  obtain ⟨hlow, hhigh⟩ := exponent_shiftToTargetExponent m .exact hle
  have hfirst := mantissa_shiftToTargetExponent_le m e .exact
  rw [roundWithAccuracy]
  generalize shiftToTargetExponent .binary64 m e .exact = first at *
  obtain ⟨em, e₁⟩ := first
  dsimp only at *
  have hround := roundedMantissa_le em
  -- the rounded mantissa may take one bit more, and is shifted once again
  obtain ⟨-, hlast⟩ := exponent_shiftToTargetExponent em.roundedMantissa .exact
    (Int.le_trans hle hlow)
  have hlog := log2_lt (by decide) hm
  have hlog' : em.roundedMantissa.log2 < 117 := log2_lt (by decide) (by omega)
  split
  · trivial
  · show _ ≤ _
    omega

/-- A whole number of 64 bits does not overflow when it is rounded. -/
theorem held_ofUInt64 (n : UInt64) :
  Held (UnpackedFloat.ofUInt64 .binary64 n)
  := by
  rw [UnpackedFloat.ofUInt64, UnpackedFloat.ofNat, UnpackedFloat.ofInt, UnpackedFloat.normalize]
  split
  · next h => exact absurd (Int.compare_eq_lt.1 h) (by omega)
  · trivial
  simp only [Int.toNat_natCast, UnpackedFloat.round, decreaseExponent]
  -- the mantissa is given up to 52 bits more before it is rounded
  have hshift : (0 - Format.binary64.targetExponent (totalExponent n.toNat 0)).toNat ≤ 52 := by
    simp only [Format.targetExponent, totalExponent, Format.mantissaBits, Format.minExponent]
    omega
  generalize (0 - Format.binary64.targetExponent (totalExponent n.toNat 0)).toNat = k at *
  apply held_roundWithAccuracy
  · have hpow : 2 ^ k ≤ 2 ^ 52 := Nat.pow_le_pow_right (by decide) hshift
    calc n.toNat <<< k = n.toNat * 2 ^ k := Nat.shiftLeft_eq _ _
      _ ≤ n.toNat * 2 ^ 52 := Nat.mul_le_mul_left _ hpow
      _ < 2 ^ 116 := by have := n.toNat_lt; omega
  · omega
  · omega

/-! ## The pattern -/

/-- An exponent below the greatest makes the pattern of a finite number. -/
theorem isFinite_packComponents (s : UnpackedFloat.Sign) {e : BitVec 11} (m : BitVec 52)
    (he : e.toNat ≤ 2046) :
  (⟨UInt64.ofBitVec (packComponents .binary64 s e m)⟩ : Binary64).isFinite = true
  := by
  have hlt := e.isLt
  have hm := m.isLt
  have hmagnitude : (⟨UInt64.ofBitVec (packComponents .binary64 s e m)⟩ : Binary64).magnitude
      = e.toNat * 2 ^ 52 + m.toNat := by
    show (s.toBitVec ++ e ++ m).toNat % 2 ^ 63 = _
    rw [BitVec.toNat_append, BitVec.toNat_append, ← Nat.shiftLeft_add_eq_or_of_lt hm,
      ← Nat.shiftLeft_add_eq_or_of_lt hlt]
    simp only [Nat.shiftLeft_eq]
    omega
  rw [isFinite, hmagnitude, decide_eq_true_eq]
  omega

/-- A number that the format can hold is packed with an exponent below the greatest. -/
theorem pack_of_held {f : UnpackedFloat} (h : Held f) :
  ∃ (s : UnpackedFloat.Sign) (e : BitVec 11) (m : BitVec 52),
    UnpackedFloat.pack .binary64 f = packComponents .binary64 s e m ∧ e.toNat ≤ 2046
  := by
  cases f with
  | infinity s => exact h.elim
  | notANumber => exact h.elim
  | zero s => exact ⟨s, 0, 0, rfl, by decide⟩
  | finite s m e hpos =>
    have he : e ≤ 970 := h
    have hbias : Format.binary64.exponentBias = 1023 := by decide
    simp only [UnpackedFloat.pack, hbias]
    split
    · omega
    split
    · refine ⟨s, _, _, rfl, ?_⟩
      rw [BitVec.toNat_ofNat]
      omega
    · exact ⟨s, 0, _, rfl, by decide⟩

/-- A whole number is finite once it is rounded. -/
theorem isFinite_ofNat (n : UInt64) :
  (ofNat n).isFinite = true
  := by
  obtain ⟨s, e, m, hpack, he⟩ := pack_of_held (held_ofUInt64 n)
  have hofNat : ofNat n
      = ⟨UInt64.ofBitVec (UnpackedFloat.pack .binary64 (.ofUInt64 .binary64 n))⟩ := rfl
  rw [hofNat, hpack]
  exact isFinite_packComponents s m he

/-- A number with the other sign is as finite as before. -/
@[simp]
theorem isFinite_negate (b : Binary64) :
  b.negate.isFinite = b.isFinite
  := by
  have h : b.negate.magnitude = b.magnitude := by
    rw [magnitude, magnitude, negate, UInt64.toNat_xor]
    show (b.bits.toNat ^^^ 2 ^ 63) % 2 ^ 63 = _ % 2 ^ 63
    rw [Nat.xor_mod_two_pow, Nat.mod_self, Nat.xor_zero]
  rw [isFinite, isFinite, h]

end Binary64

namespace Json

/-! ## Reading and writing -/

/-- A number that is read is finite. -/
theorem isFinite_of_number {j : Json} {b : Binary64} (h : Decoder.number j = .ok b) :
  b.isFinite = true
  := by
  cases j with
  | int i =>
    injection h with h
    subst h
    split
    · exact Binary64.isFinite_ofNat _
    · rw [Binary64.isFinite_negate]
      exact Binary64.isFinite_ofNat _
  | real c hc =>
    injection h with h
    exact h ▸ hc
  | _ => cases h

/-- A finite number is read as it was written. -/
theorem number_ofBinary64 {b : Binary64} (h : b.isFinite = true) :
  Decoder.number (.ofBinary64 b) = .ok b
  := by
  rw [ofBinary64_of_finite h]
  rfl

end Json

end Patchboard
