/-!
# Binary64 numbers

Positions, sizes and literal values are IEEE binary64 numbers, held as their 64-bit patterns. The
pattern keeps what the value alone forgets: the sign of a zero and the sign of a NaN. Arithmetic
and comparison are those of `Float`, reached through the pattern.
-/

namespace Patchboard

/-- A binary64 number, given by its pattern: sign, eleven exponent bits, fifty-two fraction
bits. -/
structure Binary64 where
  /-- The 64-bit pattern. -/
  bits : UInt64
deriving DecidableEq, Hashable

namespace Binary64

/-- The pattern of a `Float`. -/
def ofFloat (x : Float) : Binary64 :=
  ⟨x.toBits⟩

/-- The `Float` with this pattern. -/
def toFloat (b : Binary64) : Float :=
  Float.ofBits b.bits

/-- The number `n`, rounded to binary64. -/
def ofNat (n : UInt64) : Binary64 :=
  ofFloat n.toFloat

/-- Positive zero. -/
def zero : Binary64 :=
  ⟨0⟩

/-- Positive infinity. -/
def infinity : Binary64 :=
  ⟨0x7FF0000000000000⟩

/-- The quiet NaN with a clear sign bit. -/
def nan : Binary64 :=
  ⟨0x7FF8000000000000⟩

/-- The same pattern with the other sign bit, NaN included. -/
def negate (b : Binary64) : Binary64 :=
  ⟨b.bits ^^^ 0x8000000000000000⟩

/-! ## Reading the pattern -/

/-- The sign bit is set. This holds of `-0` and of a negative NaN too. -/
def isNegative (b : Binary64) : Bool :=
  b.bits ≥ 0x8000000000000000

/-- The pattern without its sign bit. Patterns of one sign are ordered by it. -/
def magnitude (b : Binary64) : Nat :=
  b.bits.toNat % 0x8000000000000000

/-- The number is neither infinite nor a NaN. -/
def isFinite (b : Binary64) : Bool :=
  b.magnitude < 0x7FF0000000000000

/-- The number is a NaN, of either sign. -/
def isNaN (b : Binary64) : Bool :=
  b.magnitude > 0x7FF0000000000000

/-- The bit that a number of the normal range has in front of its fraction. -/
def leadingBit : Nat :=
  0x10000000000000

/-- A finite number is `± m * 2 ^ q` for the pair `(m, q)` given here. Numbers below the normal
range have the least exponent and no leading bit. -/
def parts (b : Binary64) : Nat × Int :=
  let exponent : Nat := b.magnitude / leadingBit
  let fraction : Nat := b.magnitude % leadingBit
  if exponent = 0 then (fraction, -1074) else (fraction + leadingBit, Int.ofNat exponent - 1075)

/-! ## Arithmetic and order -/

/-- Sum, rounded. -/
def add (a b : Binary64) : Binary64 :=
  ofFloat (a.toFloat + b.toFloat)

/-- Difference, rounded. -/
def sub (a b : Binary64) : Binary64 :=
  ofFloat (a.toFloat - b.toFloat)

/-- Half of a number, rounded. -/
def half (b : Binary64) : Binary64 :=
  ofFloat (b.toFloat / 2.0)

/-- Order of the values. A NaN is at most nothing and nothing is at most a NaN. -/
def le (a b : Binary64) : Bool :=
  a.toFloat ≤ b.toFloat

/-- The place of a pattern in the total order: negative NaN, negative infinity, the negative
numbers, `-0`, `0`, the positive numbers, infinity, NaN. -/
def rank (b : Binary64) : Int :=
  if b.isNegative then -1 - (b.magnitude : Int) else b.magnitude

/-- The total order of the patterns, by rank. -/
def totalLe (a b : Binary64) : Bool :=
  a.rank ≤ b.rank

/-- The total order is total. -/
theorem totalLe_total (a b : Binary64) :
  (a.totalLe b || b.totalLe a) = true
  := by
  simp only [totalLe, Bool.or_eq_true, decide_eq_true_eq]
  omega

/-- The total order is transitive. -/
theorem totalLe_trans (a b c : Binary64) (hab : a.totalLe b = true) (hbc : b.totalLe c = true) :
  a.totalLe c = true
  := by
  simp only [totalLe, decide_eq_true_eq] at *
  omega

/-- Numbers of one rank are the same pattern. -/
theorem rank_injective {a b : Binary64} (h : a.rank = b.rank) :
  a = b
  := by
  obtain ⟨⟨⟨a, ha⟩⟩⟩ := a
  obtain ⟨⟨⟨b, hb⟩⟩⟩ := b
  simp only [rank, isNegative, magnitude, ge_iff_le, UInt64.le_iff_toNat_le, UInt64.toNat,
    BitVec.toNat, decide_eq_true_eq] at h
  have key : a = b := by
    simp at h
    split at h <;> split at h <;> omega
  subst key
  rfl

end Binary64

end Patchboard
