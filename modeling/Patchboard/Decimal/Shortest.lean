import Patchboard.Binary64

/-!
# The shortest decimal that reads back

A finite binary64 number `m * 2 ^ q` stands for every real number that rounds to it: those between
the midpoints to its two neighbours, the midpoints included when `m` is even. The shortest decimal
of the number is the one with the fewest digits in that interval, and of those with equally many
the one nearest to the number. All comparisons are between natural numbers.
-/

namespace Patchboard

/-- The decimal number `digits * 10 ^ exponent`. -/
structure Decimal where
  /-- The digits, read as a whole number. -/
  digits : Nat
  /-- The power of ten of the last digit. -/
  exponent : Int
deriving DecidableEq

namespace Decimal

/-- Which of two equally near decimals of equal length is the shortest decimal. -/
inductive Tie where
  /-- The one whose last digit is even. -/
  | toEven
  /-- The larger one. -/
  | upward
deriving DecidableEq

/-- The power `10 ^ k`; one when `k` is negative. -/
def tens (k : Int) : Nat :=
  Nat.pow 10 k.toNat

/-- The power `2 ^ k`; one when `k` is negative. -/
def twos (k : Int) : Nat :=
  Nat.pow 2 k.toNat

/-- Compares the decimal `d * 10 ^ e` with the dyadic number `m * 2 ^ q`, by bringing both to whole
numbers. -/
def compareDyadic (d : Nat) (e : Int) (m : Nat) (q : Int) : Ordering :=
  compare (d * tens e * twos (-q)) (m * twos q * tens (-e))

/-- The whole part of `m * 2 ^ q / 10 ^ e`. -/
def wholePart (m : Nat) (q e : Int) : Nat :=
  m * twos q * tens (-e) / (twos (-q) * tens e)

/-- The distance from `m` down to the midpoint below it, in quarters of the unit of `m`. At the
least significand of a binade the neighbour below is only half as far. -/
def gapBelow (m : Nat) (q : Int) : Nat :=
  if m = Binary64.leadingBit ∧ q ≠ -1074 then 1 else 2

/-- The decimal `d * 10 ^ e` rounds to the binary64 number `m * 2 ^ q`: it lies between the
midpoints, or on one of them when `m` is even. -/
def roundsTo (d : Nat) (e : Int) (m : Nat) (q : Int) : Bool :=
  let low := compareDyadic d e (4 * m - gapBelow m q) (q - 2)
  let high := compareDyadic d e (4 * m + 2) (q - 2)
  if m % 2 = 0 then low != .lt && high != .gt else low == .gt && high == .lt

/-- The nearer of the decimals `d` and `d + 1`, both in units of `10 ^ e`, to `m * 2 ^ q`, which
lies between them. -/
def nearer (tie : Tie) (d : Nat) (e : Int) (m : Nat) (q : Int) : Nat :=
  match compareDyadic (2 * d + 1) e (2 * m) q with
  | .lt => d + 1
  | .gt => d
  | .eq =>
    match tie with
    | .upward => d + 1
    | .toEven => if d % 2 = 0 then d else d + 1

/-- The decimal in units of `10 ^ e` that rounds to `m * 2 ^ q` and is nearest to it, if there is
one. Only the two units around the number can do. -/
def onGrid? (tie : Tie) (m : Nat) (q e : Int) : Option Nat :=
  let d := wholePart m q e
  match roundsTo d e m q, roundsTo (d + 1) e m q with
  | true, true => some (nearer tie d e m q)
  | true, false => some d
  | false, true => some (d + 1)
  | false, false => none

/-- The same decimal with no zero at its end. Zero itself is left alone. -/
def trim (d : Nat) (e : Int) : Decimal :=
  if d ≠ 0 ∧ d % 10 = 0 then trim (d / 10) (e + 1) else ⟨d, e⟩
termination_by d
decreasing_by omega

/-- The number of decimal digits of a whole number; zero has one. -/
def length (n : Nat) : Nat :=
  (Nat.toDigits 10 n).length

/-- The number of digits of `m * 2 ^ q` before the decimal point; the count is zero or negative
when the number starts after the point. -/
def pointPosition (m : Nat) (q : Int) : Int :=
  Int.ofNat (length (wholePart m q (-400))) - 400

/-- The decimal that equals `m * 2 ^ q`. -/
def exact (m : Nat) (q : Int) : Decimal :=
  trim (m * twos q * Nat.pow 5 (-q).toNat) (-Int.ofNat (-q).toNat)

/-- The shortest decimal of `m * 2 ^ q`. Seventeen digits always suffice. -/
def shortest (tie : Tie) (m : Nat) (q : Int) : Decimal :=
  if m = 0 then ⟨0, 0⟩ else
    let point := pointPosition m q
    let found := (List.range 17).findSome? fun n =>
      let e := point - Int.ofNat (n + 1)
      (onGrid? tie m q e).map fun d => trim d e
    found.getD (exact m q)

end Decimal

/-- The shortest decimal of the absolute value of a finite number. -/
def Binary64.shortest (tie : Decimal.Tie) (b : Binary64) : Decimal :=
  Decimal.shortest tie b.parts.1 b.parts.2

end Patchboard
