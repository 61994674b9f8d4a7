import Patchboard.Binary64

/-!
# Reading a number

The numeral of a data file has a sign, whole digits, and perhaps a fraction and a power of ten. It
is read the quick way. The leading digits that fit in 64 bits form a whole number; digits beyond
them count only for the power of ten, and not at all behind the point. The whole number is rounded
to binary64 and then multiplied or divided by the power of ten, which rounds once more. So a numeral
of few digits is read exactly, and a long one may be read one unit off.
-/

namespace Patchboard

/-- The parts of a numeral. -/
structure Numeral where
  /-- A minus sign stands in front. -/
  negative : Bool
  /-- The digits before the point. -/
  whole : List Nat
  /-- The digits after the point, if a point is written. -/
  fraction : Option (List Nat)
  /-- The power of ten, if one is written. -/
  exponent : Option Int

namespace Numeral

/-- Appends digits to a significand while it fits in 64 bits. Gives the significand and the number
of digits it took. -/
def gather (digits : List Nat) (significand : Nat) : Nat × Nat :=
  match digits with
  | [] => (significand, 0)
  | d :: rest =>
    if significand * 10 + d < UInt64.size then
      let (s, taken) := gather rest (significand * 10 + d)
      (s, taken + 1)
    else (significand, 0)

/-- The significand of a numeral and its power of ten. -/
def scaled (n : Numeral) : Nat × Int :=
  let (s, taken) := gather n.whole 0
  let dropped := n.whole.length - taken
  let (s, places) := gather (n.fraction.getD []) s
  (s, Int.ofNat dropped - Int.ofNat places + n.exponent.getD 0)

/-- The power of ten `10 ^ k`, rounded. -/
def powerOfTen (k : Nat) : Float :=
  Float.ofScientific 1 false k

/-- Divides by `10 ^ k`, in steps of at most 308 powers, and stops early at zero. -/
def shrink (x : Float) (k : Nat) : Float :=
  if k ≤ 308 then x / powerOfTen k
  else if x == 0.0 then x
  else shrink (x / powerOfTen 308) (k - 308)
termination_by k
decreasing_by omega

/-- The number `s * 10 ^ k`, rounded as described above; none when it is out of range. -/
def scale? (s : Nat) (k : Int) : Option Float :=
  let x := s.toUInt64.toFloat
  if k < 0 then some (shrink x k.natAbs)
  else if k ≤ 308 then
    let y := x * powerOfTen k.natAbs
    if y.isInf then none else some y
  else if x == 0.0 then some x
  else none

/-- The binary64 number that a numeral stands for; none when it is out of range. -/
def toBinary64? (n : Numeral) : Option Binary64 :=
  let (s, k) := n.scaled
  (scale? s k).map fun x =>
    let b := Binary64.ofFloat x
    if n.negative then b.negate else b

/-- The whole number that a numeral stands for, when it has neither point nor power of ten, fits in
64 bits with its sign, and is not `-0`. -/
def toInt? (n : Numeral) : Option Int :=
  match n.fraction, n.exponent with
  | none, none =>
    let s := n.whole.foldl (fun s d => s * 10 + d) 0
    if n.negative then
      if 0 < s ∧ s ≤ 0x8000000000000000 then some (-Int.ofNat s) else none
    else if s < UInt64.size then some (Int.ofNat s) else none
  | _, _ => none

end Numeral

end Patchboard
