import Patchboard.Decimal.Shortest

/-!
# Writing a number

The digits of a number are those of its shortest decimal. How they are laid out is a format's
decision, and each format is one `Layout`: where it writes powers of ten, whether a whole number
keeps a fraction, and which of two equally near decimals it takes.
-/

namespace Patchboard

/-- The decisions of a number format. -/
structure Layout where
  /-- Whether a number whose first digit has this power of ten is written without an exponent. -/
  positional : Int → Bool
  /-- Whether a whole number written without an exponent ends in `.0`. -/
  unitFraction : Bool
  /-- Whether a positive exponent has a plus sign. -/
  exponentPlus : Bool
  /-- The choice between two equally near decimals. -/
  tie : Decimal.Tie
  /-- The text of infinity. -/
  infinity : String

namespace Layout

/-- Every number in full, as in source text and structured answers. -/
def plain : Layout where
  positional := fun _ => true
  unitFraction := false
  exponentPlus := false
  tie := .upward
  infinity := "Infinity"

/-- The digits written out with the decimal point in its place. The first digit has the power of
ten `k`. -/
def writePositional (layout : Layout) (ds : List Char) (k : Int) : List Char :=
  if k < 0 then
    ['0', '.'] ++ List.replicate ((-k).toNat - 1) '0' ++ ds
  else
    let whole := k.toNat + 1
    if ds.length ≤ whole then
      ds ++ List.replicate (whole - ds.length) '0'
        ++ (if layout.unitFraction then ['.', '0'] else [])
    else
      ds.take whole ++ '.' :: ds.drop whole

/-- The digits with the point after the first and the power of ten behind. -/
def writeScientific (layout : Layout) (ds : List Char) (k : Int) : List Char :=
  let sign := if k < 0 then ['-'] else if layout.exponentPlus then ['+'] else []
  let fraction := if ds.length ≤ 1 then [] else '.' :: ds.drop 1
  ds.take 1 ++ fraction ++ 'e' :: sign ++ Nat.toDigits 10 k.natAbs

/-- A decimal, which is not negative, in this format. -/
def writeDecimal (layout : Layout) (d : Decimal) : List Char :=
  let ds := Nat.toDigits 10 d.digits
  let k := d.exponent + Int.ofNat ds.length - 1
  if layout.positional k then layout.writePositional ds k else layout.writeScientific ds k

/-- A number in this format. The sign of a NaN is not written. -/
def write (layout : Layout) (b : Binary64) : String :=
  if b.isNaN then "NaN" else
    let sign := if b.isNegative then "-" else ""
    if b.isFinite then sign ++ String.ofList (layout.writeDecimal (b.shortest layout.tie))
    else sign ++ layout.infinity

end Layout

end Patchboard
