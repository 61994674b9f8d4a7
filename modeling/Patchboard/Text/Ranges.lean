/-!
# Sets of characters given by ranges

A class of characters is given by inclusive ranges of code points. The classes themselves are
tables, one per module.
-/

namespace Patchboard.Text

/-- Inclusive ranges of code points. -/
abbrev Ranges := List (Nat × Nat)

/-- A character lies in a set of ranges when its code point lies in one of them. -/
def Ranges.contains (ranges : Ranges) (c : Char) : Bool :=
  ranges.any fun (first, last) => first ≤ c.toNat && c.toNat ≤ last

/-- Membership, said of the ranges. -/
theorem Ranges.contains_iff (ranges : Ranges) (c : Char) :
  ranges.contains c = true ↔ ∃ r ∈ ranges, r.1 ≤ c.toNat ∧ c.toNat ≤ r.2
  := by
  simp [Ranges.contains]

end Patchboard.Text
