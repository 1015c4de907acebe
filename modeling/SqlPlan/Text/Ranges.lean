/-!
# Ranges of code points

A property of characters is kept as the ranges of the code points that have it, in increasing order, both ends
included. All tables are those of Unicode 17.
-/

namespace SqlPlan

/-- Whether the code point of a character lies in one of the ranges. -/
def inRanges (ranges : List (Nat × Nat)) (c : Char) : Bool :=
  ranges.any fun r => r.1 ≤ c.toNat && c.toNat ≤ r.2

end SqlPlan
