/-!
# Sets of characters as ranges of code points

A property of characters is a list of ranges, both ends included.
-/

namespace GeoRules.Text

/-- Whether one of the ranges holds `c`. -/
def inRanges (ranges : List (Nat × Nat)) (c : Char) : Bool :=
  ranges.any fun r => r.1 ≤ c.toNat && c.toNat ≤ r.2

end GeoRules.Text
