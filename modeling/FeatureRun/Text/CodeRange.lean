/-!
# Ranges of code points

Properties of characters are given as lists of ranges of code points.
-/
set_option autoImplicit false

namespace FeatureRun.Text

/-- The code points from the first to the second, both included. -/
abbrev CodeRange := Nat × Nat

def inRanges (rs : List CodeRange) (c : Char) : Bool :=
  rs.any fun r => r.1 ≤ c.toNat && c.toNat ≤ r.2

end FeatureRun.Text
