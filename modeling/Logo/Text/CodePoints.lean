/-!
# Sets of code points

A property of characters is given by its code points, listed as closed ranges in increasing order.
-/

namespace Logo.Text

/-- A set of code points, as closed ranges. -/
structure CodePoints where
  /-- First and last code point of each range. -/
  ranges : List (Nat × Nat)

/-- Whether the set holds the character. -/
def CodePoints.contains (s : CodePoints) (c : Char) : Bool :=
  s.ranges.any fun r => r.1 ≤ c.toNat && c.toNat ≤ r.2

end Logo.Text
