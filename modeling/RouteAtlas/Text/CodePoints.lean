/-!
# Sets of code points

A set of code points is written as the increasing list of its ranges.
-/

namespace RouteAtlas.Text

/-- Ranges of code points, both ends included, in increasing order. -/
abbrev CodePoints := List (Nat × Nat)

namespace CodePoints

/-- Whether `n` lies in one of the ranges. The search ends at the first range above `n`. -/
def has (n : Nat) : CodePoints → Bool
  | [] => false
  | (low, high) :: rest => if n < low then false else n ≤ high || has n rest

end CodePoints

end RouteAtlas.Text
