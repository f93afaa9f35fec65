/-!
# Sets of code points as ranges

A set of characters is written as the ascending list of its ranges, each with its first and its
last code point.
-/

namespace Stencil

/-- A set of code points: disjoint ranges, bounds included, in ascending order. -/
abbrev Ranges := List (Nat × Nat)

namespace Ranges

/-- Whether a code point lies in one of the ranges. The search stops at the first range that starts
past the point, because all later ones do so too. -/
def contains : Ranges → Nat → Bool
  | [], _ => false
  | (low, high) :: rest, n => if n < low then false else n ≤ high || contains rest n

end Ranges

end Stencil
