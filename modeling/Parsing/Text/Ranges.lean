/-!
Sets of code points written as an ascending list of closed intervals. Membership stops at the first
interval that ends at or after the point sought.
-/

namespace Parsing

/-- Ascending, pairwise disjoint intervals, ends included. -/
abbrev Ranges := List (Nat × Nat)

namespace Ranges

def contains : Ranges → Nat → Bool
  | [], _ => false
  | (low, high) :: rest, n => if n ≤ high then low ≤ n else contains rest n

end Ranges

end Parsing
