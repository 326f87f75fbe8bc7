/-!
Sets of characters as sorted lists of closed ranges of code points.
-/

namespace SqfMinifier

abbrev CodePoints := List (Nat × Nat)

def CodePoints.contains (set : CodePoints) (c : Char) : Bool :=
  set.any fun range => range.1 ≤ c.toNat && c.toNat ≤ range.2

end SqfMinifier
