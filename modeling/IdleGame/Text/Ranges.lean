/-!
# Ranges of characters

Properties of characters beyond ASCII are kept as increasing lists of ranges of code points.
-/

namespace IdleGame.Text

/-- Ranges of code points, both ends included. -/
abbrev Ranges := List (Nat × Nat)

/-- Whether a character lies in one of the ranges. -/
def Ranges.contains (ranges : Ranges) (c : Char) : Bool :=
  ranges.any fun r => r.1 ≤ c.toNat && c.toNat ≤ r.2

end IdleGame.Text
