/-!
# Weighted choice

Choosing an index with a probability proportional to its weight. The positive weights are laid out
one after the other, and a draw picks the weight that it falls on. All is stated for any type of
weights with an order, sums and differences.

## Main definitions

* `Weighted.total` - the sum of the positive weights
* `Weighted.pick` - the index that a threshold between zero and the total falls on
* `Weighted.choose?` - the index that a draw in `[0, 1)` chooses
-/

namespace IdleGame.Weighted

variable {α : Type} [Add α] [Sub α] [Mul α] [LE α] [LT α] [DecidableLE α] [DecidableLT α]

/-- The sum of the weights above `zero`. -/
def total (zero : α) (weights : List α) : α :=
  (weights.filter (fun w => decide (zero < w))).foldl (· + ·) zero

/-- Walks along the weights from index `i` with what is left of the threshold, over those that are
not positive, up to the one that the threshold falls on. Rounding may leave the threshold behind
the last weight; then `last` is chosen, the index of the last weight that was not passed over. -/
def pick (zero : α) : List α → Nat → α → Option Nat → Option Nat
  | [], _, _, last => last
  | w :: ws, i, threshold, last =>
    -- A weight that is not a number is neither passed over nor hit, but it counts as the last.
    if w ≤ zero then pick zero ws (i + 1) threshold last
    else if threshold < w then some i
    else pick zero ws (i + 1) (threshold - w) (some i)

/-- Whether some index can be chosen: only then is a number drawn. -/
def isChoosable (zero : α) (weights : List α) : Bool := ¬ total zero weights ≤ zero

/-- The index that `draw` chooses. -/
def choose? (zero : α) (weights : List α) (draw : α) : Option Nat :=
  if isChoosable zero weights then pick zero weights 0 (draw * total zero weights) none else none

end IdleGame.Weighted
