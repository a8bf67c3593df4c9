/-! Sets of characters given by ranges of code points. -/
namespace DocumentStore.Text

def inRanges (ranges : List (Nat × Nat)) (n : Nat) : Bool :=
  ranges.any fun r => decide (r.1 ≤ n) && decide (n ≤ r.2)

end DocumentStore.Text
