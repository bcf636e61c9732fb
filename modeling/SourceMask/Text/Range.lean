/-!
# Character ranges

A property of characters is kept as a table of code point ranges, both ends included and in
ascending order.
-/

namespace SourceMask

namespace Text

/-- Whether a code point lies in one of the ranges. -/
def inRanges (ranges : List (Nat × Nat)) (code : Nat) : Bool :=
  ranges.any fun (low, high) => low ≤ code && code ≤ high

end Text

end SourceMask
