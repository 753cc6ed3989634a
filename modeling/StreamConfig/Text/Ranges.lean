/-! # Classes of characters by ranges

A property of characters is carried as a list of closed ranges of code points, ascending and apart.

* `inRanges` — membership of a code point;
* `inRanges_iff` — it means that one of the ranges holds the code point.
-/

namespace StreamConfig.Text

/-- Membership of a code point in a list of closed ranges. -/
def inRanges (ranges : List (Nat × Nat)) (n : Nat) : Bool :=
  ranges.any fun r => decide (r.1 ≤ n) && decide (n ≤ r.2)

/-- A code point is a member if some range starts at or before it and ends at or behind it. -/
theorem inRanges_iff {ranges : List (Nat × Nat)} {n : Nat} :
    inRanges ranges n = true ↔ ∃ r ∈ ranges, r.1 ≤ n ∧ n ≤ r.2 := by
  simp [inRanges]

end StreamConfig.Text
