/-!
# Sets of characters given by ranges

A property of characters that a standard fixes by listing code points is kept as a list of closed
ranges, and membership is looked up in that list.

* `inRanges rs n`: some range of `rs` holds `n`;
* **`inRanges_iff`** reads membership back.
-/

namespace ModelInputs.Text

/-- Some range of the list holds the code point. -/
def inRanges (ranges : List (Nat × Nat)) (n : Nat) : Bool :=
  ranges.any fun r => decide (r.1 ≤ n) && decide (n ≤ r.2)

theorem inRanges_iff {ranges : List (Nat × Nat)} {n : Nat} :
    inRanges ranges n = true ↔ ∃ r ∈ ranges, r.1 ≤ n ∧ n ≤ r.2 := by
  simp [inRanges]

end ModelInputs.Text
