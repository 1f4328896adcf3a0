set_option autoImplicit false

/-!
# Sets of characters given by ranges

Character classes beyond ASCII are data of a standard: a list of inclusive ranges of code points.
-/

namespace DebugConsole.Text

/-- An inclusive range of code points, first to last. -/
abbrev CodeRange := Nat × Nat

/-- Does the code point of `c` lie in one of the ranges? -/
def inRanges (ranges : List CodeRange) (c : Char) : Bool :=
  ranges.any fun r => decide (r.1 ≤ c.toNat) && decide (c.toNat ≤ r.2)

theorem inRanges_iff {ranges : List CodeRange} {c : Char} :
    inRanges ranges c = true ↔ ∃ r ∈ ranges, r.1 ≤ c.toNat ∧ c.toNat ≤ r.2 := by
  simp [inRanges]

end DebugConsole.Text
