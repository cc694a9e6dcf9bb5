/-
Sets of characters given as a table of code point intervals, both ends included.
-/

namespace SlideFlow.Text

/-- The character lies in one of the intervals. -/
def within (intervals : List (Nat × Nat)) (c : Char) : Bool :=
  intervals.any fun (lo, hi) => decide (lo ≤ c.toNat) && decide (c.toNat ≤ hi)

theorem within_iff {intervals : List (Nat × Nat)} {c : Char} :
    within intervals c = true ↔ ∃ p ∈ intervals, p.1 ≤ c.toNat ∧ c.toNat ≤ p.2 := by
  simp [within]

end SlideFlow.Text
