/-
  Sets of characters given as closed ranges of code points.

  A character property is data: a list of pairs (first, last), ascending and apart.  `holds` looks a
  character up; the two facts worth having are that it is membership in one of the ranges, and that a
  concatenation of tables is the union of what they hold.
-/

namespace RobotPuzzle.Text

/-- Closed ranges of code points. -/
abbrev Ranges := List (Nat × Nat)

namespace Ranges

/-- Some range contains the character. -/
def holds (table : Ranges) (c : Char) : Bool :=
  table.any fun range => range.1 ≤ c.toNat && c.toNat ≤ range.2

theorem holds_iff (table : Ranges) (c : Char) :
    table.holds c = true ↔ ∃ range ∈ table, range.1 ≤ c.toNat ∧ c.toNat ≤ range.2 := by
  simp [holds]

theorem holds_append (left right : Ranges) (c : Char) :
    holds (left ++ right) c = (left.holds c || right.holds c) := by
  simp [holds]

end Ranges

end RobotPuzzle.Text
