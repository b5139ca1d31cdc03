/-
  White space: the 25 characters with the Unicode property White_Space.

  Numbers may be surrounded by any of them.  The table is wider than the four characters that
  `Char.isWhitespace` knows, and it takes none of those away (`isBlank_of_isWhitespace`).
-/
import RobotPuzzle.Text.Ranges

namespace RobotPuzzle.Text

/-- White space, as ranges. -/
def blankRanges : Ranges :=
  [(0x09, 0x0D), (0x20, 0x20), (0x85, 0x85), (0xA0, 0xA0), (0x1680, 0x1680), (0x2000, 0x200A),
   (0x2028, 0x2029), (0x202F, 0x202F), (0x205F, 0x205F), (0x3000, 0x3000)]

/-- The character is white space. -/
def isBlank (c : Char) : Bool := blankRanges.holds c

/-- Every character that core calls white space is blank. -/
theorem isBlank_of_isWhitespace (c : Char) (h : c.isWhitespace = true) : isBlank c = true := by
  simp only [Char.isWhitespace, Bool.or_eq_true, decide_eq_true_eq] at h
  rcases h with ((h | h) | h) | h <;> subst h <;> decide

/-- The text without blanks at either end. -/
def trimBlanks (s : List Char) : List Char :=
  ((s.dropWhile isBlank).reverse.dropWhile isBlank).reverse

example : trimBlanks [' ', '7', '\u3000'] = ['7'] := by decide

end RobotPuzzle.Text
