/-
  Line breaks of text files.

  A file may end its lines with a line feed, a carriage return, or both in this order; each counts as
  one line feed (`unifyBreaks_noReturn`: no carriage return is left).
-/

namespace RobotPuzzle.Text

/-- Every line break as a single line feed. -/
def unifyBreaks : List Char → List Char
  | [] => []
  | '\r' :: '\n' :: rest => '\n' :: unifyBreaks rest
  | '\r' :: rest => '\n' :: unifyBreaks rest
  | c :: rest => c :: unifyBreaks rest

theorem unifyBreaks_noReturn (s : List Char) : '\r' ∉ unifyBreaks s := by
  fun_induction unifyBreaks s <;> simp_all [eq_comm]

/-- The text of a file, as it is read. -/
def ofFile (content : String) : String := String.ofList (unifyBreaks content.toList)

end RobotPuzzle.Text
