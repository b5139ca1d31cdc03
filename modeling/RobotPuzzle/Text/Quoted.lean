/-
  Text in quotation marks, as it stands inside a message.

  Single quotes surround the text unless it holds one and no double quote.  The mark in use and the
  backslash are escaped, line feed, carriage return and tab have letters of their own, and any other
  character that is not printable is written by its number: `\x` with two digits, `\u` with four,
  `\U` with eight.
-/
import RobotPuzzle.Text.Printable

namespace RobotPuzzle.Text

/-- `n` in lower-case hexadecimal, at least `width` digits. -/
def hex (width n : Nat) : List Char :=
  let digits := Nat.toDigits 16 n
  List.replicate (width - digits.length) '0' ++ digits

/-- The mark that surrounds the text. -/
def quoteMark (s : List Char) : Char :=
  if s.contains '\'' && !s.contains '"' then '"' else '\''

/-- How one character is written between two of the given marks. -/
def escape (mark c : Char) : List Char :=
  if c == '\\' || c == mark then ['\\', c]
  else if c == '\n' then ['\\', 'n']
  else if c == '\r' then ['\\', 'r']
  else if c == '\t' then ['\\', 't']
  else if isPrintable c then [c]
  else if c.toNat ≤ 0xFF then '\\' :: 'x' :: hex 2 c.toNat
  else if c.toNat ≤ 0xFFFF then '\\' :: 'u' :: hex 4 c.toNat
  else '\\' :: 'U' :: hex 8 c.toNat

/-- The text with its quotation marks. -/
def quoted (s : String) : String :=
  let cs := s.toList
  let mark := quoteMark cs
  String.ofList (mark :: cs.flatMap (escape mark) ++ [mark])

/-- A mark inside the text is never bare. -/
theorem escape_mark (mark : Char) : escape mark mark = ['\\', mark] := by
  simp [escape]

example : quoted "FLY" = "'FLY'" := by decide +kernel
example : quoted "it's" = "\"it's\"" := by decide +kernel
example : quoted "both ' and \"" = "'both \\' and \"'" := by decide +kernel

end RobotPuzzle.Text
