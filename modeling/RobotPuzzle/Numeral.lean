/-
  Whole numbers written by people.

  A numeral may be surrounded by blanks, may start with one sign, and may group its digits by single
  underscores; the digits may come from any script.  A numeral of more than 4300 digits is refused.

  `read` splits off blanks and sign and hands the digits to `digitsOf?`, which is the grammar
  "digit (underscore? digit)*"; `valueOf` reads the digits in base ten.
-/
import RobotPuzzle.Text.Blank
import RobotPuzzle.Text.Digit
import RobotPuzzle.Text.Quoted

namespace RobotPuzzle.Numeral

/-- Why a text is not a number. -/
inductive Fault where
  | malformed (text : String)
  | tooLong (digits : Nat)
deriving DecidableEq

/-- The greatest number of digits that is read. -/
def digitLimit : Nat := 4300

/-- The wording of a fault; a long text is shown by the first 200 characters of its quoted form. -/
def Fault.message : Fault → String
  | .malformed text =>
    "invalid literal for int() with base 10: " ++ String.ofList ((Text.quoted text).toList.take 200)
  | .tooLong digits =>
    "Exceeds the limit (" ++ toString digitLimit ++ " digits) for integer string conversion: value has "
      ++ toString digits ++ " digits; use sys.set_int_max_str_digits() to increase the limit"

/-- The values of a run of digits with single underscores between them. -/
def digitsOf? : List Char → Option (List Nat)
  | [] => none
  | [c] => (Text.digitValue? c).map ([·])
  | c :: '_' :: rest => do
    let d ← Text.digitValue? c
    let ds ← digitsOf? rest
    pure (d :: ds)
  | c :: rest => do
    let d ← Text.digitValue? c
    let ds ← digitsOf? rest
    pure (d :: ds)

/-- The number written by these digits. -/
def valueOf (ds : List Nat) : Nat := ds.foldl (fun n d => 10 * n + d) 0

theorem valueOf_append (ds : List Nat) (d : Nat) : valueOf (ds ++ [d]) = 10 * valueOf ds + d := by
  simp [valueOf]

/-- A sign and the rest. -/
def splitSign : List Char → Bool × List Char
  | '-' :: rest => (true, rest)
  | '+' :: rest => (false, rest)
  | cs => (false, cs)

/-- The number a text stands for. -/
def read (text : String) : Except Fault Int :=
  let (negative, digits) := splitSign (Text.trimBlanks text.toList)
  match digitsOf? digits with
  | none => .error (.malformed text)
  | some ds =>
    if ds.length > digitLimit then .error (.tooLong ds.length)
    else .ok (if negative then -(valueOf ds : Int) else valueOf ds)

example : (read " +1_000 ").toOption = some 1000 := by decide +kernel
example : (read "-\u0663").toOption = some (-3) := by decide +kernel
example : (read "_1").toOption = none := by decide +kernel
example : (read "1__0").toOption = none := by decide +kernel

end RobotPuzzle.Numeral
