/-
  Forgiving readings of JSON values.

  Settings and requests take a whole number also from a text that spells one, from a truth value, and
  from a fraction that is whole.  A spelling may have blanks around it, one sign, single underscores
  between its digits, and a fraction of zeros; unlike `Numeral.read` it knows no digits but 0 to 9.
-/
import RobotPuzzle.Json.Basic

namespace RobotPuzzle

namespace Lenient

/-- The longest spelling that is read. -/
def lengthLimit : Nat := 4300

/-- The value of one of the digits 0 to 9. -/
def digit? (c : Char) : Option Nat :=
  if '0' ≤ c && c ≤ '9' then some (c.toNat - '0'.toNat) else none

/-- The number spelled by digits with single underscores between them. -/
def digits? (value : Nat) : List Char → Option Nat
  | [] => none
  | [c] => (digit? c).map (10 * value + ·)
  | c :: '_' :: rest => (digit? c).bind fun d => digits? (10 * value + d) rest
  | c :: rest => (digit? c).bind fun d => digits? (10 * value + d) rest

/-- The whole part of a spelling whose fraction holds nothing but zeros. -/
def wholePart (cs : List Char) : Option (List Char) :=
  if (cs.dropWhile (· ≠ '.')).tail.all (· == '0') then some (cs.takeWhile (· ≠ '.')) else none

/-- The whole number a text spells. -/
def ofText? (text : String) : Option Int :=
  let trimmed := Text.trimBlanks text.toList
  if lengthLimit < trimmed.length then none
  else
    let (negative, unsigned) := Numeral.splitSign trimmed
    ((wholePart unsigned).bind (digits? 0)).map fun n => if negative then -(n : Int) else n

/-- Whole numbers written as fractions are read below two to the power of 63 only. -/
def fractionLimit : Nat := 0x8000000000000000

/-- The whole number meant by a value. -/
def int? : Json → Option Int
  | .str text => ofText? text
  | .real value =>
    match (Decimal.Double.ofFloat value).toInt? with
    | some n => if n.natAbs < fractionLimit then some n else none
    | none => none
  | v => v.toInt?

example : ofText? " +1_000.0 " = some 1000 := by decide +kernel
example : ofText? "1.5" = none := by decide +kernel
example : ofText? "" = none := by decide +kernel
example : ofText? "1__0" = none := by decide +kernel

end Lenient

end RobotPuzzle
