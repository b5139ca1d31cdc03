/-
  How a JSON value stands inside a message.

  `shown` quotes texts, at the top and inside lists and objects; `plain` differs from it at the top
  only, where a text stands for itself.
-/
import RobotPuzzle.Json.Basic

namespace RobotPuzzle

namespace Json

mutual

/-- The value as it is quoted in a message. -/
def shown : Json → String
  | .null => "None"
  | .bool value => if value then "True" else "False"
  | .int value => toString value
  | .real value => Decimal.text value
  | .str text => Text.quoted text
  | .arr items => "[" ++ ", ".intercalate (shownItems items) ++ "]"
  | .obj members => "\x7b" ++ ", ".intercalate (shownMembers members) ++ "\x7d"

def shownItems : List Json → List String
  | [] => []
  | v :: rest => shown v :: shownItems rest

def shownMembers : List (String × Json) → List String
  | [] => []
  | (name, v) :: rest => (Text.quoted name ++ ": " ++ shown v) :: shownMembers rest

end

/-- The value as it is named in a message. -/
def plain : Json → String
  | .str text => text
  | v => v.shown

/-- The wording of a number fault. -/
def NumberFault.message : NumberFault → String
  | .kind word =>
    "int() argument must be a string, a bytes-like object or a real number, not " ++ Text.quoted word
  | .numeral fault => fault.message
  | .notANumber => "cannot convert float NaN to integer"
  | .infinite => "cannot convert float infinity to integer"

end Json

end RobotPuzzle
