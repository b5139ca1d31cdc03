/-
  JSON values.

  Whole numbers and fractional numbers are kept apart, since `1` and `1.0` are different things to a
  level or a program.  An object is a list of members in the order in which their names first
  appeared; `insert` keeps the names distinct, and `get?` is the view through which the rest of the
  library reads an object.
-/
import RobotPuzzle.Decimal.Notation
import RobotPuzzle.Numeral

namespace RobotPuzzle

/-- A JSON value. -/
inductive Json where
  | null
  | bool (value : Bool)
  | int (value : Int)
  | real (value : Float)
  | str (text : String)
  | arr (items : List Json)
  | obj (members : List (String × Json))
deriving Inhabited, BEq

namespace Json

/-- A text is a JSON value. -/
instance : Coe String Json := ⟨.str⟩

/-- The member of that name, in a list of members. -/
def lookup (name : String) : List (String × Json) → Option Json
  | [] => none
  | (n, v) :: rest => if n == name then some v else lookup name rest

/-- Adds a member at the end, or replaces the value of the member of that name where it stands. -/
def insert (name : String) (value : Json) : List (String × Json) → List (String × Json)
  | [] => [(name, value)]
  | (n, v) :: rest => if n == name then (n, value) :: rest else (n, v) :: insert name value rest

theorem lookup_insert_self (name : String) (value : Json) (members : List (String × Json)) :
    lookup name (insert name value members) = some value := by
  induction members with
  | nil => simp [insert, lookup]
  | cons m rest ih =>
    by_cases h : (m.1 == name) = true <;> simp [insert, lookup, h, ih]

theorem lookup_insert_of_ne {name other : String} (value : Json) (members : List (String × Json))
    (h : other ≠ name) : lookup other (insert name value members) = lookup other members := by
  induction members with
  | nil => simp [insert, lookup, Ne.symm h]
  | cons m rest ih =>
    by_cases hm : m.1 = name
    · have : ¬ m.1 = other := fun e => h (e.symm.trans hm)
      simp [insert, lookup, hm, Ne.symm h]
    · simp [insert, lookup, hm, ih]

theorem lookup_append (name : String) (members others : List (String × Json)) :
    lookup name (members ++ others) = (lookup name members).or (lookup name others) := by
  induction members with
  | nil => rfl
  | cons m rest ih =>
    by_cases h : (m.1 == name) = true <;> simp [lookup, h, ih]

/-- The member of that name; `none` for a missing member and for a value that is no object. -/
def get? (name : String) : Json → Option Json
  | .obj members => lookup name members
  | _ => none

/-- The member of that name, `null` if there is none. -/
def getD (name : String) (v : Json) : Json := (v.get? name).getD .null

/-- The word for the kind of a value. -/
def kind : Json → String
  | .null => "NoneType"
  | .bool _ => "bool"
  | .int _ => "int"
  | .real _ => "float"
  | .str _ => "str"
  | .arr _ => "list"
  | .obj _ => "dict"

/-- `null`, `false`, zero, and whatever is empty. -/
def isVoid : Json → Bool
  | .null => true
  | .bool value => !value
  | .int value => value == 0
  | .real value => (Decimal.Double.ofFloat value).isZero
  | .str text => text.isEmpty
  | .arr items => items.isEmpty
  | .obj members => members.isEmpty

/-- A whole number that this value equals: `true` is one, and `2.0` is two. -/
def toInt? : Json → Option Int
  | .bool value => some (if value then 1 else 0)
  | .int value => some value
  | .real value => (Decimal.Double.ofFloat value).toInt?
  | _ => none

/-- The text, if the value is one. -/
def toText? : Json → Option String
  | .str text => some text
  | _ => none

/-- `null` stands for an absent value. -/
def toOption : Json → Option Json
  | .null => none
  | v => some v

/-- An absent value is written as `null`. -/
def ofOption {α : Type} (encode : α → Json) : Option α → Json
  | none => .null
  | some a => encode a

@[simp] theorem get?_obj (name : String) (members : List (String × Json)) :
    (Json.obj members).get? name = lookup name members := rfl

@[simp] theorem lookup_cons_self (name : String) (v : Json) (rest : List (String × Json)) :
    lookup name ((name, v) :: rest) = some v := by simp [lookup]

/-! ## Reading a whole number out of any value -/

/-- Why a value is not a whole number. -/
inductive NumberFault where
  /-- null, a list and an object are no numbers -/
  | kind (word : String)
  | numeral (fault : Numeral.Fault)
  | notANumber
  | infinite

/-- The whole number a value stands for: fractions lose their fraction, texts are read as numerals. -/
def readInt : Json → Except NumberFault Int
  | .bool value => .ok (if value then 1 else 0)
  | .int value => .ok value
  | .real value =>
    match Decimal.Double.ofFloat value with
    | .infinite _ => .error .infinite
    | .undefined => .error .notANumber
    | .finite negative mantissa exponent =>
      .ok ((Decimal.Double.truncate (.finite negative mantissa exponent)).getD 0)
  | .str text =>
    match Numeral.read text with
    | .ok n => .ok n
    | .error fault => .error (.numeral fault)
  | v => .error (.kind v.kind)

@[simp] theorem readInt_int (n : Int) : readInt (.int n) = .ok n := rfl

end Json

end RobotPuzzle
