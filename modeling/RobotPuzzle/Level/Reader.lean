/-
  Reading levels.

  A level is an object.  The board is a non-empty list of rows of one width.  Robots enter at
  `spawner`, or at `start` in older levels; exits are listed in `exits`, or a single one stands in
  `goal`.  Numbers may be written in any way `Json.readInt` reads; headings are numbers modulo four or
  compass letters.

  A field is read when it is needed, in a fixed order, and the first fault is the one that is
  reported.  Almost every fault is a refusal of the level (`Fault.isRefusal`).
-/
import RobotPuzzle.Level.Basic
import RobotPuzzle.Text.Upper

namespace RobotPuzzle

namespace Level

/-- Why a value is not a level. -/
inductive Fault where
  /-- members are asked of a value that is no object -/
  | noObject (kind : String)
  | noGrid
  | unevenRows
  | noStart
  | direction (value : Json)
  | missing (name : String)
  /-- a named member is asked of a value that is no object -/
  | noMembers (kind : String)
  /-- items are asked of a value that holds none -/
  | noItems (kind : String)
  | number (fault : Json.NumberFault)

/-- A refusal that quotes its cause. -/
def malformed (cause detail : String) : String :=
  "Malformed level definition: " ++ cause ++ "(" ++ Text.quoted detail ++ ")"

/-- What is said of a value that is asked for a named member and is no object. -/
def indexMessage (kind : String) : String :=
  if kind == "str" then "string indices must be integers, not 'str'"
  else if kind == "list" then "list indices must be integers or slices, not str"
  else "'" ++ kind ++ "' object is not subscriptable"

def Fault.message : Fault → String
  | .noObject kind => "'" ++ kind ++ "' object has no attribute 'get'"
  | .noGrid => "Level grid must be a non-empty list of non-empty rows"
  | .unevenRows => "Level grid rows must all have the same width"
  | .noStart => "Level has neither a spawner nor a start position"
  | .direction value => "Invalid direction: " ++ value.shown
  | .missing name => malformed "KeyError" name
  | .noMembers kind => malformed "TypeError" (indexMessage kind)
  | .noItems kind => malformed "TypeError" ("'" ++ kind ++ "' object is not iterable")
  | .number (.kind word) => malformed "TypeError" (Json.NumberFault.message (.kind word))
  | .number .infinite => Json.NumberFault.message .infinite
  | .number fault => malformed "ValueError" fault.message

/-- The level is refused; the other faults are failures of the reader itself. -/
def Fault.isRefusal : Fault → Bool
  | .noObject _ => false
  | .number .infinite => false
  | _ => true

/-- A heading: a number modulo four, or a compass letter in either case. -/
def readDirection : Json → Except Fault Direction
  | .int n => .ok (Direction.ofTurns n)
  | .str text =>
    match Text.upper text with
    | "N" => .ok .north
    | "E" => .ok .east
    | "S" => .ok .south
    | "W" => .ok .west
    | _ => .error (.direction (.str text))
  | v => .error (.direction v)

/-- A whole number. -/
def readNumber (v : Json) : Except Fault Int :=
  match v.readInt with
  | .ok n => .ok n
  | .error fault => .error (.number fault)

/-- The member of that name, which must be there. -/
def member (v : Json) (name : String) : Except Fault Json :=
  match v with
  | .obj members =>
    match Json.lookup name members with
    | some value => .ok value
    | none => .error (.missing name)
  | v => .error (.noMembers v.kind)

/-- The position in the members `x` and `y`. -/
def readCell (v : Json) : Except Fault Cell := do
  let x ← readNumber (← member v "x")
  let y ← readNumber (← member v "y")
  pure ⟨x, y⟩

/-- The heading in the member `dir`, east if there is none. -/
def readHeading (v : Json) : Except Fault Int := do
  let d ← readDirection ((v.get? "dir").getD (.int 1))
  pure d.number

/-- A position and a heading. -/
def readPose (v : Json) : Except Fault Pose := do
  let cell ← readCell v
  let heading ← readHeading v
  pure ⟨cell, heading⟩

/-- The items of a value. -/
def readItems (v : Json) : Except Fault (List Json) :=
  match v.elements with
  | .ok items => .ok items
  | .error kind => .error (.noItems kind)

/-- The poses in the member `starts`; none when it is missing or void. -/
def readStarts (v : Json) : Except Fault (List Pose) :=
  let starts := v.getD "starts"
  if starts.isVoid then .ok []
  else do
    let items ← readItems starts
    items.mapM readPose

/-- A spawner. -/
def readSpawner (v : Json) : Except Fault Spawner :=
  match v with
  | .obj _ => do
    let starts ← readStarts v
    let pose ← readPose v
    let count ← readNumber ((v.get? "count").getD (.int 1))
    let interval ← readNumber ((v.get? "intervalTicks").getD (.int 0))
    pure { pose, count, interval, starts }
  | v => .error (.noObject v.kind)

/-- The rows of the board, not yet as numbers. -/
def readRows (v : Json) : Except Fault (List (List Json)) :=
  if v.isVoid then .error .noGrid
  else do
    let rows ← readItems v
    let rows ← rows.mapM fun row =>
      match row with
      | .arr (cell :: cells) => .ok (cell :: cells)
      | _ => .error .noGrid
    if rows.all fun row => row.length == (rows.head?.map (·.length)).getD 0 then pure rows
    else throw .unevenRows

/-- Where robots enter: `spawner` wins over `start`. -/
def readEntry (v : Json) : Except Fault Spawner :=
  match v.getD "spawner", v.getD "start" with
  | .null, .null => .error .noStart
  | .null, start => do
    let pose ← readPose start
    pure { pose }
  | spawner, _ => readSpawner spawner

/-- The exits that are named: `exits` wins over `goal`. -/
def readExits (v : Json) : Except Fault (List Cell) :=
  match v.getD "exits", v.getD "goal" with
  | .null, .null => .ok []
  | .null, goal => do
    let cell ← readCell goal
    pure [cell]
  | exits, _ => do
    let items ← readItems exits
    items.mapM readCell

/-- The level a JSON value describes. -/
def ofJson (v : Json) : Except Fault Level :=
  match v with
  | .obj _ => do
    let rows ← readRows (v.getD "grid")
    let spawner ← readEntry v
    let exits ← readExits v
    let grid ← rows.mapM fun row => row.mapM readNumber
    let requiredSaved ← readNumber ((v.get? "requiredSaved").getD (.int 1))
    let maxTicks ←
      match v.getD "maxTicks" with
      | .null => pure none
      | limit => some <$> readNumber limit
    pure { grid, spawner, exits, requiredSaved, maxTicks, id := v.getD "id", name := v.getD "name" }
  | v => .error (.noObject v.kind)

end Level

end RobotPuzzle
