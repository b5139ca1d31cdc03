/-
  Robots: where they stand, which way they look, and the six things they can be told to do.

  Headings are numbered clockwise from north, so turning is addition modulo four; a left turn and a
  right turn undo each other (`right_left`, `left_right`).  A robot that is dead or saved no longer
  blocks its cell.
-/
import RobotPuzzle.Grid

namespace RobotPuzzle

/-- A heading. -/
inductive Direction where
  | north
  | east
  | south
  | west
deriving DecidableEq, Repr, Inhabited

namespace Direction

/-- The number of a heading, clockwise from north. -/
def number : Direction → Int
  | north => 0
  | east => 1
  | south => 2
  | west => 3

/-- The heading with exactly this number. -/
def ofNumber? (n : Int) : Option Direction := [north, east, south, west].find? (·.number == n)

/-- The heading after `n` quarter turns clockwise from north. -/
def ofTurns (n : Int) : Direction := (ofNumber? (n % 4)).getD north

theorem ofNumber?_number (d : Direction) : ofNumber? d.number = some d := by cases d <;> rfl

theorem ofTurns_number (d : Direction) : ofTurns d.number = d := by cases d <;> rfl

theorem number_of_ofNumber? {n : Int} {d : Direction} (h : ofNumber? n = some d) : d.number = n := by
  simpa using List.find?_some h

theorem number_ofTurns (n : Int) : (ofTurns n).number = n % 4 := by
  have h : n % 4 = 0 ∨ n % 4 = 1 ∨ n % 4 = 2 ∨ n % 4 = 3 := by omega
  rcases h with h | h | h | h <;> simp [ofTurns, h] <;> rfl

def left (d : Direction) : Direction := ofTurns (d.number + 3)

def right (d : Direction) : Direction := ofTurns (d.number + 1)

theorem right_left (d : Direction) : d.left.right = d := by cases d <;> rfl

theorem left_right (d : Direction) : d.right.left = d := by cases d <;> rfl

/-- The heading a JSON value numbers. -/
def ofJson? (v : Json) : Option Direction := v.toInt?.bind ofNumber?

end Direction

/-- A side of a robot. -/
inductive Side where
  | ahead
  | left
  | right
deriving DecidableEq, Repr

namespace Side

/-- The side of that name; any other name means ahead. -/
def ofName (name : String) : Side :=
  if name == "left" then left else if name == "right" then right else ahead

/-- The number of the heading that points to this side of a robot whose heading has the number `n`.
Only a turn reduces the number modulo four. -/
def turnNumber : Side → Int → Int
  | ahead, n => n
  | left, n => (n + 3) % 4
  | right, n => (n + 1) % 4

end Side

/-- The heading that points to a side of a robot. -/
def Direction.toward (d : Direction) : Side → Direction
  | .ahead => d
  | .left => d.left
  | .right => d.right

theorem Direction.number_toward (d : Direction) (side : Side) :
    (d.toward side).number = side.turnNumber d.number := by
  cases d <;> cases side <;> rfl

/-- The neighbouring cell in a direction. -/
def Cell.step (c : Cell) : Direction → Cell
  | .north => ⟨c.x, c.y - 1⟩
  | .east => ⟨c.x + 1, c.y⟩
  | .south => ⟨c.x, c.y + 1⟩
  | .west => ⟨c.x - 1, c.y⟩

theorem Cell.step_ne (c : Cell) (d : Direction) : c.step d ≠ c := by
  cases c; cases d <;> simp only [Cell.step, ne_eq, Cell.mk.injEq] <;> omega

/-- What a robot can be told to do. -/
inductive Action where
  | moveForward
  | turnLeft
  | turnRight
  | wait
  | signalOn
  | signalOff
deriving DecidableEq, Repr, Inhabited

namespace Action

def all : List Action := [moveForward, turnLeft, turnRight, wait, signalOn, signalOff]

def name : Action → String
  | moveForward => "MOVE_FORWARD"
  | turnLeft => "TURN_LEFT"
  | turnRight => "TURN_RIGHT"
  | wait => "WAIT"
  | signalOn => "SIGNAL_ON"
  | signalOff => "SIGNAL_OFF"

def ofName? (name : String) : Option Action := all.find? (·.name == name)

theorem ofName?_name (a : Action) : ofName? a.name = some a := by cases a <;> rfl

theorem name_of_ofName? {s : String} {a : Action} (h : ofName? s = some a) : a.name = s := by
  simpa using List.find?_some h

/-- The action a JSON value names. -/
def ofJson? (v : Json) : Option Action := v.toText?.bind ofName?

end Action

/-- One robot on the board. -/
structure Robot where
  id : String
  cell : Cell
  heading : Direction
  alive : Bool := true
  saved : Bool := false
deriving DecidableEq, Repr, Inhabited

namespace Robot

/-- The robot occupies its cell: it is alive and not yet saved. -/
def blocking (r : Robot) : Bool := r.alive && !r.saved

/-- The robot in one word; a saved robot counts as saved whatever befell it. -/
def status (r : Robot) : String :=
  if r.saved then "saved" else if r.alive then "alive" else "dead"

/-- The neighbouring cell on a side of the robot. -/
def neighbour (r : Robot) (side : Side) : Cell := r.cell.step (r.heading.toward side)

end Robot

end RobotPuzzle
