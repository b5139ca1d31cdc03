/-
  What a robot can find out about its surroundings during one tick.

  A condition is a question to a `Sight`, which stays the same for the whole tick.  A side is clear
  when its cell is neither wall nor lethal nor a closed door (`Sight.clear`).
-/
import RobotPuzzle.Program.Basic
import RobotPuzzle.Simulation.State

namespace RobotPuzzle

/-- What a robot's program may look at. -/
structure Sight where
  grid : Grid
  robot : Robot
  /-- the exits it may see -/
  exits : List Cell := []
  /-- whether doors are passages to it -/
  doorOpen : Bool := false
  /-- the signal it hears -/
  globalSignal : Bool := false
deriving Repr

namespace Sight

/-- The tile of the cell on a side. -/
def tileAt (s : Sight) (side : Side) : Tile := s.grid.tile (s.robot.neighbour side)

/-- The robot could walk to a side and live. -/
def clear (s : Sight) (side : Side) : Bool :=
  let tile := s.tileAt side
  tile != .wall && !tile.lethal && (tile != .door || s.doorOpen)

/-- Whether one kind of condition holds. -/
def sees (s : Sight) : ConditionKind → Bool
  | .pathAheadClear => s.clear .ahead
  | .leftClear => s.clear .left
  | .rightClear => s.clear .right
  | .onGoal => Simulation.isExit s.grid s.exits s.robot.cell
  | .onPressurePlate => s.grid.tile s.robot.cell == .plate
  | .hazardAhead => (s.tileAt .ahead).lethal
  | .hazardLeft => (s.tileAt .left).lethal
  | .hazardRight => (s.tileAt .right).lethal
  | .wallLeft => s.tileAt .left == .wall
  | .wallRight => s.tileAt .right == .wall
  | .globalSignalOn => s.globalSignal
  | .onRaft => s.grid.tile s.robot.cell == .raft

/-- Whether a condition holds. -/
def holds (s : Sight) : Condition → Bool
  | .primitive kind => s.sees kind
  | .not operand => !s.holds operand
  | .and left right => s.holds left && s.holds right
  | .or left right => s.holds left || s.holds right

end Sight

end RobotPuzzle
