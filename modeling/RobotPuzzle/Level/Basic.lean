/-
  Levels: a board with tile numbers, a spawner, exits and a quota.

  A level keeps its tile numbers as they were written; only `Level.start` asks whether each of them is
  a tile.  Identifier and name are whatever JSON values the author wrote, `null` when left out.
-/
import RobotPuzzle.Simulation.View

namespace RobotPuzzle

/-- A puzzle level. -/
structure Level where
  /-- tile numbers, row by row; they are looked at only when the level is started -/
  grid : List (List Int)
  spawner : Spawner
  /-- cells that save besides the exit tiles -/
  exits : List Cell := []
  requiredSaved : Int := 1
  /-- the tick limit, if the level has its own -/
  maxTicks : Option Int := none
  /-- kept as it was read, and so is the name -/
  id : Json := .null
  name : Json := .null
deriving Inhabited

namespace Level

def width (level : Level) : Nat := (level.grid.head?.map (·.length)).getD 0

def height (level : Level) : Nat := level.grid.length

/-- Why a level cannot be started. -/
inductive StartFault where
  /-- no tile has that number -/
  | unknownTile (id : Int)
  /-- the tiles are known, but the run cannot begin -/
  | run (fault : Simulation.Fault)
deriving DecidableEq, Repr

def StartFault.message : StartFault → String
  | .unknownTile id => "Unknown tile id in grid: " ++ toString id ++ " is not a valid TileType"
  | .run fault => fault.message

/-- The state before the first tick.  The tick limit of the level wins over the default. -/
def start (level : Level) (defaultMaxTicks : Int) : Except StartFault Simulation.State :=
  match Grid.ofIds level.grid with
  | .error id => .error (.unknownTile id)
  | .ok grid =>
    match Simulation.start grid level.spawner level.exits (level.maxTicks.getD defaultMaxTicks)
        level.requiredSaved with
    | .ok s => .ok s
    | .error fault => .error (.run fault)

/-- The level as JSON; what the author left out stays out. -/
def toJson (level : Level) : Json :=
  let optional (name : String) (v : Json) : List (String × Json) :=
    match v with
    | .null => []
    | v => [(name, v)]
  .obj ([("grid", .arr (level.grid.map fun row => .arr (row.map .int))),
    ("spawner", level.spawner.toJson),
    ("exits", .arr (level.exits.map Cell.toJson)),
    ("requiredSaved", .int level.requiredSaved)]
    ++ optional "maxTicks" (Json.ofOption .int level.maxTicks)
    ++ optional "id" level.id ++ optional "name" level.name)

end Level

end RobotPuzzle
