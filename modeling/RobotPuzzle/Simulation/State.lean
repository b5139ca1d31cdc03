/-
  The state of a run: the board, the robots on it, what is still to enter, and what has been unlocked.

  Nothing here moves; this module holds the values and the questions one can ask of them.  Which cells
  are exits is asked in two ways, cell by cell (`isExit`) and as a list (`effectiveExits`): exits that
  are named win, and without any every goal tile is one.
-/
import RobotPuzzle.Ferry

namespace RobotPuzzle

/-- Where a robot enters; the heading is a number that is looked at only when it does. -/
structure Pose where
  /-- where the robot stands -/
  cell : Cell
  heading : Int
deriving DecidableEq, Repr, Inhabited

/-- Where and how often robots enter: all at the start, or one every `interval` ticks. -/
structure Spawner where
  /-- where a robot enters if nothing else is said -/
  pose : Pose
  /-- how many robots there are -/
  count : Int := 1
  /-- the ticks between two entries; all enter at the start unless it is positive -/
  interval : Int := 0
  /-- the poses of the first robots, where they differ from `pose` -/
  starts : List Pose := []
deriving DecidableEq, Repr, Inhabited

/-- The pose of the robot with that index. -/
def Spawner.poseOf (spawner : Spawner) (index : Nat) : Pose := spawner.starts[index]?.getD spawner.pose

namespace Simulation

inductive Status where
  | running
  | won
  | lost
deriving DecidableEq, Repr, Inhabited

def Status.name : Status → String
  | .running => "running"
  | .won => "won"
  | .lost => "lost"

def Status.ofName? (name : String) : Option Status :=
  [Status.running, .won, .lost].find? (·.name == name)

/-- The status a JSON value names. -/
def Status.ofJson? (v : Json) : Option Status := v.toText?.bind ofName?

/-- The number of ticks after which a run is lost, where nothing else is said. -/
def defaultMaxSteps : Int := 200

/-- A run after some ticks. -/
structure State where
  /-- the board as it is shown, rafts included -/
  grid : Grid
  /-- in the order of entry, dead and saved ones included -/
  robots : List Robot
  /-- where and when robots enter -/
  spawner : Spawner
  /-- cells that save besides the exit tiles -/
  exits : List Cell := []
  status : Status := .running
  /-- the number of ticks -/
  stepCount : Int := 0
  /-- the tick at which a run that is not won is lost -/
  maxSteps : Int := defaultMaxSteps
  /-- the quota -/
  requiredSaved : Int := 1
  /-- the number of robots that have entered -/
  spawnedCount : Int := 0
  /-- the tick of the next entry, if robots enter one by one -/
  nextSpawnTick : Option Int := none
  /-- a plate has been pressed; doors never close again -/
  doorUnlocked : Bool := false
  /-- what the robots say to all robots -/
  globalSignal : Bool := false
  /-- in the order of their first cells -/
  rafts : List Raft := []
  /-- where all rafts call -/
  jetties : List Cell := []
deriving DecidableEq, Repr, Inhabited

/-- The cell saves the robots that reach it. -/
def isExit (grid : Grid) (exits : List Cell) (c : Cell) : Bool :=
  if exits.isEmpty then grid.tile c == .goal else exits.contains c

/-- The cells that save robots. -/
def effectiveExits (grid : Grid) (exits : List Cell) : List Cell :=
  if exits.isEmpty then grid.cellsOf (· == .goal) else exits

/-- A blocking robot stands on a pressure plate. -/
def platePressed (grid : Grid) (robots : List Robot) : Bool :=
  robots.any fun r => r.blocking && grid.tile r.cell == .plate

/-- A robot on an exit is saved, if it lives. -/
def markExit (grid : Grid) (exits : List Cell) (r : Robot) : Robot :=
  if r.blocking && isExit grid exits r.cell then { r with saved := true } else r

theorem markExit_of_not_blocking {r : Robot} (h : r.blocking = false) (grid : Grid)
    (exits : List Cell) : markExit grid exits r = r := by
  simp [markExit, h]

namespace State

def savedCount (s : State) : Nat := s.robots.countP Robot.saved

def deadCount (s : State) : Nat := s.robots.countP fun r => !r.alive

def activeCount (s : State) : Nat := s.robots.countP Robot.blocking

/-- How many robots are still to enter. -/
def remainingSpawns (s : State) : Int := max (s.spawner.count - s.spawnedCount) 0

/-- A plate is held down. -/
def isPlatePressed (s : State) : Bool := platePressed s.grid s.robots

/-- Doors are open once they have been unlocked, and while a plate is held down. -/
def isDoorOpen (s : State) : Bool := s.doorUnlocked || s.isPlatePressed

end State

end Simulation

end RobotPuzzle
