/-
  The state before the first tick.

  Without an interval all robots enter at once; with one the first enters, and the second is due after
  one interval.  Robots that enter on an exit are saved at once, a plate under one of them unlocks the
  doors, and the run is won already if enough are saved.
-/
import RobotPuzzle.Simulation.State

namespace RobotPuzzle

namespace Simulation

/-- Why a run cannot start or go on. -/
inductive Fault where
  /-- a robot would enter with a heading that is none of the four -/
  | heading (number : Int)
  | ferry (fault : FerryFault)
deriving DecidableEq, Repr

def Fault.message : Fault → String
  | .heading number => toString number ++ " is not a valid Direction"
  | .ferry fault => fault.message

/-- The name of the robot with that index. -/
def robotName (index : Nat) : String := "robot-" ++ toString (index + 1)

/-- The robot with that index, as it enters. -/
def enter (spawner : Spawner) (index : Nat) : Except Fault Robot :=
  let pose := spawner.poseOf index
  match Direction.ofNumber? pose.heading with
  | some heading => .ok { id := robotName index, cell := pose.cell, heading }
  | none => .error (.heading pose.heading)

/-- The robots with the indices from `first` on, `count` of them. -/
def enterMany (spawner : Spawner) : (first count : Nat) → Except Fault (List Robot)
  | _, 0 => .ok []
  | first, count + 1 => do
    let r ← enter spawner first
    let others ← enterMany spawner (first + 1) count
    pure (r :: others)

/-- How many robots enter before the first tick. -/
def initialCount (spawner : Spawner) : Nat :=
  if spawner.count ≤ 0 then 0 else if spawner.interval ≤ 0 then spawner.count.toNat else 1

/-- When the next robot is due, counted from the start. -/
def firstSpawnTick (spawner : Spawner) : Option Int :=
  if spawner.count ≤ 0 || spawner.interval ≤ 0 then none else some spawner.interval

/-- The state before the first tick. -/
def start (grid : Grid) (spawner : Spawner) (exits : List Cell) (maxSteps requiredSaved : Int) :
    Except Fault State := do
  let entered ← enterMany spawner 0 (initialCount spawner)
  let robots := entered.map (markExit grid exits)
  let jetties := grid.cellsOf (· == .jetty)
  let s : State :=
    { grid, robots, spawner, exits, maxSteps, requiredSaved, jetties
      spawnedCount := initialCount spawner
      nextSpawnTick := firstSpawnTick spawner
      doorUnlocked := platePressed grid robots
      rafts := initialRafts grid jetties }
  pure (if requiredSaved ≤ s.savedCount then { s with status := .won } else s)

end Simulation

end RobotPuzzle
