/-
  A run as JSON.
-/
import RobotPuzzle.Simulation.Tick

namespace RobotPuzzle

/-- A position as a pair. -/
def Cell.toPair (c : Cell) : Json := .arr [.int c.x, .int c.y]

/-- A position as an object. -/
def Cell.toJson (c : Cell) : Json := .obj [("x", .int c.x), ("y", .int c.y)]

def Robot.toJson (r : Robot) : Json :=
  .obj [("id", .str r.id), ("x", .int r.cell.x), ("y", .int r.cell.y),
    ("direction", .int r.heading.number), ("alive", .bool r.alive), ("reached_goal", .bool r.saved)]

def Raft.toJson (raft : Raft) : Json :=
  .obj [("x", .int raft.cell.x), ("y", .int raft.cell.y), ("route", .arr (raft.route.map Cell.toPair)),
    ("dock_index", .int raft.dock), ("return_index", Json.ofOption .int raft.back)]

def Pose.toJson (pose : Pose) : Json :=
  .obj [("x", .int pose.cell.x), ("y", .int pose.cell.y), ("dir", .int pose.heading)]

/-- A spawner; the list of starts is left out when it is empty. -/
def Spawner.toJson (spawner : Spawner) : Json :=
  let starts := if spawner.starts.isEmpty then [] else
    [("starts", Json.arr (spawner.starts.map Pose.toJson))]
  .obj ([("x", .int spawner.pose.cell.x), ("y", .int spawner.pose.cell.y),
    ("dir", .int spawner.pose.heading), ("count", .int spawner.count),
    ("intervalTicks", .int spawner.interval)] ++ starts)

namespace Simulation

def State.toJson (s : State) : Json :=
  .obj [
    ("grid", s.grid.toJson),
    ("robots", .arr (s.robots.map Robot.toJson)),
    ("spawner", s.spawner.toJson),
    ("exits", .arr (s.exits.map Cell.toJson)),
    ("status", .str s.status.name),
    ("step_count", .int s.stepCount),
    ("max_steps", .int s.maxSteps),
    ("required_saved", .int s.requiredSaved),
    ("saved_count", .int s.savedCount),
    ("spawned_count", .int s.spawnedCount),
    ("next_spawn_tick", Json.ofOption .int s.nextSpawnTick),
    ("door_unlocked", .bool s.doorUnlocked),
    ("global_signal", .bool s.globalSignal),
    ("rafts", .arr (s.rafts.map Raft.toJson))]

end Simulation

end RobotPuzzle
