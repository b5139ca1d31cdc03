/-
  A trace: snapshots of the robots at regular intervals.

  A trace is taken while a run goes on: the first state is captured, then each state whose number is a
  multiple of the interval, and when the run is over the last state too, unless it is in the trace
  already.
-/
import RobotPuzzle.Simulation.View

namespace RobotPuzzle

/-- Snapshots of the robots, the first state first. -/
structure Trace where
  /-- the interval, at least one -/
  every : Nat
  /-- the robots of the sampled states -/
  frames : List (List Robot)
deriving DecidableEq, Repr, Inhabited

namespace Trace

/-- The interval that is meant by a number: at least one. -/
def interval (n : Int) : Nat := (max 1 n).toNat

theorem interval_pos (n : Int) : 0 < interval n := by unfold interval; omega

/-- The trace with one more snapshot, at the end. -/
def capture (trace : Trace) (s : Simulation.State) : Trace :=
  { trace with frames := trace.frames ++ [s.robots] }

@[simp] theorem capture_every (trace : Trace) (s : Simulation.State) :
    (trace.capture s).every = trace.every := rfl

@[simp] theorem capture_frames (trace : Trace) (s : Simulation.State) :
    (trace.capture s).frames = trace.frames ++ [s.robots] := rfl

/-- The trace at the end of a run that has reached the state `s` of that number and goes on through
these states. -/
def along (trace : Trace) (number : Nat) (s : Simulation.State) : List Simulation.State → Trace
  | [] => if number % trace.every = 0 then trace else trace.capture s
  | next :: rest =>
    (if (number + 1) % trace.every = 0 then trace.capture next else trace).along (number + 1) next rest

/-- The trace of a run that goes through these states. -/
def ofStates (every : Nat) : List Simulation.State → Trace
  | [] => { every, frames := [] }
  | first :: rest => (Trace.capture { every, frames := [] } first).along 0 first rest

/-- Taking a trace leaves the interval as it is. -/
theorem along_every {rest : List Simulation.State} :
    ∀ (trace : Trace) (number : Nat) (s : Simulation.State),
      (trace.along number s rest).every = trace.every := by
  induction rest with
  | nil =>
    intro trace number s
    rw [along]
    split <;> rfl
  | cons next rest ih =>
    intro trace number s
    rw [along, ih]
    split <;> rfl

@[simp] theorem ofStates_every (every : Nat) (states : List Simulation.State) :
    (ofStates every states).every = every := by
  cases states with
  | nil => rfl
  | cons first rest => exact along_every _ 0 first

/-- One robot in a snapshot. -/
def markJson (r : Robot) : Json :=
  .obj [("id", .str r.id), ("x", .int r.cell.x), ("y", .int r.cell.y),
    ("dir", .int r.heading.number), ("status", .str r.status)]

def toJson (trace : Trace) : Json :=
  .obj [("sample_every", .int trace.every),
    ("frames", .arr (trace.frames.map fun robots => .arr (robots.map markJson)))]

end Trace

end RobotPuzzle
