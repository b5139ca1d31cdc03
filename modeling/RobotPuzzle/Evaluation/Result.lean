/-
  Evaluating a program on a level.

  The program runs on every robot until the run ends (`Run.history`); then the states of the run are
  looked at in order.  A run may be best in the middle, before a robot walks past the exit into a
  hazard: the score of an evaluation is the greatest score of any state, and the first state that
  reached it is the one whose robots are kept (`Peak.ofScored`).
-/
import RobotPuzzle.Evaluation.Run
import RobotPuzzle.Evaluation.Score
import RobotPuzzle.Evaluation.Trace
import RobotPuzzle.Level.Basic
import RobotPuzzle.Outcome

namespace RobotPuzzle

namespace Evaluation

/-- How a program is evaluated. -/
structure Options where
  /-- the tick limit of levels that have none -/
  maxTicks : Option Int := none
  /-- the limit of each machine, by default the tick limit -/
  maxMachineSteps : Option Int := none
  /-- the interval of the snapshots -/
  sampleEvery : Int := 5
deriving DecidableEq, Repr, Inhabited

/-- The milestones after each of the states in turn. -/
def milestonesAlong : Milestones → List Simulation.State → List Milestones
  | _, [] => []
  | m, s :: rest => m.merge s :: milestonesAlong (m.merge s) rest

/-- The score of each state in turn, given the milestones up to it. -/
def scoresAlong (states : List Simulation.State) : List Nat :=
  List.zipWith score states (milestonesAlong {} states)

/-- The best of a run so far: a score, and the robots that reached it. -/
structure Peak where
  /-- the highest score of a state -/
  score : Nat
  /-- the robots of the first state with that score -/
  robots : List Robot
deriving DecidableEq, Repr, Inhabited

/-- A later state has to be strictly better. -/
def Peak.climb (peak : Peak) (p : Nat × Simulation.State) : Peak :=
  if peak.score < p.1 then ⟨p.1, p.2.robots⟩ else peak

/-- The best of states with their scores. -/
def Peak.ofScored : List (Nat × Simulation.State) → Peak
  | [] => ⟨0, []⟩
  | (score, s) :: rest => rest.foldl Peak.climb ⟨score, s.robots⟩

/-- What came of a program on a level. -/
structure Result where
  /-- the best state of the run -/
  peak : Peak
  /-- the last state of the run -/
  final : Simulation.State
  /-- what any state has shown -/
  milestones : Milestones
  /-- the snapshots -/
  trace : Trace
  /-- some machine has been asked for more actions than it may hand out -/
  stepLimitHit : Bool
deriving DecidableEq, Repr, Inhabited

namespace Result

def score (r : Result) : Nat := r.peak.score

/-- Enough robots have been saved. -/
def solved (r : Result) : Bool := r.final.status == .won

/-- The cause of failure, a machine that ran out of steps included. -/
def cause (r : Result) : Option FailureCause := Simulation.causeOf r.final r.stepLimitHit

def toJson (r : Result) : Json :=
  .obj [("solved", .bool r.solved), ("score", .int r.score), ("ticks", .int r.final.stepCount),
    ("status", .str r.final.status.name), ("step_limit_hit", .bool r.stepLimitHit),
    ("final_robots", .arr (r.final.robots.map Robot.toJson)),
    ("best_robots", .arr (r.peak.robots.map Robot.toJson)),
    ("events", r.milestones.toJson), ("trace_lite", r.trace.toJson)]

def causeJson (r : Result) : Json := Json.ofOption (fun c => .str c.name) r.cause

/-- The result together with the cause of failure. -/
def toJsonWithCause (r : Result) : Json :=
  match r.toJson with
  | .obj members => .obj (members ++ [("failure_cause", r.causeJson)])
  | v => v

end Result

/-- The result of a run that went through these rounds, the last of which is `last`. -/
def resultOf (options : Options) (rounds : List Run) (last : Run) : Result :=
  let states := rounds.map Run.state
  { peak := Peak.ofScored ((scoresAlong states).zip states)
    final := last.state
    milestones := states.foldl Milestones.merge {}
    trace := Trace.ofStates (Trace.interval options.sampleEvery) states
    stepLimitHit := last.stepLimitHit }

/-- Runs a program on a level. -/
def evaluate (program : Program) (level : Level) (options : Options) :
    Except Level.StartFault Result := do
  let state ← level.start (options.maxTicks.getD Simulation.defaultMaxSteps)
  let setup : Run.Setup := ⟨program, options.maxMachineSteps.getD state.maxSteps⟩
  match Run.history setup { state } with
  | .ok rounds => pure (resultOf options rounds (rounds.getLast?.getD { state }))
  | .error fault => throw (.run fault)

end Evaluation

end RobotPuzzle
