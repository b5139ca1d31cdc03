/-
  Why a run was lost.

  The first cause that applies counts: the steps ran out, a robot died, or every robot is finished and
  too few are saved.  A run that is not lost has no cause, and a lost run always has one
  (`causeOf_isSome_iff`).
-/
import RobotPuzzle.Simulation.State

namespace RobotPuzzle

/-- A cause of failure. -/
inductive FailureCause where
  /-- the ticks are used up, or a machine has been cut off -/
  | stepLimit
  /-- a robot has died -/
  | hazard
  /-- nobody is left to act or to enter, and too few are saved -/
  | quota
  | unknown
deriving DecidableEq, Repr

def FailureCause.name : FailureCause → String
  | .stepLimit => "step_limit"
  | .hazard => "hazard"
  | .quota => "quota"
  | .unknown => "unknown"

namespace Simulation

/-- The cause of a lost run; `sawStepLimit` tells that a robot's program ran out of steps. -/
def causeOf (s : State) (sawStepLimit : Bool) : Option FailureCause :=
  if s.status ≠ .lost then none
  else if sawStepLimit || s.maxSteps ≤ s.stepCount then some .stepLimit
  else if 0 < s.deadCount then some .hazard
  else if s.savedCount < s.requiredSaved ∧ s.activeCount = 0 ∧ s.remainingSpawns = 0 then some .quota
  else some .unknown

theorem causeOf_isSome_iff (s : State) (sawStepLimit : Bool) :
    (causeOf s sawStepLimit).isSome = true ↔ s.status = .lost := by
  unfold causeOf
  by_cases h : s.status = .lost
  · simp only [h, ne_eq, not_true_eq_false, if_false]
    repeat' split
    all_goals simp
  · simp [h]

end Simulation

end RobotPuzzle
