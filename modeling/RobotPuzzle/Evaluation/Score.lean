/-
  Milestones and the score of a state.

  1. **Milestones** — what has been seen at least once in a run; `merge` folds one more state in and
     never takes a milestone back (`merge_mono`).
  2. **Score** — points for every robot saved, for the milestones and for a won run, and up to a
     hundred more for the nearest living robot, the closer to an exit the better.

  The bonus for winning is greater than what the milestones and the distance can give together
  (`extras_lt_winBonus`), so among states with equally many robots saved a won one is ahead.
-/
import RobotPuzzle.Simulation.State

namespace RobotPuzzle

/-- What has been seen at least once. -/
structure Milestones where
  /-- the doors were open -/
  doorOpened : Bool := false
  /-- a robot in the way stood on a plate -/
  platePressed : Bool := false
  /-- a robot in the way stood on a raft -/
  raftUsed : Bool := false
  /-- a robot, not saved, was on water -/
  waterTouched : Bool := false
  /-- a robot was saved -/
  anySaved : Bool := false
deriving DecidableEq, Repr, Inhabited

namespace Milestones

/-- What one state shows. -/
def ofState (s : Simulation.State) : Milestones :=
  { doorOpened := s.isDoorOpen
    platePressed := s.isPlatePressed
    raftUsed := s.robots.any fun r => r.blocking && s.grid.tile r.cell == .raft
    waterTouched := s.robots.any fun r => !r.saved && s.grid.tile r.cell == .water
    anySaved := 0 < s.savedCount }

/-- Everything that is in one or the other. -/
def union (m n : Milestones) : Milestones :=
  { doorOpened := m.doorOpened || n.doorOpened
    platePressed := m.platePressed || n.platePressed
    raftUsed := m.raftUsed || n.raftUsed
    waterTouched := m.waterTouched || n.waterTouched
    anySaved := m.anySaved || n.anySaved }

/-- The milestones after one more state. -/
def merge (m : Milestones) (s : Simulation.State) : Milestones := m.union (ofState s)

/-- Every milestone of the first is one of the second. -/
def le (m n : Milestones) : Prop := m.union n = n

theorem merge_mono (m : Milestones) (s : Simulation.State) : m.le (m.merge s) := by
  simp [le, merge, union]

def toJson (m : Milestones) : Json :=
  .obj [("door_opened", .bool m.doorOpened), ("pressure_plate_pressed", .bool m.platePressed),
    ("raft_used", .bool m.raftUsed), ("water_touched", .bool m.waterTouched),
    ("any_saved", .bool m.anySaved)]

end Milestones

/-! ## Points -/

namespace Score

def savedPoints : Nat := 1000
def winBonus : Nat := 5000
def doorBonus : Nat := 50
def plateBonus : Nat := 25
def raftBonus : Nat := 50
def waterBonus : Nat := 10
def distanceCeiling : Nat := 100

/-- The points for milestones. -/
def ofMilestones (m : Milestones) : Nat :=
  (if m.doorOpened then doorBonus else 0) + (if m.platePressed then plateBonus else 0)
    + (if m.raftUsed then raftBonus else 0) + (if m.waterTouched then waterBonus else 0)

/-- The number of steps between two cells, walls aside. -/
def distance (a b : Cell) : Nat := (a.x - b.x).natAbs + (a.y - b.y).natAbs

/-- The distances from every living robot to every exit. -/
def distances (s : Simulation.State) : List Nat :=
  (s.robots.filter Robot.alive).flatMap fun r =>
    (Simulation.effectiveExits s.grid s.exits).map fun e => distance e r.cell

/-- The points for being near: none without a living robot or without an exit. -/
def ofDistance (s : Simulation.State) : Nat :=
  match (distances s).min? with
  | some nearest => distanceCeiling - nearest
  | none => 0

/-- The points for milestones and distance. -/
def extras (s : Simulation.State) (m : Milestones) : Nat := ofMilestones m + ofDistance s

theorem ofMilestones_le (m : Milestones) :
    ofMilestones m ≤ doorBonus + plateBonus + raftBonus + waterBonus := by
  unfold ofMilestones
  repeat' split
  all_goals simp only [doorBonus, plateBonus, raftBonus, waterBonus]; omega

theorem ofDistance_le (s : Simulation.State) : ofDistance s ≤ distanceCeiling := by
  unfold ofDistance
  split <;> omega

theorem extras_lt_winBonus (s : Simulation.State) (m : Milestones) : extras s m < winBonus := by
  have hm := ofMilestones_le m
  have hd := ofDistance_le s
  simp only [extras, doorBonus, plateBonus, raftBonus, waterBonus, distanceCeiling, winBonus] at *
  omega

end Score

/-- The score of a state, given the milestones so far. -/
def score (s : Simulation.State) (m : Milestones) : Nat :=
  s.savedCount * Score.savedPoints + (if s.status = .won then Score.winBonus else 0)
    + Score.extras s m

end RobotPuzzle
