/-
  What one action does to one robot, other robots aside.

  Turns change the heading, a step forward changes the cell unless that cell may not be entered, and a
  robot that enters a lethal cell dies there.  Waiting and signalling do nothing to the robot, and a
  robot that is dead or saved does nothing at all (`apply_of_not_blocking`).
-/
import RobotPuzzle.Robot

namespace RobotPuzzle

namespace Robot

/-- One step forward, unless the cell ahead may not be entered. -/
def advance (grid : Grid) (blocked : Cell → Bool) (r : Robot) : Robot :=
  let ahead := r.cell.step r.heading
  if blocked ahead then r
  else if (grid.tile ahead).lethal then { r with cell := ahead, alive := false }
  else { r with cell := ahead }

/-- One action; `blocked` says which cells may not be entered. -/
def apply (grid : Grid) (blocked : Cell → Bool) (r : Robot) (action : Action) : Robot :=
  if r.blocking then
    match action with
    | .turnLeft => { r with heading := r.heading.left }
    | .turnRight => { r with heading := r.heading.right }
    | .moveForward => r.advance grid blocked
    | _ => r
  else r

@[simp] theorem apply_of_not_blocking {r : Robot} (h : r.blocking = false) (grid : Grid)
    (blocked : Cell → Bool) (action : Action) : r.apply grid blocked action = r := by
  simp [apply, h]

@[simp] theorem apply_id (grid : Grid) (blocked : Cell → Bool) (r : Robot) (action : Action) :
    (r.apply grid blocked action).id = r.id := by
  unfold apply advance
  split
  · split <;> try rfl
    dsimp only
    split
    · rfl
    · split <;> rfl
  · rfl

/-- No action saves a robot. -/
@[simp] theorem apply_saved (grid : Grid) (blocked : Cell → Bool) (r : Robot) (action : Action) :
    (r.apply grid blocked action).saved = r.saved := by
  unfold apply advance
  split
  · split <;> try rfl
    dsimp only
    split
    · rfl
    · split <;> rfl
  · rfl

end Robot

end RobotPuzzle
