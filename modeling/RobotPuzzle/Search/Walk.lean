/-
  Searching by chance.

  The walk starts at the empty program and changes it step by step: it appends an action (every second
  time, and always to the empty program), replaces one (three times in ten), or drops the last.  A
  program that has become too long loses its last step again and is not tried.
-/
import RobotPuzzle.Random.Dice
import RobotPuzzle.Search.Plan

namespace RobotPuzzle

namespace Search

/-- Appends the action of that index. -/
def lengthen (actions : List Action) (index : Nat) (program : Program) : Program :=
  match actions[index]? with
  | some a => program ++ [Node.act a]
  | none => program

/-- Replaces one step by the action of that index. -/
def exchange (actions : List Action) (place index : Nat) (program : Program) : Program :=
  match actions[index]? with
  | some a => program.set place (Node.act a)
  | none => program

/-- One change by chance. -/
def mutate {σ : Type} (dice : Dice σ) (actions : List Action) (program : Program) (s : σ) :
    Program × σ :=
  let (toss, s) := dice.toss s
  if program.isEmpty || 2 * toss < tossRange then
    let (index, s) := dice.pick actions.length s
    (lengthen actions index program, s)
  else if 10 * toss < 8 * tossRange then
    let (place, s) := dice.pick program.length s
    let (index, s) := dice.pick actions.length s
    (exchange actions place index program, s)
  else (program.dropLast, s)

theorem length_mutate_le {σ : Type} (dice : Dice σ) (actions : List Action) (program : Program)
    (s : σ) : (mutate dice actions program s).1.length ≤ program.length + 1 := by
  unfold mutate lengthen exchange
  repeat' split
  all_goals simp only [List.length_append, List.length_cons, List.length_nil, List.length_set,
    List.length_dropLast]
  all_goals omega

namespace Plan

/-- Walks for so many changes, counting those that made a program too long. -/
def walk {σ : Type} (plan : Plan) (dice : Dice σ) : (rounds : Nat) → Program → σ → Ledger →
    Except Level.StartFault Ledger
  | 0, _, _, l => .ok l
  | rounds + 1, current, s, l =>
    if l.solved then .ok l
    else
      let (l, allowed) := plan.check l
      if allowed = 0 then .ok l
      else
        let (candidate, s) := mutate dice plan.actions current s
        if plan.maxDepth < candidate.length then walk plan dice rounds candidate.dropLast s l
        else do
          let l ← plan.attempt candidate l
          walk plan dice rounds candidate s l

end Plan

end Search

end RobotPuzzle
