/-
  Searching by length.

  Every program that was kept is lengthened by every action; the children are tried in this order, and
  the best of them are kept for the next layer.  Equal scores keep their order, so the same level and
  options always lead to the same program.
-/
import RobotPuzzle.Search.Plan

namespace RobotPuzzle

namespace Search

namespace Plan

/-- Every program of the frontier, lengthened by every action. -/
def children (plan : Plan) (frontier : List Program) : List Program :=
  frontier.flatMap fun program => plan.actions.map fun a => program ++ [Node.act a]

theorem length_children (plan : Plan) (frontier : List Program) :
    (plan.children frontier).length = frontier.length * plan.actions.length := by
  induction frontier with
  | nil => simp [children]
  | cons p rest ih =>
    simp only [children, List.flatMap_cons, List.length_append, List.length_map,
      List.length_cons, Nat.succ_mul] at ih ⊢
    omega

/-- Records by score, the greatest first. -/
def ranked (records : List Record) : List Record :=
  records.mergeSort fun a b => b.result.score ≤ a.result.score

theorem ranked_perm (records : List Record) : (ranked records).Perm records :=
  List.mergeSort_perm _ _

/-- The programs kept for the next layer. -/
def keep (plan : Plan) (records : List Record) : List Program :=
  ((ranked records).take plan.beamWidth).map Record.program

theorem length_keep_le (plan : Plan) (records : List Record) :
    (plan.keep records).length ≤ plan.beamWidth := by
  simp only [keep, List.length_map, List.length_take]
  omega

/-- Searches so many layers further. -/
def beam (plan : Plan) : (layers : Nat) → (frontier : List Program) → Ledger →
    Except Level.StartFault Ledger
  | 0, _, l => .ok l
  | layers + 1, frontier, l => do
    let children := plan.children frontier
    let after ← plan.attemptAll children l
    if after.solved || after.attempts < l.attempts + children.length then pure after
    else
      let next := plan.keep (after.since l)
      if next.isEmpty then pure after else beam plan layers next after

end Plan

end Search

end RobotPuzzle
