/-
  Trying programs one after the other, within the budgets.

  A plan holds all that stays the same during a search: how a program is judged, the vocabulary, the
  budgets in force, who listens, and what the checks will find.  Programs may be judged several at a
  time (`chunk`); they are entered in order and none behind one that solves the level, so that only the
  moments at which a stop can be noticed depend on it.
-/
import RobotPuzzle.Search.Ledger

namespace RobotPuzzle

namespace Search

/-- What stays the same during a search. -/
structure Plan where
  /-- evaluates a program on the level -/
  judge : Program → Except Level.StartFault Evaluation.Result
  /-- the vocabulary, in the order in which programs are lengthened -/
  actions : List Action
  /-- how many programs may be entered -/
  maxAttempts : Nat
  /-- how long the search may take -/
  maxTimeMs : Nat
  /-- how long a program may be -/
  maxDepth : Nat
  /-- how many programs of a layer are lengthened -/
  beamWidth : Nat
  /-- how many attempts lie between two reports -/
  every : Nat
  /-- how many programs are judged at the same time -/
  workers : Nat
  /-- who hears the reports, and may ask for a stop -/
  listener : Option Listener
  /-- what each check will find -/
  watch : Watch

namespace Plan

/-- How many more programs may be tried, by the budgets of the plan. -/
def check (plan : Plan) (l : Ledger) : Ledger × Nat :=
  l.check plan.watch plan.maxTimeMs plan.maxAttempts

/-- How many programs are judged between two checks. -/
def chunk (plan : Plan) : Nat := max 1 plan.workers

theorem chunk_pos (plan : Plan) : 0 < plan.chunk := by unfold chunk; omega

/-- Judges a program, enters it, and reports if it is time. -/
def attempt (plan : Plan) (program : Program) (l : Ledger) : Except Level.StartFault Ledger := do
  let result ← plan.judge program
  pure ((l.enter ⟨program, result⟩).reportIfDue plan.listener plan.every)

/-- Tries programs in order, up to the first that solves the level.  The program behind that one has
been judged as well; of it only a fault is seen. -/
def attemptEach (plan : Plan) : List Program → Ledger → Except Level.StartFault Ledger
  | [], l => .ok l
  | program :: rest, l =>
    if l.solved then (plan.judge program).map fun _ => l
    else do
      let l ← plan.attempt program l
      attemptEach plan rest l

/-- A chunk leaves fewer programs behind. -/
theorem chunk_shortens (plan : Plan) {pending : List Program} {allowed : Nat}
    (hp : pending ≠ []) (ha : allowed ≠ 0) :
    pending.length - min allowed plan.chunk < pending.length := by
  have hc := plan.chunk_pos
  have hl := List.length_pos_iff.2 hp
  omega

/-- Tries programs in order, chunk by chunk, as far as the budget goes. -/
def attemptAll (plan : Plan) (pending : List Program) (l : Ledger) :
    Except Level.StartFault Ledger :=
  if hp : pending = [] then .ok l
  else if l.solved then .ok l
  else
    let (l, allowed) := plan.check l
    if ha : allowed = 0 then .ok l
    else
      have := plan.chunk_shortens hp ha
      match plan.attemptEach (pending.take (min allowed plan.chunk)) l with
      | .ok l => attemptAll plan (pending.drop (min allowed plan.chunk)) l
      | .error fault => .error fault
termination_by pending.length

end Plan

end Search

end RobotPuzzle
