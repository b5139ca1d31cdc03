/-
  Searching for a program that solves a level.

  A search tries the empty program first, then goes on by length or by chance, and reports once more
  at the end.  It stops at the first program that solves the level, when its budget is used up, or when
  it notices that it should stop.
-/
import RobotPuzzle.Program.Writer
import RobotPuzzle.Random.Twister
import RobotPuzzle.Search.Beam
import RobotPuzzle.Search.Walk

namespace RobotPuzzle

namespace Search

/-- More changes than a search by chance makes. -/
def patience : Nat := 0x4000000000000000

/-- What a search meets besides its level and its options. -/
structure Circumstances (σ : Type) where
  /-- who hears the reports -/
  listener : Option Listener
  /-- what its checks find -/
  watch : Watch
  /-- what a search by chance is decided with -/
  dice : Dice σ
  /-- the state of the dice before the first toss -/
  seeded : σ
  /-- somebody asks for a stop before the search starts -/
  stopped : Bool
  /-- how many changes a search by chance may make -/
  rounds : Nat

namespace Plan

/-- Tries the empty program, if anything may be tried. -/
def attemptEmpty (plan : Plan) (l : Ledger) : Except Level.StartFault Ledger :=
  let (l, allowed) := plan.check l
  if allowed = 0 then .ok l else plan.attempt [] l

/-- The search after the empty program. -/
def goOn {σ : Type} (plan : Plan) (strategy : Strategy) (around : Circumstances σ) (l : Ledger) :
    Except Level.StartFault Ledger :=
  if plan.actions.isEmpty || l.solved then .ok l
  else
    match strategy with
    | .beam => plan.beam plan.maxDepth [[]] l
    | .random => plan.walk around.dice around.rounds [] around.seeded l

/-- A whole search, from books that may already ask for a stop. -/
def run {σ : Type} (plan : Plan) (strategy : Strategy) (around : Circumstances σ) (l : Ledger) :
    Except Level.StartFault Ledger := do
  let l ← plan.attemptEmpty l
  let l ← plan.goOn strategy around l
  pure (l.report plan.listener)

end Plan

/-- The plan of a search on a level. -/
def planOf {σ : Type} (level : Level) (options : Options) (evaluation : Evaluation.Options)
    (around : Circumstances σ) : Plan :=
  { judge := fun program => Evaluation.evaluate program level evaluation
    actions := options.actions
    maxAttempts := options.attempts
    maxTimeMs := options.timeMs
    maxDepth := options.depth
    beamWidth := options.width
    every := options.every
    workers := options.workers.toNat
    listener := around.listener
    watch := around.watch }

/-- A search on a level, under any circumstances. -/
def conduct {σ : Type} (level : Level) (options : Options) (evaluation : Evaluation.Options)
    (around : Circumstances σ) : Except Level.StartFault Ledger :=
  (planOf level options evaluation around).run options.strategy around { stopAsked := around.stopped }

end Search

/-- Searches for a program that solves a level.  The dice follow from the seed, and the time does not
run out. -/
def search (level : Level) (options : Search.Options) (evaluation : Evaluation.Options)
    (listener : Option Search.Listener) (stopped : Bool) : Except Level.StartFault Search.Ledger :=
  Search.conduct level options evaluation
    { listener
      watch := .still
      dice := Twister.dice
      seeded := Twister.ofSeed (options.seed.getD 0)
      stopped
      rounds := Search.patience }

namespace Search

/-- A report as JSON; `clock` is what is to be said about the time. -/
def Report.toJson (r : Report) (clock : List (String × Json)) : Json :=
  .obj ([("attempts", .int r.attempts), ("best_score", Json.ofOption (fun n : Nat => .int n) r.score)]
    ++ clock
    ++ [("best_program", Program.toJson r.program), ("best_trace", Json.ofOption Trace.toJson r.trace)])

/-- The result of a search as JSON; `clock` is what is to be said about the time. -/
def Ledger.toJson (l : Ledger) (clock : List (String × Json)) : Json :=
  .obj ([("solved", .bool l.solved), ("best_program", Program.toJson l.program),
    ("best_score", Json.ofOption (fun r => .int r.result.score) l.best),
    ("attempts", .int l.attempts)]
    ++ clock
    ++ [("cancelled", .bool l.cancelled),
      ("best_trace", Json.ofOption (fun r => r.result.trace.toJson) l.best)])

end Search

end RobotPuzzle
