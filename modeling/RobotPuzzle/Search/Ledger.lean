/-
  The books of a search: what has been tried, what was best, what has been reported.

  1. **Records** (`Ledger.enter`) — every evaluated program is entered.  The best one changes when a
     program is strictly better, or is the first that solves the level.
  2. **Reports** (`Ledger.report`) — a listener is told the best so far after every so many programs,
     and may ask for the search to stop.
  3. **Checks** (`Ledger.check`) — between programs the search asks how many more it may try.  A stop
     that has been asked for is noticed here and nowhere else, and so is the end of the time.

  Time passes, and others ask for a stop, outside the search.  What a check finds of that is a `Moment`;
  a `Watch` has one for every check.
-/
import RobotPuzzle.Search.Options

namespace RobotPuzzle

namespace Search

/-- A program and what came of it. -/
structure Record where
  program : Program
  result : Evaluation.Result
deriving Inhabited

/-- What a listener is told. -/
structure Report where
  /-- how many programs have been entered so far -/
  attempts : Nat
  /-- the best of them -/
  best : Option Record
deriving Inhabited

namespace Report

/-- The program to show: the best one, or the empty one. -/
def program (r : Report) : Program := (r.best.map Record.program).getD []

def score (r : Report) : Option Nat := r.best.map (·.result.score)

def trace (r : Report) : Option Trace := r.best.map (·.result.trace)

end Report

/-- Hears the reports; the answer tells whether the search should stop. -/
abbrev Listener := Report → Bool

/-- What a check finds outside the search: whether somebody asks for a stop, and how many milliseconds
have passed since the search began. -/
structure Moment where
  /-- somebody has asked for the search to stop -/
  stopAsked : Bool := false
  /-- the time on the clock of the search -/
  elapsedMs : Nat := 0
deriving DecidableEq, Repr, Inhabited

/-- What the checks of a search find, in order. -/
abbrev Watch := Nat → Moment

/-- Nobody asks for a stop, and no time passes. -/
def Watch.still : Watch := fun _ => {}

/-- The books of a search. -/
structure Ledger where
  /-- all programs tried, the latest first -/
  records : List Record := []
  /-- the number of programs tried -/
  attempts : Nat := 0
  /-- the best so far, the earliest of equals -/
  best : Option Record := none
  /-- the best one solves the level, and nothing more is entered -/
  solved : Bool := false
  /-- the reports made, the latest first -/
  reports : List Report := []
  /-- the number of attempts at the latest regular report -/
  lastReport : Nat := 0
  /-- somebody has asked for the search to stop -/
  stopAsked : Bool := false
  /-- the search has noticed that -/
  cancelled : Bool := false
  /-- the number of checks made -/
  checks : Nat := 0
deriving Inhabited

namespace Ledger

/-- The record takes the place of the best one so far. -/
def overtakes (l : Ledger) (r : Record) : Bool :=
  (r.result.solved && !l.solved) || l.best.all fun b => b.result.score < r.result.score

/-- Enters a record. -/
def enter (l : Ledger) (r : Record) : Ledger :=
  { l with
    records := r :: l.records
    attempts := l.attempts + 1
    best := if l.overtakes r then some r else l.best
    solved := l.solved || r.result.solved }

/-- Tells the listener, if there is one. -/
def report (listener : Option Listener) (l : Ledger) : Ledger :=
  match listener with
  | none => l
  | some hear =>
    let r : Report := { attempts := l.attempts, best := l.best }
    { l with reports := r :: l.reports, stopAsked := l.stopAsked || hear r }

/-- Reports when enough programs have been tried since the last report. -/
def reportIfDue (listener : Option Listener) (every : Nat) (l : Ledger) : Ledger :=
  if l.lastReport + every ≤ l.attempts then { l with lastReport := l.attempts }.report listener else l

/-- How many more programs may be tried; a stop that has been asked for is noticed, and so is the end of
the time. -/
def check (watch : Watch) (maxTimeMs maxAttempts : Nat) (l : Ledger) : Ledger × Nat :=
  let now := watch l.checks
  let l := { l with checks := l.checks + 1, stopAsked := l.stopAsked || now.stopAsked }
  if l.stopAsked then ({ l with cancelled := true }, 0)
  else if maxTimeMs ≤ now.elapsedMs then (l, 0)
  else (l, maxAttempts - l.attempts)

/-- The records entered since an earlier moment, in the order in which they were entered. -/
def since (l earlier : Ledger) : List Record :=
  (l.records.take (l.attempts - earlier.attempts)).reverse

/-- The program found. -/
def program (l : Ledger) : Program := (l.best.map Record.program).getD []

theorem check_zero_of_stopAsked {l : Ledger} (h : l.stopAsked = true) (watch : Watch)
    (maxTimeMs maxAttempts : Nat) : (l.check watch maxTimeMs maxAttempts).2 = 0 := by
  simp [check, h]

theorem check_le (l : Ledger) (watch : Watch) (maxTimeMs maxAttempts : Nat) :
    (l.check watch maxTimeMs maxAttempts).2 ≤ maxAttempts - l.attempts := by
  simp only [check]
  repeat' split
  all_goals simp

end Ledger

end Search

end RobotPuzzle
