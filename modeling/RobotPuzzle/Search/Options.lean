/-
  What a search may do and how much of it.

  A budget that is missing or not positive means the usual one (`budget`), so every budget in force is
  at least one (`budget_pos`).
-/
import RobotPuzzle.Evaluation.Result

namespace RobotPuzzle

namespace Search

/-- The two ways to search. -/
inductive Strategy where
  | beam
  | random
deriving DecidableEq, Repr, Inhabited

namespace Strategy

def all : List Strategy := [beam, random]

def name : Strategy → String
  | beam => "beam"
  | random => "random"

def ofName? (name : String) : Option Strategy := all.find? (·.name == name)

theorem ofName?_name (s : Strategy) : ofName? s.name = some s := by cases s <;> rfl

/-- The strategy a JSON value names. -/
def ofJson? (v : Json) : Option Strategy := v.toText?.bind ofName?

/-- What is said of a value that names no strategy. -/
def unknown (v : Json) : String := v.shown ++ " is not a valid SearchStrategy"

end Strategy

/-- The actions that programs are made of, where nothing else is said. -/
def usualActions : List Action := [.moveForward, .turnLeft, .turnRight, .wait]

/-- How to search. -/
structure Options where
  actions : List Action := usualActions
  maxAttempts : Option Int := some 200
  maxTimeMs : Option Int := some 1500
  maxDepth : Option Int := some 25
  beamWidth : Option Int := some 8
  progressEvery : Option Int := some 25
  strategy : Strategy := .beam
  seed : Option Int := none
  workers : Int := 1
deriving DecidableEq, Repr, Inhabited

/-- The budget in force. -/
def budget (value : Option Int) (usual : Nat) : Nat :=
  match value with
  | some n => if 0 < n then n.toNat else usual
  | none => usual

theorem budget_pos {usual : Nat} (h : 0 < usual) (value : Option Int) : 0 < budget value usual := by
  unfold budget
  split
  · split <;> omega
  · exact h

namespace Options

/-- The greatest number of programs that are evaluated. -/
def attempts (o : Options) : Nat := budget o.maxAttempts 200

/-- How many milliseconds a search may take. -/
def timeMs (o : Options) : Nat := budget o.maxTimeMs 1500

/-- The greatest length of a program. -/
def depth (o : Options) : Nat := budget o.maxDepth 25

/-- How many programs of one length are kept. -/
def width (o : Options) : Nat := budget o.beamWidth 8

/-- After how many programs a report is due. -/
def every (o : Options) : Nat := budget o.progressEvery 25

def toJson (o : Options) : Json :=
  .obj [("actions", .arr (o.actions.map fun a => .str a.name)),
    ("max_attempts", Json.ofOption .int o.maxAttempts), ("max_time_ms", Json.ofOption .int o.maxTimeMs),
    ("max_depth", Json.ofOption .int o.maxDepth), ("beam_width", Json.ofOption .int o.beamWidth),
    ("progress_every", Json.ofOption .int o.progressEvery), ("strategy", .str o.strategy.name),
    ("seed", Json.ofOption .int o.seed), ("workers", .int o.workers)]

end Options

end Search

end RobotPuzzle
