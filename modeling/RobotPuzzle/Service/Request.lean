/-
  The bodies of requests.

  A body is an object.  Each of its members has a kind; a member that is optional may be missing or
  `null`, and members that nobody knows are passed over.  Numbers are read as `Lenient.int?` reads
  them.  A body that does not fit is refused as a whole.
-/
import RobotPuzzle.Json.Lenient

namespace RobotPuzzle

namespace Service

/-- Why a request is not answered as asked. -/
inductive Problem where
  /-- the body does not fit -/
  | unfit
  /-- refused with a status and a reason -/
  | refused (status : Nat) (detail : String)
  /-- the service itself has failed -/
  | failed
deriving DecidableEq, Repr

/-- An object. -/
def object? : Json → Option Json
  | .obj members => some (.obj members)
  | _ => none

/-- A list of texts. -/
def texts? : Json → Option (List String)
  | .arr items => items.mapM Json.toText?
  | _ => none

/-- A member that has to be there. -/
def needed {α : Type} (body : Json) (name : String) (read : Json → Option α) : Except Problem α :=
  match (body.get? name).bind read with
  | some a => .ok a
  | none => .error .unfit

/-- A member that may be missing. -/
def optional {α : Type} (body : Json) (name : String) (read : Json → Option α) :
    Except Problem (Option α) :=
  match body.getD name with
  | .null => .ok none
  | v =>
    match read v with
    | some a => .ok (some a)
    | none => .error .unfit

/-- The level that a request is about. -/
structure LevelChoice where
  level : Option Json
  levelId : Option String

/-- Asks for the evaluation of a program. -/
structure EvaluateRequest where
  program : Json
  choice : LevelChoice
  maxTicks : Option Int
  sampleEvery : Option Int

/-- Asks for a search. -/
structure SolveRequest where
  choice : LevelChoice
  actions : Option (List String)
  maxAttempts : Option Int
  maxTimeMs : Option Int
  maxDepth : Option Int
  beamWidth : Option Int
  strategy : Option String
  seed : Option Int
  maxTicks : Option Int

/-- The level in a body. -/
def readChoice (body : Json) : Except Problem LevelChoice := do
  let level ← optional body "level" object?
  let levelId ← optional body "level_id" Json.toText?
  pure { level, levelId }

def readEvaluate (body : Json) : Except Problem EvaluateRequest := do
  let program ← needed body "program" object?
  let choice ← readChoice body
  let maxTicks ← optional body "max_ticks" Lenient.int?
  let sampleEvery ← optional body "sample_every" Lenient.int?
  pure { program, choice, maxTicks, sampleEvery }

def readSolve (body : Json) : Except Problem SolveRequest :=
  match body with
  | .obj _ => do
    let choice ← readChoice body
    let actions ← optional body "actions" texts?
    let maxAttempts ← optional body "max_attempts" Lenient.int?
    let maxTimeMs ← optional body "max_time_ms" Lenient.int?
    let maxDepth ← optional body "max_depth" Lenient.int?
    let beamWidth ← optional body "beam_width" Lenient.int?
    let strategy ← optional body "strategy" Json.toText?
    let seed ← optional body "seed" Lenient.int?
    let maxTicks ← optional body "max_ticks" Lenient.int?
    pure { choice, actions, maxAttempts, maxTimeMs, maxDepth, beamWidth, strategy, seed, maxTicks }
  | _ => .error .unfit

/-- The identifier of a level to be marked completed. -/
def readLevelId (body : Json) : Except Problem String := needed body "level_id" Json.toText?

end Service

end RobotPuzzle
