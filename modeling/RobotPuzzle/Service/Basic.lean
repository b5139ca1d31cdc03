/-
  The service: levels, evaluations, searches and progress, asked for by method and path.

  1. **Parts** — a service has settings, a host for searches in the background, and a store of
     completed levels.  A service without host or store refuses what needs them.
  2. **Answers** — a handler answers with a JSON value and the service after it, or with a problem; a
     service that has a problem stays as it was (`handle_error`).
  3. **Levels** — a level in a request wins over the identifier of one in the catalogue.  Only a level
     of the catalogue counts as completed when a program solves it.
-/
import RobotPuzzle.Level.Catalogue
import RobotPuzzle.Level.Reader
import RobotPuzzle.Program.Reader
import RobotPuzzle.Progress.Store
import RobotPuzzle.Search.Host
import RobotPuzzle.Service.Request
import RobotPuzzle.Service.Route
import RobotPuzzle.Settings.Basic

namespace RobotPuzzle

/-- A service. -/
structure Service where
  settings : Settings := {}
  host : Option SearchHost := some { bus := SearchHost.ownBus }
  progress : Option ProgressStore := some {}
deriving Inhabited

namespace Service

/-- The version that the service tells. -/
def version : String := "0.1.0"

/-- What comes back. -/
inductive Reply where
  | json (status : Nat) (body : Json)
  /-- the body of the request did not fit -/
  | unfit
  /-- the service itself has failed -/
  | failed

def Reply.status : Reply → Nat
  | .json status _ => status
  | .unfit => 422
  | .failed => 500

/-- A reason as an object. -/
def detail (text : String) : Json := .obj [("detail", .str text)]

def Problem.reply : Problem → Reply
  | .unfit => .unfit
  | .refused status text => .json status (detail text)
  | .failed => .failed

/-- An answer, and the service after it. -/
abbrev Answer := Except Problem (Json × Service)

/-! ## Parts of a service -/

def theHost (s : Service) : Except Problem SearchHost :=
  match s.host with
  | some host => .ok host
  | none => .error (.refused 503 "Solver host not available")

def theProgress (s : Service) : Except Problem ProgressStore :=
  match s.progress with
  | some store => .ok store
  | none => .error (.refused 503 "Progress store not available")

/-- The level of the catalogue with that identifier. -/
def catalogued (id : String) : Except Problem Level :=
  match Level.find? id with
  | some level => .ok level
  | none => .error (.refused 404 ("Unknown level: " ++ id))

/-- The level of a request. -/
def LevelChoice.resolve (choice : LevelChoice) : Except Problem Level :=
  match choice.level with
  | some v =>
    match Level.ofJson v with
    | .ok level => .ok level
    | .error fault => .error (if fault.isRefusal then .refused 422 fault.message else .failed)
  | none =>
    match choice.levelId with
    | some id =>
      if id.isEmpty then .error (.refused 422 "Either 'level' or 'level_id' is required")
      else catalogued id
    | none => .error (.refused 422 "Either 'level' or 'level_id' is required")

/-! ## Levels and progress -/

/-- A level of the catalogue, in short. -/
def summary (progress : Option ProgressStore) (level : Level) : Json :=
  .obj [("id", level.id), ("name", level.name), ("width", .int level.width),
    ("height", .int level.height), ("required_saved", .int level.requiredSaved),
    ("completed", .bool (progress.any fun store => store.contains (level.id.toText?.getD "")))]

def levels (s : Service) : Answer :=
  .ok (.obj [("levels", .arr (Level.catalogue.map (summary s.progress)))], s)

def level (s : Service) (id : String) : Answer := do
  let level ← catalogued id
  pure (level.toJson, s)

/-- The completed levels as JSON. -/
def completedJson (store : ProgressStore) : Json := .arr (store.ids.map .str)

def readProgress (s : Service) : Answer := do
  let store ← s.theProgress
  pure (.obj [("completed", completedJson store)], s)

def addProgress (s : Service) (body : Json) : Answer := do
  let id ← readLevelId body
  let store ← s.theProgress
  match store.add Disk.healthy id true with
  | (store, .ok added) =>
    pure (.obj [("level_id", .str id), ("added", .bool added), ("completed", completedJson store)],
      { s with progress := some store })
  | (_, .error .noIdentifier) =>
    throw (.refused 422 (ProgressStore.AddFault.message .noIdentifier))
  | (_, .error (.saving _)) => throw .failed

def clearProgress (s : Service) : Answer := do
  let store ← s.theProgress
  pure (.obj [("completed", .arr [])],
    { s with progress := some (store.clear Disk.healthy true).1 })

/-! ## Evaluation -/

/-- The service after a level of the catalogue has been solved. -/
def noteSolved (s : Service) (id : String) : Service :=
  { s with progress := s.progress.map fun store => (store.add Disk.healthy id true).1 }

def evaluate (s : Service) (body : Json) : Answer := do
  let request ← readEvaluate body
  let level ← request.choice.resolve
  let program ←
    match Program.ofJson request.program with
    | .ok program => pure program
    | .error fault => throw (if fault.isRefusal then .refused 422 fault.message else .failed)
  let usual := s.settings.evaluation
  let options : Evaluation.Options :=
    { usual with
      maxTicks := request.maxTicks.or usual.maxTicks
      sampleEvery := request.sampleEvery.getD usual.sampleEvery }
  match Evaluation.evaluate program level options with
  | .error _ => throw .failed
  | .ok result =>
    let counted := result.solved && request.choice.level.isNone
    let after := if counted then s.noteSolved (level.id.toText?.getD "") else s
    pure (result.toJsonWithCause, after)

/-! ## Searches -/

/-- The actions that are named; a list without any means the usual ones. -/
def actionsOf (names : Option (List String)) (usual : List Action) : Except Problem (List Action) :=
  match names with
  | none => .ok usual
  | some [] => .ok usual
  | some names => names.mapM fun name =>
    match Action.ofName? name with
    | some a => .ok a
    | none => .error (.refused 422 (Text.quoted name ++ " is not a valid Action"))

/-- The strategy that is named; the empty name means the usual one. -/
def strategyOf (name : Option String) (usual : Search.Strategy) : Except Problem Search.Strategy :=
  match name with
  | none => .ok usual
  | some name =>
    if name.isEmpty then .ok usual
    else
      match Search.Strategy.ofName? name with
      | some strategy => .ok strategy
      | none => .error (.refused 422 (Search.Strategy.unknown (.str name)))

/-- The options of a search that is asked for. -/
def SolveRequest.options (request : SolveRequest) (settings : Settings) :
    Except Problem (Search.Options × Evaluation.Options) := do
  let usual := settings.search
  let actions ← actionsOf request.actions usual.actions
  let strategy ← strategyOf request.strategy usual.strategy
  let evaluation := settings.evaluation
  pure ({ usual with
      actions, strategy
      maxAttempts := request.maxAttempts.or usual.maxAttempts
      maxTimeMs := request.maxTimeMs.or usual.maxTimeMs
      maxDepth := request.maxDepth.or usual.maxDepth
      beamWidth := request.beamWidth.or usual.beamWidth
      seed := request.seed.or usual.seed },
    { evaluation with maxTicks := request.maxTicks.or evaluation.maxTicks })

def runSearch (s : Service) (body : Json) : Answer := do
  let request ← readSolve body
  let level ← request.choice.resolve
  let (options, evaluation) ← request.options s.settings
  match search level options evaluation none false with
  | .ok found => pure (found.toJson [], s)
  | .error _ => throw .failed

def startSearch (s : Service) (body : Json) : Answer := do
  let request ← readSolve body
  let host ← s.theHost
  let level ← request.choice.resolve
  let (options, evaluation) ← request.options s.settings
  match host.start level options evaluation with
  | .ok host =>
    pure (.obj [("status", .str "started"), ("job_id", host.jobJson)], { s with host := some host })
  | .error fault => throw (.refused 409 fault.message)

def cancelSearch (s : Service) : Answer := do
  let host ← s.theHost
  let (host, done) := host.cancel
  let body : Json :=
    if done then .obj [("status", .str "cancelled"), ("job_id", host.jobJson)]
    else .obj [("status", .str "idle")]
  pure (body, { s with host := some host })

def searchStatus (s : Service) : Answer := do
  let host ← s.theHost
  pure (host.statusJson, s)

/-! ## Requests -/

/-- What a route answers. -/
def answer (s : Service) (body : Json) : Route → Answer
  | .health => .ok (.obj [("status", .str "operational"), ("version", .str version)], s)
  | .levels => s.levels
  | .level id => s.level id
  | .evaluate => s.evaluate body
  | .search => s.runSearch body
  | .start => s.startSearch body
  | .cancel => s.cancelSearch
  | .status => s.searchStatus
  | .readProgress => s.readProgress
  | .addProgress => s.addProgress body
  | .clearProgress => s.clearProgress

/-- The reply to an answer, and the service after it. -/
def replyTo (s : Service) : Answer → Reply × Service
  | .ok (body, after) => (.json 200 body, after)
  | .error problem => (problem.reply, s)

theorem replyTo_error (s : Service) (problem : Problem) :
    s.replyTo (.error problem) = (problem.reply, s) := rfl

/-- Handles one request; a request without a body has the body `null`. -/
def handle (s : Service) (method address : String) (body : Json) : Reply × Service :=
  match route method (pathOf address) with
  | .ok r => s.replyTo (s.answer body r)
  | .error .unknownPath => (.json 404 (detail "Not Found"), s)
  | .error .wrongMethod => (.json 405 (detail "Method Not Allowed"), s)

theorem handle_error {s : Service} {method address : String} {body : Json} {r : Route}
    {problem : Problem} (hr : route method (pathOf address) = .ok r)
    (ha : s.answer body r = .error problem) :
    s.handle method address body = (problem.reply, s) := by
  simp [handle, hr, ha, replyTo]

/-- Waits for the search in the background. -/
def wait (s : Service) : Service := { s with host := s.host.map SearchHost.wait }

/-- Starts a search in the background and listens until it ends. -/
def startAndListen (s : Service) (body : Json) : Reply × List Event × Service :=
  match s.startSearch body with
  | .error problem => (problem.reply, [], s)
  | .ok (reply, after) =>
    match after.host with
    | none => (.json 200 reply, [], after)
    | some host =>
      let (host, events) := host.follow
      (.json 200 reply, events, { after with host := some host })

end Service

end RobotPuzzle
