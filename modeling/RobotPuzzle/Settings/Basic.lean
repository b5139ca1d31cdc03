/-
  Settings of the program.

  A setting is looked up by name in four places: in what is given directly, in the environment, in the
  file of variables, and at last in the usual values.  In the environment and the file the names carry
  the word `LEMBOTS_` in front, in either case.  A value that does not fit its setting makes the whole
  reading fail, and the answer names all such settings (`ofSources`).
-/
import RobotPuzzle.Evaluation.Result
import RobotPuzzle.Json.Lenient
import RobotPuzzle.Search.Options
import RobotPuzzle.Settings.EnvFile
import RobotPuzzle.Text.FilePath

namespace RobotPuzzle

/-- The settings. -/
structure Settings where
  defaultMaxTicks : Int := 200
  traceSampleEvery : Int := 5
  maxAttempts : Int := 200
  maxTimeMs : Int := 1500
  maxDepth : Int := 25
  beamWidth : Int := 8
  progressEvery : Int := 25
  workers : Int := 1
  progressPath : String := "data/progress.json"
  logLevel : String := "INFO"
  apiHost : String := "127.0.0.1"
  apiPort : Int := 8000
deriving DecidableEq, Repr, Inhabited

namespace Settings

/-- What may be written for a setting. -/
inductive Kind where
  | number
  | text
deriving DecidableEq, Repr

/-- The names of the settings, and what may be written for each. -/
def fields : List (String × Kind) :=
  [("default_max_ticks", .number), ("trace_sample_every", .number), ("solver_max_attempts", .number),
   ("solver_max_time_ms", .number), ("solver_max_depth", .number), ("solver_beam_width", .number),
   ("solver_progress_every", .number), ("solver_workers", .number), ("progress_path", .text),
   ("log_level", .text), ("api_host", .text), ("api_port", .number)]

/-- The value fits a setting of this kind. -/
def Kind.accepts : Kind → Json → Bool
  | .number, v => (Lenient.int? v).isSome
  | .text, v => v.toText?.isSome

/-- The settings whose values do not fit, in order of their names. -/
def misfits (given : String → Option Json) : List String :=
  ((fields.filter fun f => (given f.1).any fun v => !f.2.accepts v).map Prod.fst).mergeSort
    fun a b => a ≤ b

/-- The settings, where every value fits. -/
def ofValues (given : String → Option Json) : Settings :=
  let usual : Settings := {}
  let number (name : String) (default : Int) : Int := ((given name).bind Lenient.int?).getD default
  let text (name : String) (default : String) : String := ((given name).bind Json.toText?).getD default
  { defaultMaxTicks := number "default_max_ticks" usual.defaultMaxTicks
    traceSampleEvery := number "trace_sample_every" usual.traceSampleEvery
    maxAttempts := number "solver_max_attempts" usual.maxAttempts
    maxTimeMs := number "solver_max_time_ms" usual.maxTimeMs
    maxDepth := number "solver_max_depth" usual.maxDepth
    beamWidth := number "solver_beam_width" usual.beamWidth
    progressEvery := number "solver_progress_every" usual.progressEvery
    workers := number "solver_workers" usual.workers
    progressPath := Text.normalPath (text "progress_path" usual.progressPath)
    logLevel := text "log_level" usual.logLevel
    apiHost := text "api_host" usual.apiHost
    apiPort := number "api_port" usual.apiPort }

/-- The settings, or the names of those whose values do not fit. -/
def read (given : String → Option Json) : Except (List String) Settings :=
  match misfits given with
  | [] => .ok (ofValues given)
  | names => .error names

/-- The word in front of a name in the environment, in lower case. -/
def variableWord : String := "lembots_"

/-- The value of a setting among variables, whose names count in either case; the last one wins. -/
def lookup? (known : List EnvFile.Binding) (name : String) : Option Json :=
  ((known.reverse.find? fun b => b.name.toLower == variableWord ++ name).bind (·.value)).map .str

/-- The settings from all places. -/
def ofSources (direct : Json) (environment : List EnvFile.Binding) (file : Option String) :
    Except (List String) Settings :=
  let inFile := (file.map (EnvFile.read environment)).getD []
  read fun name => (direct.get? name).or ((lookup? environment name).or (lookup? inFile name))

/-- The options of an evaluation. -/
def evaluation (s : Settings) : Evaluation.Options :=
  { maxTicks := some s.defaultMaxTicks, sampleEvery := s.traceSampleEvery }

/-- The options of a search. -/
def search (s : Settings) : Search.Options :=
  { maxAttempts := some s.maxAttempts, maxTimeMs := some s.maxTimeMs, maxDepth := some s.maxDepth
    beamWidth := some s.beamWidth, progressEvery := some s.progressEvery, workers := s.workers }

def toJson (s : Settings) : Json :=
  .obj [("default_max_ticks", .int s.defaultMaxTicks), ("trace_sample_every", .int s.traceSampleEvery),
    ("solver_max_attempts", .int s.maxAttempts), ("solver_max_time_ms", .int s.maxTimeMs),
    ("solver_max_depth", .int s.maxDepth), ("solver_beam_width", .int s.beamWidth),
    ("solver_progress_every", .int s.progressEvery), ("solver_workers", .int s.workers),
    ("progress_path", .str s.progressPath), ("log_level", .str s.logLevel),
    ("api_host", .str s.apiHost), ("api_port", .int s.apiPort)]

end Settings

end RobotPuzzle
