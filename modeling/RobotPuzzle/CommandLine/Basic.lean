/-
  Carrying out a command.

  What a command does is a value: the lines it prints, the messages it logs, and how it ends.  Files are
  given as a function from paths to what is found there, so that nothing here reads anything.

  Faults of two sorts end a command early.  A refusal (`Fault.isRefusal`) — a level or a program that
  is not accepted, a file that is missing — is logged, and the command ends with code 2.  Any other
  fault ends the program itself.
-/
import RobotPuzzle.CommandLine.Command
import RobotPuzzle.CommandLine.Files
import RobotPuzzle.Json.Reader
import RobotPuzzle.Json.Writer
import RobotPuzzle.Level.Catalogue
import RobotPuzzle.Level.Reader
import RobotPuzzle.Program.Reader
import RobotPuzzle.Search.Basic
import RobotPuzzle.Text.Lines

namespace RobotPuzzle

namespace CommandLine

/-- What goes wrong with a command. -/
inductive Fault where
  | severity (name : String)
  | noLevel (name : String)
  | file (fault : FileFault)
  | text (fault : Json.TextFault)
  | level (fault : Level.Fault)
  | start (fault : Level.StartFault)
  | program (fault : Program.Fault)

def Fault.message : Fault → String
  | .severity name => "Level '" ++ name ++ "' does not exist"
  | .noLevel name => "No level file or built-in level named " ++ Text.quoted name
  | .file fault => fault.message
  | .text fault => fault.message
  | .level fault => fault.message
  | .start fault => fault.message
  | .program fault => fault.message

/-- The fault is logged, and the command ends with code 2. -/
def Fault.isRefusal : Fault → Bool
  | .noLevel _ => true
  | .file (.missing _) => true
  | .text (.problem _ _) => true
  | .level fault => fault.isRefusal
  | .start (.unknownTile _) => true
  | .program fault => fault.isRefusal
  | _ => false

/-! ## Messages -/

/-- The severities that can be named, with their ranks. -/
def severities : List (String × Nat) :=
  [("TRACE", 5), ("DEBUG", 10), ("INFO", 20), ("SUCCESS", 25), ("WARNING", 30), ("ERROR", 40),
   ("CRITICAL", 50)]

/-- The rank of the severity of that name. -/
def rank? (name : String) : Option Nat := severities.lookup name

/-- A message that is logged. -/
structure Message where
  severity : String
  text : String
deriving DecidableEq, Repr

/-- The message is shown from that rank on. -/
def Message.shownFrom (threshold : Nat) (m : Message) : Bool := threshold ≤ (rank? m.severity).getD 0

/-- The first line of a text. -/
def firstLine (text : String) : String := String.ofList (text.toList.takeWhile (· ≠ '\n'))

/-- How a command ends. -/
inductive Ending where
  | exit (code : Nat)
  | fault (fault : Fault)

/-- What a command did. -/
structure Outcome where
  /-- the lines printed -/
  printed : List String := []
  logged : List Message := []
  ending : Ending

/-- All that was printed. -/
def Outcome.stdout (o : Outcome) : String := String.join (o.printed.map (· ++ "\n"))

/-! ## Levels and programs -/

/-- A JSON value from a file. -/
def readJson (files : String → FileView) (path : String) : Except Fault Json :=
  match (files path).read path with
  | .error fault => .error (.file fault)
  | .ok content =>
    match Json.parse (Text.ofFile content) with
    | .error fault => .error (.text fault)
    | .ok v => .ok v

/-- What a level is called in a message: identifier, name, or neither. -/
def titleOf (level : Level) : String :=
  if !level.id.isVoid then level.id.plain
  else if !level.name.isVoid then level.name.plain
  else "unnamed"

/-- The message about a level that was read. -/
def loadedMessage (path : String) (level : Level) : Message :=
  { severity := "INFO"
    text := firstLine ("Level loaded from " ++ path ++ ": " ++ titleOf level ++ " ("
      ++ toString level.width ++ "x" ++ toString level.height ++ ")") }

/-- A level by path, or by its identifier in the catalogue, with the messages about it. -/
def resolveLevel (files : String → FileView) (name : String) :
    Except Fault (Level × List Message) :=
  if (files name).present then
    match readJson files name with
    | .error fault => .error fault
    | .ok v =>
      match Level.ofJson v with
      | .error fault => .error (.level fault)
      | .ok level => .ok (level, [loadedMessage name level])
  else
    match Level.find? name with
    | some level => .ok (level, [])
    | none => .error (.noLevel name)

/-- A program from a file. -/
def loadProgram (files : String → FileView) (path : String) : Except Fault Program :=
  match readJson files path with
  | .error fault => .error fault
  | .ok v =>
    match Program.ofJson v with
    | .error fault => .error (.program fault)
    | .ok program => .ok program

/-! ## Commands -/

/-- The text, with blanks behind it up to the width. -/
def padded (width : Nat) (text : String) : String :=
  text ++ String.ofList (List.replicate (width - text.length) ' ')

/-- The line about a level of the catalogue. -/
def levelLine (level : Level) : String :=
  padded 16 level.id.plain ++ " " ++ padded 24 level.name.plain ++ " " ++ toString level.width ++ "x"
    ++ toString level.height ++ "  save " ++ toString level.requiredSaved ++ "/"
    ++ toString level.spawner.count

/-- Yes or no. -/
def truth (b : Bool) : String := if b then "True" else "False"

/-- The result of an evaluation, for people. -/
def resultLines (r : Evaluation.Result) : List String :=
  ["  Status:  " ++ r.final.status.name, "  Solved:  " ++ truth r.solved,
   "  Score:   " ++ toString r.score, "  Ticks:   " ++ toString r.final.stepCount]
  ++ (r.cause.map fun c => "  Cause:   " ++ c.name).toList

/-- A score, where there is one. -/
def scoreText (score : Option Nat) : String := (score.map fun n => toString n).getD "None"

/-- A report of a search, for people.  No clock is kept. -/
def reportLine (r : Search.Report) : String :=
  "  ... " ++ toString r.attempts ++ " attempts, best " ++ scoreText r.score ++ ", 0ms"

/-- The actions of a program in a row. -/
def actionNames (p : Program) : List String :=
  p.filterMap fun
    | .action a _ => some a.name
    | _ => none

/-- The result of a search, for people. -/
def searchLines (l : Search.Ledger) : List String :=
  ["  Solved:   " ++ truth l.solved, "  Score:    " ++ scoreText (l.best.map (·.result.score)),
   "  Attempts: " ++ toString l.attempts ++ " in 0ms",
   "  Program:  " ++ if l.program.isEmpty then "(empty)" else " ".intercalate (actionNames l.program)]

/-- The ending of a command that did or did not solve its level. -/
def endingOf (solved : Bool) : Ending := .exit (if solved then 0 else 1)

/-- A command that was broken off. -/
def brokenOff (logged : List Message) (fault : Fault) : Outcome :=
  if fault.isRefusal then
    { logged := logged ++ [{ severity := "ERROR", text := firstLine fault.message }], ending := .exit 2 }
  else { logged, ending := .fault fault }

/-- Lists the levels of the catalogue. -/
def runLevels : Outcome := { printed := Level.catalogue.map levelLine, ending := .exit 0 }

/-- Evaluates a program on a level. -/
def RunCommand.carryOut (c : RunCommand) (settings : Settings) (files : String → FileView) :
    Outcome :=
  match resolveLevel files c.level with
  | .error fault => brokenOff [] fault
  | .ok (level, logged) =>
    match loadProgram files c.program with
    | .error fault => brokenOff logged fault
    | .ok program =>
      let usual := settings.evaluation
      let options : Evaluation.Options :=
        { usual with
          maxTicks := c.maxTicks.or usual.maxTicks
          sampleEvery := c.sampleEvery.getD usual.sampleEvery }
      match Evaluation.evaluate program level options with
      | .error fault => brokenOff logged (.start fault)
      | .ok r =>
        { printed := if c.json then [r.toJsonWithCause.pretty] else resultLines r
          logged
          ending := endingOf r.solved }

/-- The options of a search. -/
def SolveCommand.options (c : SolveCommand) (settings : Settings) : Search.Options :=
  let usual := settings.search
  { usual with
    actions := c.actions.getD usual.actions
    maxAttempts := c.attempts.or usual.maxAttempts
    maxTimeMs := c.timeMs.or usual.maxTimeMs
    maxDepth := c.depth.or usual.maxDepth
    beamWidth := c.beam.or usual.beamWidth
    strategy := c.strategy.getD usual.strategy
    seed := c.seed.or usual.seed
    workers := c.workers.getD usual.workers }

/-- Searches for a program that solves a level. -/
def SolveCommand.carryOut (c : SolveCommand) (settings : Settings) (files : String → FileView) :
    Outcome :=
  match resolveLevel files c.level with
  | .error fault => brokenOff [] fault
  | .ok (level, logged) =>
    match search level (c.options settings) settings.evaluation (some fun _ => false) false with
    | .error fault => brokenOff logged (.start fault)
    | .ok l =>
      { printed :=
          if c.json then [(l.toJson [("elapsed_ms", .int 0)]).pretty]
          else l.reports.reverse.map reportLine ++ searchLines l
        logged
        ending := endingOf l.solved }

/-- Carries out a command.  Answering requests is not done from here. -/
def Command.carryOut (command : Command) (settings : Settings) (files : String → FileView) :
    Outcome :=
  match command with
  | .levels => runLevels
  | .run c => c.carryOut settings files
  | .solve c => c.carryOut settings files
  | .serve _ _ => { ending := .exit 1 }

/-- The severity from which on messages are shown: as given, or as set. -/
def Invocation.severity (i : Invocation) (settings : Settings) : String :=
  Text.upper (match i.logLevel with
    | some name => if name.isEmpty then settings.logLevel else name
    | none => settings.logLevel)

/-- Carries out what a line asks for. -/
def Invocation.carryOut (i : Invocation) (settings : Settings) (files : String → FileView) : Outcome :=
  match rank? (i.severity settings) with
  | none => { ending := .fault (.severity (i.severity settings)) }
  | some threshold =>
    let o := i.command.carryOut settings files
    { o with logged := o.logged.filter (Message.shownFrom threshold) }

end CommandLine

end RobotPuzzle
