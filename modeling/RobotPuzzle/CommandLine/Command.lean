/-
  The commands of the program.

  A line names a command behind the options that all commands share; the rest of the line belongs to
  the command and has a grammar of its own.
-/
import RobotPuzzle.CommandLine.Grammar
import RobotPuzzle.Search.Options
import RobotPuzzle.Settings.Basic

namespace RobotPuzzle

namespace CommandLine

/-- Evaluate a program on a level. -/
structure RunCommand where
  level : String
  program : String
  maxTicks : Option Int
  sampleEvery : Option Int
  json : Bool
deriving DecidableEq, Repr

/-- Search for a program that solves a level. -/
structure SolveCommand where
  level : String
  attempts : Option Int
  timeMs : Option Int
  depth : Option Int
  beam : Option Int
  strategy : Option Search.Strategy
  seed : Option Int
  workers : Option Int
  actions : Option (List Action)
  json : Bool
deriving DecidableEq, Repr

/-- A command. -/
inductive Command where
  /-- list the levels of the catalogue -/
  | levels
  | run (command : RunCommand)
  | solve (command : SolveCommand)
  /-- answer requests -/
  | serve (host : String) (socket : Int)
deriving DecidableEq, Repr

/-- A line: the severity from which on messages are shown, and the command. -/
structure Invocation where
  logLevel : Option String
  command : Command
deriving DecidableEq, Repr

/-! ## Grammars -/

def mainGrammar : Grammar := { flags := [{ name := "--log-level", arity := .one }], operand := .all }

def levelsGrammar : Grammar := { flags := [], operand := .nothing }

def runGrammar : Grammar :=
  { flags :=
      [{ name := "--program", arity := .one }, { name := "--max-ticks", arity := .one, reading := .number },
       { name := "--sample-every", arity := .one, reading := .number }, { name := "--json" }]
    operand := .one
    required := ["--program"] }

def solveGrammar : Grammar :=
  { flags :=
      [{ name := "--attempts", arity := .one, reading := .number },
       { name := "--time-ms", arity := .one, reading := .number },
       { name := "--depth", arity := .one, reading := .number },
       { name := "--beam", arity := .one, reading := .number },
       { name := "--strategy", arity := .one
         reading := .oneOf (Search.Strategy.all.map Search.Strategy.name) },
       { name := "--seed", arity := .one, reading := .number },
       { name := "--workers", arity := .one, reading := .number },
       { name := "--actions", arity := .many, reading := .oneOf (Action.all.map Action.name) },
       { name := "--json" }]
    operand := .one }

def serveGrammar : Grammar :=
  { flags := [{ name := "--host", arity := .one }, { name := "--port", arity := .one, reading := .number }]
    operand := .nothing }

/-! ## Reading -/

/-- The words that nobody took are an error. -/
def complete (found : Found) : Except Refusal Found :=
  if found.leftOver.isEmpty then .ok found else .error (.leftOver found.leftOver)

/-- The operand that a command has found. -/
def operandOf (found : Found) : String := (found.operand.bind List.head?).getD ""

/-- The command with its own part of the line. -/
def readCommand (settings : Settings) (name : String) (words : List String) :
    Except Refusal Command :=
  match name with
  | "levels" => do
    let _ ← complete (← levelsGrammar.parse words)
    pure .levels
  | "run" => do
    let found ← complete (← runGrammar.parse words)
    pure (.run
      { level := operandOf found
        program := (found.text? "--program").getD ""
        maxTicks := found.number? "--max-ticks"
        sampleEvery := found.number? "--sample-every"
        json := found.has "--json" })
  | "solve" => do
    let found ← complete (← solveGrammar.parse words)
    pure (.solve
      { level := operandOf found
        attempts := found.number? "--attempts"
        timeMs := found.number? "--time-ms"
        depth := found.number? "--depth"
        beam := found.number? "--beam"
        strategy := (found.text? "--strategy").bind Search.Strategy.ofName?
        seed := found.number? "--seed"
        workers := found.number? "--workers"
        actions := (found.arguments? "--actions").map fun names => names.filterMap Action.ofName?
        json := found.has "--json" })
  | "serve" => do
    let found ← complete (← serveGrammar.parse words)
    pure (.serve ((found.text? "--host").getD settings.apiHost)
      ((found.number? "--port").getD settings.apiPort))
  | name => throw (.badChoice name)

/-- What a line asks for. -/
def Invocation.parse (settings : Settings) (words : List String) : Except Refusal Invocation := do
  let found ← mainGrammar.parse words
  let command ←
    match found.operand with
    | some (name :: rest) => readCommand settings name rest
    | _ => throw (.missing ["command"])
  let _ ← complete found
  pure { logLevel := found.text? "--log-level", command }

end CommandLine

end RobotPuzzle
