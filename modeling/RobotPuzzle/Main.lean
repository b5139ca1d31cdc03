/-
  The program: one command per call.

  All that a command does is decided in `CommandLine`; here the files it may read are looked up, and
  its lines and messages are written out.
-/
import RobotPuzzle.CommandLine.Basic

namespace RobotPuzzle

namespace CommandLine

/-- The paths that a command may read. -/
def Command.paths : Command → List String
  | .levels => []
  | .run c => [c.level, c.program]
  | .solve c => [c.level]
  | .serve _ _ => []

/-- The system's code for reading a folder as a file; of this kind of failure the other is a path that
leads through a file. -/
def isAFolder : UInt32 := 21

/-- What is found at a path; what can be neither read nor found stops the command. -/
def lookAt (path : String) : IO FileView := do
  if path.isEmpty then return .missing
  try
    match String.fromUTF8? (← IO.FS.readBinFile path) with
    | some content => return .text content
    | none => return .binary
  catch
    | .noFileOrDirectory .. => return .missing
    | .inappropriateType _ code _ => return if code == isAFolder then .folder else .throughFile
    | failure => throw failure

/-- What has been found at the paths of a command. -/
def lookUp (found : List (String × FileView)) (path : String) : FileView :=
  (found.lookup path).getD .missing

/-- Carries out what a line asks for; the answer is the exit code. -/
def perform (settings : Settings) (words : List String) : IO UInt32 := do
  match Invocation.parse settings words with
  | .error .help => do
    IO.println (Refusal.message .help)
    return 0
  | .error refusal => do
    IO.eprintln ("error: " ++ refusal.message)
    return 2
  | .ok invocation => do
    let found ← invocation.command.paths.mapM fun path => return (path, ← lookAt path)
    let o := invocation.carryOut settings (lookUp found)
    IO.print o.stdout
    for m in o.logged do
      IO.eprintln (m.severity ++ ": " ++ m.text)
    match o.ending with
    | .exit code => return UInt32.ofNat code
    | .fault fault => do
      IO.eprintln ("error: " ++ fault.message)
      return 1

end CommandLine

end RobotPuzzle

/-- Runs the command of the line, with the usual settings. -/
def main (words : List String) : IO UInt32 := RobotPuzzle.CommandLine.perform {} words
