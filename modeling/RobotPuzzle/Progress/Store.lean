/-
  The levels a player has completed.

  Identifiers are texts, kept in order and each once (`insertId`).  The file is a JSON object with a
  version and the list of identifiers; a bare list is read as well, and an item that is no text is read
  as what it looks like in a message.  A file that is missing or cannot be read counts as empty, so that
  it never stands in the way of a game.
-/
import RobotPuzzle.Json.Reader
import RobotPuzzle.Json.Shown
import RobotPuzzle.Json.Writer
import RobotPuzzle.Progress.Disk
import RobotPuzzle.Text.Lines

namespace RobotPuzzle

/-- The completed levels in memory, and the file they are kept in. -/
structure ProgressStore where
  /-- in the order of completion, each once -/
  ids : List String := []
  /-- the file, and the draft it is replaced by -/
  disk : Disk := {}
deriving Inhabited

namespace ProgressStore

/-- Adds an identifier at its place. -/
def insertId (id : String) : List String → List String
  | [] => [id]
  | other :: rest =>
    if id = other then other :: rest
    else if id < other then id :: other :: rest
    else other :: insertId id rest

theorem mem_insertId {id other : String} {ids : List String} :
    other ∈ insertId id ids ↔ other = id ∨ other ∈ ids := by
  induction ids with
  | nil => simp [insertId]
  | cons first rest ih =>
    simp only [insertId]
    split
    · rename_i h; subst h; simp
    · split
      · simp
      · simp only [List.mem_cons, ih]
        exact or_left_comm

/-- Identifiers in order, each once. -/
def collect (ids : List String) : List String := ids.foldl (fun all id => insertId id all) []

/-! ## The file -/

/-- The content of the file for these identifiers. -/
def fileText (ids : List String) : String :=
  (Json.obj [("version", .int 1), ("completed", .arr (ids.map .str))]).pretty

/-- The list of identifiers in a JSON value. -/
def listed (v : Json) : Option (List Json) :=
  let list :=
    match v with
    | .obj members => (Json.lookup "completed" members).getD (.arr [])
    | v => v
  match list with
  | .arr items => some items
  | _ => none

/-- The identifiers in a file; none if it cannot be read. -/
def idsOfFile : FileContent → List String
  | .binary => []
  | .text content =>
    match Json.parse (Text.ofFile content) with
    | .ok v => collect (((listed v).getD []).map Json.plain)
    | .error _ => []

/-- The store as it is when it is opened. -/
def load (disk : Disk) : ProgressStore := { ids := (disk.file.map idsOfFile).getD [], disk }

/-! ## Changes -/

/-- Why a level is not added. -/
inductive AddFault where
  /-- an identifier is a text with at least one character -/
  | noIdentifier
  /-- the file could not be written, at that step -/
  | saving (step : SaveStep)
deriving DecidableEq, Repr

def AddFault.message : AddFault → String
  | .noIdentifier => "Level id must be a non-empty string"
  | .saving .makeFolder => "The folder of the progress file cannot be made"
  | .saving .writeDraft => "The progress file cannot be written"
  | .saving .replaceFile => "The progress file cannot be replaced"

/-- Writes the file; the answer is the step that failed, if one did. -/
def save (s : ProgressStore) (fails : Disk.Health) : ProgressStore × Option SaveStep :=
  let (disk, failed) := s.disk.save fails (fileText s.ids)
  ({ s with disk }, failed)

/-- The identifier that a value is: a text with at least one character. -/
def identifier? : Json → Option String
  | .str text => if text.isEmpty then none else some text
  | _ => none

/-- Marks a level completed, in memory and, if asked, in the file.  The answer is `false` if it was
marked before. -/
def add (s : ProgressStore) (fails : Disk.Health) (value : Json) (saving : Bool) :
    ProgressStore × Except AddFault Bool :=
  match identifier? value with
  | none => (s, .error .noIdentifier)
  | some id =>
    if s.ids.contains id then (s, .ok false)
    else
      let added := { s with ids := insertId id s.ids }
      if saving then
        match added.save fails with
        | (saved, none) => (saved, .ok true)
        | (saved, some step) => (saved, .error (.saving step))
      else (added, .ok true)

/-- Forgets all levels. -/
def clear (s : ProgressStore) (fails : Disk.Health) (saving : Bool) :
    ProgressStore × Option SaveStep :=
  let cleared := { s with ids := [] }
  if saving then cleared.save fails else (cleared, none)

/-- The level is marked completed. -/
def contains (s : ProgressStore) (id : String) : Bool := s.ids.contains id

/-- Why a value cannot be looked up. -/
inductive LookupFault where
  /-- a list or an object -/
  | compound (kind : String)
deriving DecidableEq, Repr

def LookupFault.message : LookupFault → String
  | .compound kind => "unhashable type: " ++ Text.quoted kind

/-- Whether any value is marked completed; only texts ever are. -/
def lookup (s : ProgressStore) : Json → Except LookupFault Bool
  | .str id => .ok (s.contains id)
  | .arr _ => .error (.compound "list")
  | .obj _ => .error (.compound "dict")
  | _ => .ok false

end ProgressStore

end RobotPuzzle
