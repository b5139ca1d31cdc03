/-
  The file in which progress is kept.

  A file is replaced in three steps: the folder is made, the new content is written to a draft beside
  the file, and the draft takes the place of the file.  Each step may fail; whatever fails, the file
  itself keeps its content (`Disk.save_failed`), and it has the new content when all went well
  (`Disk.save_done`).
-/

namespace RobotPuzzle

/-- What is in a file. -/
inductive FileContent where
  /-- characters, line ends as they are -/
  | text (content : String)
  /-- bytes that are no text -/
  | binary
deriving DecidableEq, Repr, Inhabited

/-- The steps of replacing a file. -/
inductive SaveStep where
  /-- the folder of the file is made, if there is none -/
  | makeFolder
  /-- the draft is written -/
  | writeDraft
  /-- the draft takes the place of the file -/
  | replaceFile
deriving DecidableEq, Repr

/-- The file and its draft, where they exist. -/
structure Disk where
  /-- what readers see -/
  file : Option FileContent := none
  /-- what is being written, or was left behind by a failure -/
  draft : Option FileContent := none
deriving DecidableEq, Repr, Inhabited

namespace Disk

/-- Tells which steps fail. -/
abbrev Health := SaveStep → Bool

/-- No step fails. -/
def healthy : Health := fun _ => false

/-- The draft is written. -/
def writeDraft (d : Disk) (content : String) : Disk := { d with draft := some (.text content) }

/-- The draft takes the place of the file. -/
def replaceFile (d : Disk) : Disk := { file := d.draft, draft := none }

/-- Replaces the file; the answer is the step that failed, if one did. -/
def save (d : Disk) (fails : Health) (content : String) : Disk × Option SaveStep :=
  if fails .makeFolder then (d, some .makeFolder)
  else if fails .writeDraft then (d, some .writeDraft)
  else if fails .replaceFile then (d.writeDraft content, some .replaceFile)
  else ((d.writeDraft content).replaceFile, none)

theorem save_failed {d : Disk} {fails : Health} {content : String} {step : SaveStep}
    (h : (d.save fails content).2 = some step) : (d.save fails content).1.file = d.file := by
  unfold save at h ⊢
  repeat' split
  all_goals simp_all [writeDraft]

theorem save_done {d : Disk} {fails : Health} {content : String}
    (h : (d.save fails content).2 = none) :
    (d.save fails content).1.file = some (.text content) := by
  unfold save at h ⊢
  repeat' split
  all_goals simp_all [writeDraft, replaceFile]

theorem save_healthy (d : Disk) (content : String) :
    d.save healthy content = ({ file := some (.text content), draft := none }, none) := by
  simp [save, healthy, writeDraft, replaceFile]

end Disk

end RobotPuzzle
