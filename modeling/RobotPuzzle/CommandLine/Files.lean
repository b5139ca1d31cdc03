/-
  Files as a command sees them.

  A path is followed part by part: a single dot stays, two dots go up, and a name has to be there.
  Folders are the paths of files without their last parts, and those that are listed as folders.
-/
import RobotPuzzle.Text.FilePath
import RobotPuzzle.Text.Quoted

namespace RobotPuzzle

/-- What is found at a path. -/
inductive FileView where
  | text (content : String)
  /-- bytes that are no text -/
  | binary
  | folder
  | missing
  /-- the path leads through a file -/
  | throughFile
deriving DecidableEq, Repr, Inhabited

namespace FileView

/-- There is something at the path. -/
def present : FileView → Bool
  | .text _ => true
  | .binary => true
  | .folder => true
  | _ => false

end FileView

/-- Why a file cannot be read. -/
inductive FileFault where
  | missing (path : String)
  | folder (path : String)
  | throughFile (path : String)
  | binary (path : String)
deriving DecidableEq, Repr

def FileFault.message : FileFault → String
  | .missing path => "[Errno 2] No such file or directory: " ++ Text.quoted path
  | .folder path => "[Errno 21] Is a directory: " ++ Text.quoted path
  | .throughFile path => "[Errno 20] Not a directory: " ++ Text.quoted path
  | .binary path => "The file holds bytes that are no text: " ++ Text.quoted path

/-- The text at a path. -/
def FileView.read (path : String) : FileView → Except FileFault String
  | .text content => .ok content
  | .binary => .error (.binary path)
  | .folder => .error (.folder path)
  | .missing => .error (.missing path)
  | .throughFile => .error (.throughFile path)

/-- A folder and all that is in it: paths by their parts, with the content of files; no content means
a folder. -/
structure FileTree where
  entries : List (List (List Char) × Option String)

namespace FileTree

/-- A tree from paths. -/
def ofPaths (paths : List (String × Option String)) : FileTree :=
  ⟨paths.map fun (path, content) => (Text.pathParts path.toList, content)⟩

/-- What is at these parts. -/
def entry (tree : FileTree) (parts : List (List Char)) : FileView :=
  match tree.entries.find? (·.1 == parts) with
  | some (_, some content) => .text content
  | some (_, none) => .folder
  | none =>
    if parts.isEmpty || tree.entries.any (parts.isPrefixOf ·.1) then .folder else .missing

/-- The part leads to a folder again, wherever one is. -/
def staysOut (part : List Char) : Bool := part == [] || part == ['.'] || part == ['.', '.']

/-- What is found outside the folder: other folders on the way up, and nothing else. -/
def outside (parts : List (List Char)) : FileView := if parts.all staysOut then .folder else .missing

/-- Follows a path from a folder. -/
def follow (tree : FileTree) (place : List (List Char)) : List (List Char) → FileView
  | [] => tree.entry place
  | part :: rest =>
    match tree.entry place with
    | .folder =>
      if part = [] ∨ part = ['.'] then follow tree place rest
      else if part = ['.', '.'] then
        if place.isEmpty then outside rest else follow tree place.dropLast rest
      else follow tree (place ++ [part]) rest
    | .missing => .missing
    | _ => .throughFile

/-- What is at a path.  The empty path leads nowhere, and nothing is known of what lies outside the
folder. -/
def view (tree : FileTree) (path : String) : FileView :=
  match path.toList with
  | [] => .missing
  | '/' :: rest => outside (Text.pieces '/' rest)
  | cs => tree.follow [] (Text.pieces '/' cs)

end FileTree

end RobotPuzzle
