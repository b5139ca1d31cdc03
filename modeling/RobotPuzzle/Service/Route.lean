/-
  Which request is meant by a method and a path.

  A path is known with some methods only; with any other method the request is refused.  A slash at the
  end of a path that would be known without it does not matter.
-/
import RobotPuzzle.Text.FilePath

namespace RobotPuzzle

namespace Service

/-- What can be asked for. -/
inductive Route where
  | health
  | levels
  | level (id : String)
  | evaluate
  | search
  | start
  | cancel
  | status
  | readProgress
  | addProgress
  | clearProgress
deriving DecidableEq, Repr

/-- The methods of a path, with what each asks for. -/
def methodsOf (path : List Char) : List (String × Route) :=
  match (Text.pieces '/' path).map String.ofList with
  | ["", "health"] => [("GET", .health)]
  | ["", "api", "levels"] => [("GET", .levels)]
  | ["", "api", "levels", id] => if id.isEmpty then [] else [("GET", .level id)]
  | ["", "api", "sim", "evaluate"] => [("POST", .evaluate)]
  | ["", "api", "solver", "search"] => [("POST", .search)]
  | ["", "api", "solver", "start"] => [("POST", .start)]
  | ["", "api", "solver", "cancel"] => [("POST", .cancel)]
  | ["", "api", "solver", "status"] => [("GET", .status)]
  | ["", "api", "progress"] =>
    [("GET", .readProgress), ("POST", .addProgress), ("DELETE", .clearProgress)]
  | _ => []

/-- The path without slashes at its end. -/
def trimSlashes (path : List Char) : List Char := (path.reverse.dropWhile (· == '/')).reverse

/-- Why nothing is meant. -/
inductive RouteFault where
  | unknownPath
  | wrongMethod
deriving DecidableEq, Repr

/-- What the methods of a path make of one method. -/
def choose (method : String) (methods : List (String × Route)) : Except RouteFault Route :=
  if methods.isEmpty then .error .unknownPath
  else
    match methods.lookup method with
    | some route => .ok route
    | none => .error .wrongMethod

/-- What is meant by a method and a path. -/
def route (method : String) (path : List Char) : Except RouteFault Route :=
  match methodsOf path with
  | [] => choose method (methodsOf (trimSlashes path))
  | methods => choose method methods

/-! ## Addresses -/

/-- The value of a hexadecimal digit. -/
def hexDigit? (c : Char) : Option Nat :=
  if '0' ≤ c && c ≤ '9' then some (c.toNat - '0'.toNat)
  else if 'a' ≤ c && c ≤ 'f' then some (c.toNat - 'a'.toNat + 10)
  else if 'A' ≤ c && c ≤ 'F' then some (c.toNat - 'A'.toNat + 10)
  else none

/-- The bytes of a path; a percent sign and two digits stand for one byte. -/
def pathBytes : List Char → List UInt8
  | '%' :: a :: b :: rest =>
    match hexDigit? a, hexDigit? b with
    | some m, some n => UInt8.ofNat (16 * m + n) :: pathBytes rest
    | _, _ => '%'.toUInt8 :: pathBytes (a :: b :: rest)
  | c :: rest => (String.singleton c).toUTF8.toList ++ pathBytes rest
  | [] => []

/-- The pieces of a path without its dots: a single dot says nothing, and two take back the piece
before them. -/
def resolveDots (kept : List (List Char)) : List (List Char) → List (List Char)
  | [] => kept.reverse
  | piece :: rest =>
    if piece = ['.'] then resolveDots kept rest
    else if piece = ['.', '.'] then resolveDots (if kept = [[]] then kept else kept.tail) rest
    else resolveDots (piece :: kept) rest

/-- The path with its escapes resolved, where they spell text. -/
def unescapePath (path : List Char) : List Char :=
  match String.fromUTF8? ⟨(pathBytes path).toArray⟩ with
  | some text => text.toList
  | none => path

/-- The path of an address, without query and fragment.  Dots count as they are written; then the
escapes are resolved, and those that this brings to light as well. -/
def pathOf (address : String) : List Char :=
  let bare := address.toList.takeWhile fun c => c ≠ '?' && c ≠ '#'
  let path := List.intercalate ['/'] (resolveDots [] (Text.pieces '/' bare))
  unescapePath (unescapePath path)

example : pathOf "/api/levels/./a%20b?x=1" = "/api/levels/a b".toList := by decide +kernel
example : pathOf "/api/levels/../progress" = "/api/progress".toList := by decide +kernel
example : pathOf "/%2541" = "/A".toList := by decide +kernel

end Service

end RobotPuzzle
