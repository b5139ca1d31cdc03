/-
  The board: a grid of tiles.

  1. **Reading a cell** — rows may differ in length.  The width is that of the first row; inside it a
     cell behind the end of a short row is empty, and everything outside the grid is wall (`tile`).
  2. **Listing cells** — `cellsOf` lists the cells whose tile is wanted, row by row.
  3. **Painting** — `paint` puts tiles on single cells, in order.  It keeps the number of rows and the
     length of every row, so the width and the height never change (`paint_lengths`).
-/
import RobotPuzzle.Json.Basic

namespace RobotPuzzle

/-- A position; `y` grows southward. -/
structure Cell where
  x : Int
  y : Int
deriving DecidableEq, Repr, Inhabited

/-- What a cell of the board holds. -/
inductive Tile where
  | empty
  | wall
  | goal
  | hazard
  | plate
  | door
  | water
  | raft
  | jetty
deriving DecidableEq, Repr, Inhabited

namespace Tile

/-- The number of a tile in a level. -/
def id : Tile → Int
  | empty => 0
  | wall => 1
  | goal => 2
  | hazard => 3
  | plate => 4
  | door => 5
  | water => 6
  | raft => 7
  | jetty => 8

/-- The tile of that number. -/
def ofId? (n : Int) : Option Tile :=
  [empty, wall, goal, hazard, plate, door, water, raft, jetty].find? (·.id == n)

theorem ofId?_id (t : Tile) : ofId? t.id = some t := by cases t <;> rfl

theorem id_of_ofId? {n : Int} {t : Tile} (h : ofId? n = some t) : t.id = n := by
  simpa using List.find?_some h

/-- A robot that does not ride dies here: hazard and water. -/
def lethal : Tile → Bool
  | hazard => true
  | water => true
  | _ => false

/-- The tile a JSON value numbers. -/
def ofJson? (v : Json) : Option Tile := v.toInt?.bind ofId?

end Tile

/-- Rows of tiles, the northern one first. -/
structure Grid where
  rows : List (List Tile)
deriving DecidableEq, Repr, Inhabited

/-- The place in a list of that length that an index means: a negative index counts from the end. -/
def placeOf? (length : Nat) (index : Int) : Option Nat :=
  if 0 ≤ index then
    if index < length then some index.toNat else none
  else if -(length : Int) ≤ index then some (index + length).toNat
  else none

theorem placeOf?_lt {length place : Nat} {index : Int} (h : placeOf? length index = some place) :
    place < length := by
  simp only [placeOf?] at h
  split at h
  · split at h
    · injection h; omega
    · simp at h
  · split at h
    · injection h; omega
    · simp at h

/-- Why a cell cannot be painted. -/
inductive PaintFault where
  /-- the board has no such row -/
  | noRow
  /-- the row is too short -/
  | noCell
deriving DecidableEq, Repr

def PaintFault.message : PaintFault → String
  | .noRow => "list index out of range"
  | .noCell => "list assignment index out of range"

namespace Grid

def width (g : Grid) : Nat := (g.rows.head?.map (·.length)).getD 0

def height (g : Grid) : Nat := g.rows.length

/-- The cell lies inside the width and the height. -/
def contains (g : Grid) (c : Cell) : Bool :=
  0 ≤ c.x && c.x < g.width && 0 ≤ c.y && c.y < g.height

/-- The tile of a cell, anywhere. -/
def tile (g : Grid) (c : Cell) : Tile :=
  if g.contains c then
    match g.rows[c.y.toNat]? with
    | some row => row[c.x.toNat]?.getD .empty
    | none => .wall
  else .wall

/-- Outside the board all is wall. -/
theorem tile_of_not_contains {g : Grid} {c : Cell} (h : g.contains c = false) : g.tile c = .wall := by
  simp [tile, h]

/-- The cells of one row whose tile is wanted; `x` and `y` are the position of the first tile. -/
def cellsOfRow (wanted : Tile → Bool) (y : Int) : Int → List Tile → List Cell
  | _, [] => []
  | x, t :: rest =>
    if wanted t then ⟨x, y⟩ :: cellsOfRow wanted y (x + 1) rest else cellsOfRow wanted y (x + 1) rest

/-- The cells of some rows whose tile is wanted; `y` is the first row's. -/
def cellsOfRows (wanted : Tile → Bool) : Int → List (List Tile) → List Cell
  | _, [] => []
  | y, row :: rest => cellsOfRow wanted y 0 row ++ cellsOfRows wanted (y + 1) rest

/-- The cells whose tile is wanted, row by row. -/
def cellsOf (wanted : Tile → Bool) (g : Grid) : List Cell := cellsOfRows wanted 0 g.rows

/-- Tiles to put on cells, at most one for a cell, in the order in which the cells first came up. -/
abbrev Changes := List (Cell × Tile)

/-- A later tile for a cell takes the place of the earlier one. -/
def Changes.put (c : Cell) (t : Tile) : Changes → Changes
  | [] => [(c, t)]
  | (d, u) :: rest => if d = c then (d, t) :: rest else (d, u) :: put c t rest

/-- Puts a tile on one cell. -/
def paintCell (rows : List (List Tile)) (c : Cell) (t : Tile) : Except PaintFault (List (List Tile)) :=
  match placeOf? rows.length c.y with
  | none => .error .noRow
  | some y =>
    let row := rows[y]?.getD []
    match placeOf? row.length c.x with
    | none => .error .noCell
    | some x => .ok (rows.set y (row.set x t))

/-- Puts tiles on cells, one after the other. -/
def paintRows : List (List Tile) → Changes → Except PaintFault (List (List Tile))
  | rows, [] => .ok rows
  | rows, (c, t) :: rest =>
    match paintCell rows c t with
    | .ok rows => paintRows rows rest
    | .error fault => .error fault

/-- The board with these tiles put on it. -/
def paint (g : Grid) (changes : Changes) : Except PaintFault Grid :=
  (paintRows g.rows changes).map Grid.mk

theorem paintCell_lengths {rows painted : List (List Tile)} {c : Cell} {t : Tile}
    (h : paintCell rows c t = .ok painted) : painted.map (·.length) = rows.map (·.length) := by
  simp only [paintCell] at h
  split at h
  · simp at h
  · rename_i y hy
    split at h
    · simp at h
    · injection h with h
      subst h
      apply List.ext_getElem (by simp)
      intro i hi _
      simp only [List.getElem_map, List.getElem_set]
      split
      · rename_i hiy
        subst hiy
        have : y < rows.length := placeOf?_lt hy
        simp [List.getElem?_eq_getElem this]
      · rfl

/-- Painting keeps the length of every row. -/
theorem paint_lengths {g painted : Grid} {changes : Changes} (h : g.paint changes = .ok painted) :
    painted.rows.map (·.length) = g.rows.map (·.length) := by
  have key : ∀ (changes : Changes) (rows out : List (List Tile)), paintRows rows changes = .ok out →
      out.map (·.length) = rows.map (·.length) := by
    intro changes
    induction changes with
    | nil => intro rows out h; simp [paintRows] at h; simp [h]
    | cons m rest ih =>
      intro rows out h
      simp only [paintRows] at h
      split at h
      · rename_i mid hm; exact (ih mid out h).trans (paintCell_lengths hm)
      · simp at h
  simp only [paint] at h
  cases hp : paintRows g.rows changes with
  | error e => simp [hp, Except.map] at h
  | ok rows => simp [hp, Except.map] at h; subst h; exact key changes g.rows rows hp

/-! ## Reading a board -/

/-- Reads rows cell by cell; the first cell that is no tile stops it. -/
def read {α : Type} (decode : α → Option Tile) : List (List α) → Except α (List (List Tile))
  | [] => .ok []
  | row :: rest => do
    let tiles ← readRow row
    let others ← read decode rest
    pure (tiles :: others)
where
  readRow : List α → Except α (List Tile)
    | [] => .ok []
    | a :: rest =>
      match decode a with
      | none => .error a
      | some t => do
        let others ← readRow rest
        pure (t :: others)

/-- The board with these tile numbers; the error is the first number that is no tile. -/
def ofIds (ids : List (List Int)) : Except Int Grid := (read Tile.ofId? ids).map Grid.mk

/-- The tile numbers of the board. -/
def toIds (g : Grid) : List (List Int) := g.rows.map (·.map Tile.id)

/-- Why a JSON value is no board. -/
inductive Fault where
  /-- something that holds no items stands for the rows or for a row -/
  | noItems (kind : String)
  /-- an item is no number of a tile -/
  | unknownTile (value : Json)

end Grid

/-- What a value holds when it is gone through item by item: the items of a list, the characters of a
text, the names of an object; other kinds hold nothing and are named. -/
def Json.elements : Json → Except String (List Json)
  | .arr items => .ok items
  | .str text => .ok (text.toList.map fun c => .str (String.ofList [c]))
  | .obj members => .ok (members.map fun m => .str m.1)
  | v => .error v.kind

/-- The rows of a board as JSON values, read one row after the other. -/
def Grid.ofJsonRows : List Json → Except Grid.Fault (List (List Tile))
  | [] => .ok []
  | row :: rest =>
    match row.elements with
    | .error kind => .error (.noItems kind)
    | .ok cells =>
      match Grid.read Tile.ofJson? [cells] with
      | .error value => .error (.unknownTile value)
      | .ok tiles => do
        let others ← Grid.ofJsonRows rest
        pure (tiles ++ others)

/-- The board a JSON value describes. -/
def Grid.ofJson (v : Json) : Except Grid.Fault Grid :=
  match v.elements with
  | .error kind => .error (.noItems kind)
  | .ok rows => (Grid.ofJsonRows rows).map Grid.mk

/-- The tile numbers of the board as a list of lists. -/
def Grid.toJson (g : Grid) : Json := .arr (g.toIds.map fun row => .arr (row.map .int))

end RobotPuzzle
