/-
  Rafts and the ferry step.

  A raft has a cyclic route: the cell where it was made, then every jetty by row and column.

  1. **Riders** — a raft with a blocking robot on its cell sails to the next stop if nobody else stands
     there, takes along every robot on its cell, and remembers the stop it left.
  2. **Return** — a raft without riders that remembers a stop sails back to it if nobody stands there,
     and forgets it.
  3. **Order** — rafts go one after the other, each seeing the robots and the occupied cells as the
     rafts before it left them.  The tiles they change are collected and painted at the end.

  `sailAlone` and `sailWithRiders` are the two crossings; `ferryOne` chooses; `ferry` goes through all.
-/
import RobotPuzzle.Movement

namespace RobotPuzzle

/-- A raft: its cell, its stops, the index of the stop it lies at, and that of the stop it will return
to. -/
structure Raft where
  cell : Cell
  route : List Cell
  dock : Int := 0
  back : Option Int := none
deriving DecidableEq, Repr, Inhabited

/-- Rows come first, then columns. -/
def Cell.before (a b : Cell) : Bool := a.y < b.y || (a.y == b.y && a.x ≤ b.x)

/-- Puts a cell behind all cells that come before it. -/
def insertStop (c : Cell) : List Cell → List Cell
  | [] => [c]
  | d :: rest => if c.before d then c :: d :: rest else d :: insertStop c rest

/-- Cells by row and column. -/
def sortStops : List Cell → List Cell
  | [] => []
  | c :: rest => insertStop c (sortStops rest)

theorem insertStop_perm (c : Cell) (stops : List Cell) : (insertStop c stops).Perm (c :: stops) := by
  induction stops with
  | nil => exact .refl _
  | cons d rest ih =>
    simp only [insertStop]
    split
    · exact .refl _
    · exact (ih.cons d).trans (.swap c d rest)

/-- Sorting loses no stop and adds none. -/
theorem sortStops_perm (stops : List Cell) : (sortStops stops).Perm stops := by
  induction stops with
  | nil => exact .refl _
  | cons c rest ih => exact (insertStop_perm c _).trans (ih.cons c)

/-- The route of a raft made at `origin`. -/
def buildRoute (origin : Cell) (jetties : List Cell) : List Cell :=
  origin :: sortStops (jetties.filter (· ≠ origin))

theorem buildRoute_perm (origin : Cell) (jetties : List Cell) :
    (buildRoute origin jetties).Perm (origin :: jetties.filter (· ≠ origin)) :=
  (sortStops_perm _).cons origin

/-- One raft for every raft tile, row by row. -/
def initialRafts (grid : Grid) (jetties : List Cell) : List Raft :=
  (grid.cellsOf (· == .raft)).map fun c => { cell := c, route := buildRoute c jetties }

/-- Why the ferry step cannot be made. -/
inductive FerryFault where
  | noStop
  | paint (fault : PaintFault)
deriving DecidableEq, Repr

def FerryFault.message : FerryFault → String
  | .noStop => "tuple index out of range"
  | .paint fault => fault.message

/-- The stop of that index; a negative index counts from the end. -/
def Raft.stop? (raft : Raft) (index : Int) : Option Cell :=
  (placeOf? raft.route.length index).bind (raft.route[·]?)

/-- What the rafts of one tick share. -/
structure Harbour where
  /-- the robots, those on rafts that have sailed already moved along -/
  robots : List Robot
  /-- the cells that a raft may not sail to -/
  occupied : List Cell
  /-- the tiles changed so far -/
  changes : Grid.Changes
deriving Repr

namespace Harbour

/-- A raft leaves `here` for `there`: the tile it leaves becomes a jetty again, or water. -/
def sail (jetties : List Cell) (h : Harbour) (here there : Cell) : Harbour :=
  let left : Tile := if here ∈ jetties then .jetty else .water
  { h with
    changes := (h.changes.put here left).put there .raft
    occupied := there :: h.occupied.filter (· ≠ here) }

/-- Every robot on `here` is carried to `there`. -/
def carry (h : Harbour) (here there : Cell) : Harbour :=
  { h with robots := h.robots.map fun r => if r.cell = here then { r with cell := there } else r }

/-- Some robot on the cell blocks it. -/
def hasRider (h : Harbour) (c : Cell) : Bool := h.robots.any fun r => r.blocking && r.cell == c

end Harbour

namespace Raft

/-- A raft with riders goes on to its next stop, unless another robot stands there. -/
def sailWithRiders (jetties : List Cell) (h : Harbour) (raft : Raft) :
    Except FerryFault (Harbour × Raft) :=
  let next := (raft.dock + 1) % raft.route.length
  match raft.stop? next with
  | none => .error .noStop
  | some there =>
    if there ∈ h.occupied ∧ there ≠ raft.cell then .ok (h, raft)
    else
      .ok ((h.sail jetties raft.cell there).carry raft.cell there,
        { raft with cell := there, dock := next, back := some raft.dock })

/-- A raft without riders goes back to the stop it remembers, unless a robot stands there. -/
def sailAlone (jetties : List Cell) (h : Harbour) (raft : Raft) (back : Int) :
    Except FerryFault (Harbour × Raft) :=
  match raft.stop? back with
  | none => .error .noStop
  | some there =>
    if there ∈ h.occupied then .ok (h, raft)
    else .ok (h.sail jetties raft.cell there, { raft with cell := there, dock := back, back := none })

/-- The stop an empty raft still has to return to. -/
def pending (raft : Raft) : Option Int :=
  match raft.back with
  | some back => if back = raft.dock then none else some back
  | none => none

/-- The turn of one raft. -/
def ferryOne (jetties : List Cell) (h : Harbour) (raft : Raft) : Except FerryFault (Harbour × Raft) :=
  if raft.route.length < 2 then .ok (h, raft)
  else if h.hasRider raft.cell then raft.sailWithRiders jetties h
  else
    match raft.pending with
    | some back => raft.sailAlone jetties h back
    | none => .ok (h, raft)

/-- The turns of all rafts, in order. -/
def ferryAll (jetties : List Cell) : Harbour → List Raft → Except FerryFault (Harbour × List Raft)
  | h, [] => .ok (h, [])
  | h, raft :: rest => do
    let (h, raft) ← raft.ferryOne jetties h
    let (h, others) ← ferryAll jetties h rest
    pure (h, raft :: others)

end Raft

/-- The cells that blocking robots stand on. -/
def occupiedCells (robots : List Robot) : List Cell := (robots.filter Robot.blocking).map Robot.cell

/-- The ferry step of a tick. -/
def ferry (grid : Grid) (robots : List Robot) (rafts : List Raft) (jetties : List Cell) :
    Except FerryFault (Grid × List Robot × List Raft) := do
  let start : Harbour := { robots, occupied := occupiedCells robots, changes := [] }
  let (h, rafts) ← Raft.ferryAll jetties start rafts
  match grid.paint h.changes with
  | .ok grid => pure (grid, h.robots, rafts)
  | .error fault => throw (.paint fault)

/-- Without rafts the ferry step changes nothing. -/
theorem ferry_nil (grid : Grid) (robots : List Robot) (jetties : List Cell) :
    ferry grid robots [] jetties = .ok (grid, robots, []) := rfl

end RobotPuzzle
