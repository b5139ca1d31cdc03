/-
  Listing the cells of one kind of tile, and asking every cell for its tile.

  1. **Order** — `cellsOf` lists cells row by row, each once, whatever the lengths of the rows
     (`cellsOf_before`).
  2. **Uneven boards** — a listing goes by the rows themselves, and `tile` by the width of the first row.
     The two part in two places: a tile that hangs over is listed although its cell is wall (`Overhangs`),
     and a cell behind the end of a short row is empty although it is not listed (`FallsShort`).
  3. **Agreement** — a listing is that of all cells with the tile exactly where neither is the case
     (`lists_iff`).  The exits that the score measures distances to are those that save robots exactly if
     some are named or no goal hangs over (`exits_agree_iff`).  All this holds of even boards, and so of
     every level that can be read.

  The crux is that both ways of looking at a board come from the same rows, and differ only outside a
  rectangle that the first row and the number of rows span.  Two kinds of cells make up that difference,
  and each spoils the agreement on its own.

  The conditions speak of the rows only, and an even board meets them all.  The example is the smallest
  board on which a listed cell is not what it is listed as: a second row that is one longer than the
  first.
-/
import RobotPuzzle.Proofs.Board
import RobotPuzzle.Simulation.State

namespace RobotPuzzle

namespace Grid

/-- Row by row, and along a row from the west. -/
def Before (c d : Cell) : Prop := c.y < d.y ∨ c.y = d.y ∧ c.x < d.x

/-- The list of all cells of the board that have this tile. -/
structure Lists (g : Grid) (t : Tile) (cells : List Cell) : Prop where
  /-- row by row, from the west -/
  ordered : cells.Pairwise Before
  /-- no cell twice -/
  once : cells.Nodup
  /-- just the cells of the board that answer with the tile -/
  exact : ∀ c, c ∈ cells ↔ g.contains c = true ∧ g.tile c = t

/-- Some row holds the tile behind the width of the board. -/
def Overhangs (g : Grid) (t : Tile) : Prop := ∃ row ∈ g.rows, t ∈ row.drop g.width

/-- Some row ends before the width of the board does. -/
def FallsShort (g : Grid) : Prop := ∃ row ∈ g.rows, row.length < g.width

/-! ## Order

  Both lemmas are by the recursion of the listing: within a row the place goes up, and from row to row the
  row does. -/

/-- Along a row, from any place on. -/
theorem cellsOfRow_before (wanted : Tile → Bool) (y : Int) :
    ∀ (row : List Tile) (x : Int), (cellsOfRow wanted y x row).Pairwise Before := by
  intro row
  induction row with
  | nil => intro x; exact .nil
  | cons t rest ih =>
    intro x
    rw [cellsOfRow]
    split
    · refine List.pairwise_cons.2 ⟨fun d hd => ?_, ih (x + 1)⟩
      obtain ⟨hy, i, hx, -⟩ := mem_cellsOfRow.1 hd
      exact .inr ⟨hy.symm, by rw [hx]; dsimp only; omega⟩
    · exact ih (x + 1)

/-- From row to row, whatever their lengths. -/
theorem cellsOf_before (wanted : Tile → Bool) (g : Grid) : (g.cellsOf wanted).Pairwise Before := by
  have key : ∀ (rows : List (List Tile)) (y : Int), (cellsOfRows wanted y rows).Pairwise Before := by
    intro rows
    induction rows with
    | nil => intro y; exact .nil
    | cons row rest ih =>
      intro y
      rw [cellsOfRows, List.pairwise_append]
      refine ⟨cellsOfRow_before wanted y row 0, ih (y + 1), fun c hc d hd => .inl ?_⟩
      obtain ⟨hy, -⟩ := mem_cellsOfRow.1 hc
      obtain ⟨j, hy', -⟩ := mem_cellsOfRows.1 hd
      omega
  exact key g.rows 0

/-! ## Uneven boards

  Overhanging and falling short are said about rows; what is needed is which cells they concern. -/

section Uneven

variable {g : Grid} {t : Tile} {c : Cell}

/-- The tile at a place of a row is stored for the cell of these numbers. -/
theorem storedIn_place {rows : List (List Tile)} {row : List Tile} {i j : Nat}
    (hrow : rows[j]? = some row) : storedIn rows ⟨i, j⟩ = row[i]? := by
  rw [storedIn, if_pos ⟨Int.natCast_nonneg i, Int.natCast_nonneg j⟩]
  show (rows[j]?.bind fun row => row[i]?) = row[i]?
  rw [hrow, Option.bind_some]

/-- A tile that hangs over is one that is stored outside the width and the height. -/
theorem overhangs_iff : g.Overhangs t ↔ ∃ c, storedIn g.rows c = some t ∧ g.contains c = false := by
  constructor
  · rintro ⟨row, hmem, ht⟩
    obtain ⟨j, hrow⟩ := List.getElem?_of_mem hmem
    obtain ⟨i, hi⟩ := List.getElem?_of_mem ht
    rw [List.getElem?_drop] at hi
    refine ⟨⟨(g.width + i : Nat), j⟩, (storedIn_place hrow).trans hi, ?_⟩
    refine Bool.eq_false_iff.2 fun hin => ?_
    obtain ⟨-, hx, -⟩ := contains_iff.1 hin
    dsimp only at hx
    omega
  · rintro ⟨c, hstored, hout⟩
    rw [storedIn] at hstored
    split at hstored
    · rename_i hpos
      obtain ⟨row, hrow, ht⟩ := Option.bind_eq_some_iff.1 hstored
      obtain ⟨hy, -⟩ := List.getElem?_eq_some_iff.1 hrow
      -- the cell lies in the height, so it must lie behind the width
      have hx : g.width ≤ c.x.toNat := by
        refine Nat.le_of_not_lt fun hx => ?_
        rw [contains_iff.2 ⟨hpos, hx, hy⟩] at hout
        cases hout
      refine ⟨row, List.mem_of_getElem? hrow, List.mem_of_getElem? (i := c.x.toNat - g.width) ?_⟩
      rw [List.getElem?_drop, Nat.add_sub_cancel' hx]
      exact ht
    · cases hstored

/-- Behind the end of a short row nothing is stored. -/
theorem fallsShort_iff : g.FallsShort ↔ ∃ c, g.contains c = true ∧ storedIn g.rows c = none := by
  constructor
  · rintro ⟨row, hmem, hshort⟩
    obtain ⟨j, hrow⟩ := List.getElem?_of_mem hmem
    obtain ⟨hj, -⟩ := List.getElem?_eq_some_iff.1 hrow
    refine ⟨⟨row.length, j⟩, contains_iff.2 ⟨?_, hshort, hj⟩, ?_⟩
    · exact ⟨Int.natCast_nonneg _, Int.natCast_nonneg _⟩
    · rw [storedIn_place hrow, List.getElem?_eq_none (Nat.le_refl _)]
  · rintro ⟨c, hin, hnone⟩
    obtain ⟨hpos, hx, hy⟩ := contains_iff.1 hin
    rw [storedIn, if_pos hpos, List.getElem?_eq_getElem hy, Option.bind_some] at hnone
    exact ⟨_, List.getElem_mem hy, Nat.lt_of_le_of_lt (List.getElem?_eq_none_iff.1 hnone) hx⟩

theorem not_overhangs_of_even (h : EvenRows g.rows) (t : Tile) : ¬ g.Overhangs t := by
  rw [overhangs_iff]
  rintro ⟨c, hstored, hout⟩
  rw [← stored_isSome_of_even h, hstored] at hout
  cases hout

theorem not_fallsShort_of_even (h : EvenRows g.rows) : ¬ g.FallsShort := by
  rw [fallsShort_iff]
  rintro ⟨c, hin, hnone⟩
  rw [← stored_isSome_of_even h, hnone] at hin
  cases hin

/-! ## Agreement

  Tiles are of two kinds here.  Wall and empty are also the answer for cells where nothing is stored; any
  other tile is found only where it is. -/

/-- Only a tile that stands for missing ones is had by cells for which nothing is stored. -/
theorem tile_iff_stored (hempty : t ≠ .empty) (hwall : t ≠ .wall) :
    g.tile c = t ↔ g.contains c = true ∧ storedIn g.rows c = some t := by
  constructor
  · intro h
    refine ⟨?_, stored_of_tile h hempty hwall⟩
    refine eq_true_of_ne_false fun hout => ?_
    exact hwall (h.symm.trans (tile_of_not_contains hout))
  · rintro ⟨hin, hstored⟩
    rw [tile_eq_stored, if_pos hin, hstored]
    rfl

/-- **One listing.**  It is that of all cells with the tile exactly if no such tile hangs over and, where
it is the tile of missing ones, no row falls short. -/
theorem lists_iff (g : Grid) (t : Tile) :
    g.Lists t (g.cellsOf (· == t)) ↔ ¬ g.Overhangs t ∧ (t = .empty → ¬ g.FallsShort) := by
  constructor
  · rintro ⟨-, -, hexact⟩
    refine ⟨fun hover => ?_, fun hempty hshort => ?_⟩
    · -- a tile outside the width is listed, but read as a wall
      obtain ⟨c, hstored, hout⟩ := overhangs_iff.1 hover
      have hin := ((hexact c).1 (mem_tiles.2 hstored)).1
      rw [hout] at hin
      cases hin
    · -- a missing tile is read as empty, but nothing lists it
      obtain ⟨c, hin, hnone⟩ := fallsShort_iff.1 hshort
      have htile : g.tile c = t := by
        rw [tile_eq_stored, if_pos hin, hnone, hempty]
        rfl
      have hstored := mem_tiles.1 ((hexact c).2 ⟨hin, htile⟩)
      rw [hnone] at hstored
      cases hstored
  · rintro ⟨hover, hshort⟩
    refine ⟨cellsOf_before _ g, cellsOf_nodup _ g, fun c => ?_⟩
    rw [mem_tiles]
    constructor
    · intro hstored
      have hin : g.contains c = true := by
        -- conversely, what is stored lies inside and is read as it is stored
        refine eq_true_of_ne_false fun hout => ?_
        exact hover (overhangs_iff.2 ⟨c, hstored, hout⟩)
      rw [tile_eq_stored, if_pos hin, hstored]
      exact ⟨hin, rfl⟩
    · rintro ⟨hin, htile⟩
      rw [tile_eq_stored, if_pos hin] at htile
      cases hstored : storedIn g.rows c with
      | none =>
        rw [hstored] at htile
        exact absurd (fallsShort_iff.2 ⟨c, hin, hstored⟩) (hshort htile.symm)
      | some u =>
        rw [hstored] at htile
        exact congrArg some htile

end Uneven

end Grid

namespace Simulation

open Grid (EvenRows Lists lists_iff mem_tiles not_fallsShort_of_even not_overhangs_of_even
  overhangs_iff tile_iff_stored)

/-- **The exits.**  Cell by cell and as a list they are the same exactly if some are named or no goal
hangs over. -/
theorem exits_agree_iff (g : Grid) (exits : List Cell) :
    (∀ c, isExit g exits c = true ↔ c ∈ effectiveExits g exits) ↔ exits ≠ [] ∨ ¬ g.Overhangs .goal := by
  cases exits with
  | cons e rest =>
    -- named exits are the list itself
    refine ⟨fun _ => .inl (List.cons_ne_nil e rest), fun _ c => ?_⟩
    exact List.contains_iff_mem
  | nil =>
    -- with none named, exits are the goals, which one side reads and the other lists
    have hexit : ∀ c, isExit g [] c = true ↔
        g.contains c = true ∧ Grid.storedIn g.rows c = some .goal := fun c =>
      beq_iff_eq.trans (tile_iff_stored (by decide) (by decide))
    have hlisted : ∀ c, c ∈ effectiveExits g [] ↔ Grid.storedIn g.rows c = some .goal := fun c =>
      mem_tiles
    simp only [hexit, hlisted, and_iff_right_iff_imp, ne_eq, not_true_eq_false, false_or]
    rw [overhangs_iff]
    constructor
    · rintro hall ⟨c, hstored, hout⟩
      rw [hall c hstored] at hout
      cases hout
    · intro hover c hstored
      refine eq_true_of_ne_false fun hout => ?_
      exact hover ⟨c, hstored, hout⟩

/-- **Listing and asking.**  On a board of any shape cells are listed in order and once.  They are all the
cells with the tile exactly if no such tile hangs over and, where it is the tile of missing ones, no row
falls short; and what is listed as exits is what saves robots exactly if some are named or no goal hangs
over.  So all agrees on even boards. -/
theorem listing_agrees_iff (g : Grid) :
    (∀ t, (g.cellsOf (· == t)).Pairwise Grid.Before ∧ (g.cellsOf (· == t)).Nodup) ∧
      (∀ t, g.Lists t (g.cellsOf (· == t)) ↔ ¬ g.Overhangs t ∧ (t = .empty → ¬ g.FallsShort)) ∧
      (∀ exits, (∀ c, isExit g exits c = true ↔ c ∈ effectiveExits g exits) ↔
        exits ≠ [] ∨ ¬ g.Overhangs .goal) ∧
      (EvenRows g.rows → (∀ t, g.Lists t (g.cellsOf (· == t))) ∧
        ∀ exits c, isExit g exits c = true ↔ c ∈ effectiveExits g exits) := by
  refine ⟨fun t => ⟨Grid.cellsOf_before _ g, Grid.cellsOf_nodup _ g⟩, lists_iff g, exits_agree_iff g,
    fun heven => ⟨fun t => ?_, fun exits => ?_⟩⟩
  · exact (lists_iff g t).2 ⟨not_overhangs_of_even heven t, fun _ => not_fallsShort_of_even heven⟩
  · exact (exits_agree_iff g exits).2 (.inr (not_overhangs_of_even heven .goal))

/-- The second row is longer than the first.  Its goal is listed, as a cell and as an exit, although that
cell is wall and saves nobody. -/
theorem not_lists_overhanging :
    let g : Grid := ⟨[[.empty], [.empty, .goal]]⟩
    g.cellsOf (· == .goal) = [⟨1, 1⟩] ∧ g.tile ⟨1, 1⟩ = .wall ∧
      ¬ g.Lists .goal (g.cellsOf (· == .goal)) ∧
      isExit g [] ⟨1, 1⟩ = false ∧ ⟨1, 1⟩ ∈ effectiveExits g [] := by
  intro g
  have hlisted : g.cellsOf (· == .goal) = [⟨1, 1⟩] := by decide
  refine ⟨hlisted, by decide, fun h => ?_, by decide, by decide⟩
  have hin := ((h.exact ⟨1, 1⟩).1 (hlisted ▸ List.mem_cons_self)).1
  revert hin
  decide

end Simulation

end RobotPuzzle
