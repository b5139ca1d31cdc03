/-
  What painting does to a board, cell by cell.

  1. **Stored tiles** — `storedIn rows c` is the tile that the rows hold for a cell.  `tile` answers for
     every cell of the plane and goes by the width of the first row; listing and painting go by the rows
     themselves, and so does `storedIn`.  A cell is listed by `cellsOf` exactly if a wanted tile is
     stored for it (`mem_cellsOf`), and it is listed once (`cellsOf_nodup`).
     Inside the width and the height the two agree, but for the rest of a short row (`tile_eq_stored`).
  2. **Even boards** — where all rows have one length, the stored tile and `tile` are the same
     (`tile_of_even`).
  3. **Changes** — `tileFor` looks up a cell in the changes of a tick; `put` overrides one cell and keeps
     the others (`tileFor_put`).
  4. **Painting** — a board painted with changes stores the changed tile where there is one and the old
     tile elsewhere (`storedIn_paint`).

  The crux is that three functions go through the rows in three ways: one answers for a cell, one lists
  cells, one paints.  All of them are brought to `storedIn`, which is a partial look-up and nothing else;
  on a ragged board it is the only one of them that is right about every cell, so what is painted is told
  in its terms.

  The lemmas here are about boards of any shape.  A level that has been read has an even board, but a
  board can also be made by itself, and `Listing` is about those as well.  Where a lemma needs an even
  board or a cell that is stored it says so, and `stored_isSome_of_even` is the bridge between the two.
-/
import Mathlib.Data.List.Nodup
import RobotPuzzle.Grid

namespace RobotPuzzle

namespace Grid

/-! ## Stored tiles

  Listing goes through the rows from the top and through a row from the left, with the place counted
  along; so its lemmas start at any row and at any place in it. -/

/-- The tile that the rows hold for a cell. -/
def storedIn (rows : List (List Tile)) (c : Cell) : Option Tile :=
  if 0 ≤ c.x ∧ 0 ≤ c.y then rows[c.y.toNat]?.bind fun row => row[c.x.toNat]? else none

/-- What a row lists, if its first tile lies at `x`: the places of the wanted tiles, counted from there.
-/
theorem mem_cellsOfRow {wanted : Tile → Bool} {y : Int} {c : Cell} :
    ∀ {row : List Tile} {x : Int}, c ∈ cellsOfRow wanted y x row ↔
      c.y = y ∧ ∃ i : Nat, c.x = x + i ∧ ∃ t, row[i]? = some t ∧ wanted t = true := by
  intro row
  induction row with
  | nil => intro x; simp [cellsOfRow]
  | cons t rest ih =>
    intro x
    -- the first tile is listed at `x` just if it is wanted, and the others start one further on
    have hhere : c ∈ (if wanted t then [(⟨x, y⟩ : Cell)] else []) ↔
        c.y = y ∧ c.x = x ∧ wanted t = true := by
      cases wanted t with
      | true => cases c; simp [and_comm]
      | false => simp
    have hsplit : cellsOfRow wanted y x (t :: rest)
        = (if wanted t then [(⟨x, y⟩ : Cell)] else []) ++ cellsOfRow wanted y (x + 1) rest := by
      rw [cellsOfRow]
      split <;> rfl
    rw [hsplit, List.mem_append, hhere, ih]
    constructor
    · rintro (⟨hy, hx, ht⟩ | ⟨hy, i, hx, u, hu, hw⟩)
      · exact ⟨hy, 0, by omega, t, rfl, ht⟩
      · exact ⟨hy, i + 1, by omega, u, hu, hw⟩
    · rintro ⟨hy, i, hx, u, hu, hw⟩
      -- the place behind the first one is place zero of what follows it
      cases i with
      | zero =>
        obtain rfl : t = u := by simpa using hu
        exact Or.inl ⟨hy, by omega, hw⟩
      | succ i => exact Or.inr ⟨hy, i, by omega, u, hu, hw⟩

/-- What the rows list, if the first of them is row `y`. -/
theorem mem_cellsOfRows {wanted : Tile → Bool} {c : Cell} :
    ∀ {rows : List (List Tile)} {y : Int}, c ∈ cellsOfRows wanted y rows ↔
      ∃ j : Nat, c.y = y + j ∧ ∃ row, rows[j]? = some row ∧
        ∃ i : Nat, c.x = i ∧ ∃ t, row[i]? = some t ∧ wanted t = true := by
  intro rows
  induction rows with
  | nil => intro y; simp [cellsOfRows]
  | cons row rest ih =>
    intro y
    rw [cellsOfRows, List.mem_append, mem_cellsOfRow, ih]
    constructor
    · rintro (⟨hy, i, hx, t, ht, hw⟩ | ⟨j, hy, other, hother, hin⟩)
      · exact ⟨0, by omega, row, rfl, i, by omega, t, ht, hw⟩
      · exact ⟨j + 1, by omega, other, hother, hin⟩
    · rintro ⟨j, hy, other, hother, i, hx, t, ht, hw⟩
      -- row by row in the same way as tile by tile in a row
      cases j with
      | zero =>
        obtain rfl : row = other := by simpa using hother
        exact Or.inl ⟨by omega, i, by omega, t, ht, hw⟩
      | succ j => exact Or.inr ⟨j, by omega, other, hother, i, hx, t, ht, hw⟩

/-- A cell is listed exactly if a wanted tile is stored for it. -/
theorem mem_cellsOf {wanted : Tile → Bool} {g : Grid} {c : Cell} :
    c ∈ g.cellsOf wanted ↔ ∃ t, storedIn g.rows c = some t ∧ wanted t = true := by
  rw [cellsOf, mem_cellsOfRows]
  constructor
  · rintro ⟨j, hy, row, hrow, i, hx, t, ht, hw⟩
    refine ⟨t, ?_, hw⟩
    have hj : c.y.toNat = j := by omega
    have hi : c.x.toNat = i := by omega
    rw [storedIn, if_pos (by omega), hj, hrow, Option.bind_some, hi, ht]
  · rintro ⟨t, ht, hw⟩
    rw [storedIn] at ht
    split at ht
    · rename_i hpos
      obtain ⟨row, hrow, ht⟩ := Option.bind_eq_some_iff.1 ht
      exact ⟨c.y.toNat, by omega, row, hrow, c.x.toNat, by omega, t, ht, hw⟩
    · cases ht

/-- The cells of one kind of tile are those for which it is stored. -/
theorem mem_tiles {g : Grid} {c : Cell} {t : Tile} :
    c ∈ g.cellsOf (· == t) ↔ storedIn g.rows c = some t := by
  rw [mem_cellsOf]
  constructor
  · rintro ⟨u, hu, hw⟩
    rw [hu, beq_iff_eq.1 hw]
  · intro h
    exact ⟨t, h, beq_self_eq_true t⟩

/-- A row lists no cell twice, since the place goes up. -/
theorem cellsOfRow_nodup (wanted : Tile → Bool) (y : Int) :
    ∀ (row : List Tile) (x : Int), (cellsOfRow wanted y x row).Nodup := by
  intro row
  induction row with
  | nil => intro x; exact List.nodup_nil
  | cons t rest ih =>
    intro x
    rw [cellsOfRow]
    split
    · refine List.nodup_cons.2 ⟨fun hmem => ?_, ih (x + 1)⟩
      obtain ⟨-, i, hx, -⟩ := mem_cellsOfRow.1 hmem
      dsimp only at hx
      omega
    · exact ih (x + 1)

/-- No cell is listed twice: those of one row differ in their place, those of two rows in the row. -/
theorem cellsOf_nodup (wanted : Tile → Bool) (g : Grid) : (g.cellsOf wanted).Nodup := by
  have key : ∀ (rows : List (List Tile)) (y : Int), (cellsOfRows wanted y rows).Nodup := by
    intro rows
    induction rows with
    | nil => intro y; exact List.nodup_nil
    | cons row rest ih =>
      intro y
      rw [cellsOfRows, List.nodup_append]
      refine ⟨cellsOfRow_nodup wanted y row 0, ih (y + 1), ?_⟩
      rintro c hc d hd rfl
      obtain ⟨hy, -⟩ := mem_cellsOfRow.1 hc
      obtain ⟨j, hy', -⟩ := mem_cellsOfRows.1 hd
      omega
  exact key g.rows 0

/-- A cell is inside if its row and its place are, as natural numbers, below the height and the width. -/
theorem contains_iff {g : Grid} {c : Cell} : g.contains c = true ↔
    (0 ≤ c.x ∧ 0 ≤ c.y) ∧ c.x.toNat < g.width ∧ c.y.toNat < g.rows.length := by
  have hheight : g.height = g.rows.length := rfl
  simp only [contains, Bool.and_eq_true, decide_eq_true_eq]
  omega

/-- Inside the width and the height the tile of a cell is the stored one; behind the end of a short row
nothing is stored, and the cell is empty. -/
theorem tile_eq_stored (g : Grid) (c : Cell) :
    g.tile c = if g.contains c then (storedIn g.rows c).getD .empty else .wall := by
  unfold tile
  split
  · rename_i hc
    obtain ⟨hpos, -, hy⟩ := contains_iff.1 hc
    rw [storedIn, if_pos hpos, List.getElem?_eq_getElem hy]
    rfl
  · rfl

/-- A tile that does not stand for a missing one is stored. -/
theorem stored_of_tile {g : Grid} {c : Cell} {t : Tile} (h : g.tile c = t) (hempty : t ≠ .empty)
    (hwall : t ≠ .wall) : storedIn g.rows c = some t := by
  rw [tile_eq_stored] at h
  split at h
  · cases hs : storedIn g.rows c with
    | none =>
      rw [hs] at h
      exact absurd h.symm hempty
    | some u =>
      rw [hs] at h
      exact congrArg some h
  · exact absurd h.symm hwall

/-! ## Even boards

  A level that has been read has an even board; a board that is made otherwise need not have one.
  Painting leaves the lengths of the rows, so an even board stays even. -/

/-- All rows are as long as the first. -/
def EvenRows {α : Type} (rows : List (List α)) : Prop :=
  ∀ n ∈ rows.map (·.length), n = ((rows.map (·.length)).head?).getD 0

theorem EvenRows.of_lengths {α β : Type} {rows : List (List α)} {others : List (List β)}
    (h : EvenRows rows) (hl : others.map (·.length) = rows.map (·.length)) : EvenRows others := by
  unfold EvenRows
  rw [hl]
  exact h

/-- On an even board the cells with a stored tile are those inside the width and the height.  Every row is
as long as the first, so no row ends before the width, and none goes on behind it. -/
theorem stored_isSome_of_even {g : Grid} (h : EvenRows g.rows) (c : Cell) :
    (storedIn g.rows c).isSome = g.contains c := by
  -- the width is the length of the first row
  have hwidth : ((g.rows.map (·.length)).head?).getD 0 = g.width := by
    rw [List.head?_map]
    rfl
  have hrow : ∀ row ∈ g.rows, row.length = g.width := fun row hr => by
    rw [← hwidth]
    exact h row.length (List.mem_map_of_mem hr)
  cases hc : g.contains c with
  | true =>
    obtain ⟨hpos, hx, hy⟩ := contains_iff.1 hc
    have hlen := hrow _ (List.getElem_mem hy)
    rw [storedIn, if_pos hpos, List.getElem?_eq_getElem hy, Option.bind_some,
      List.getElem?_eq_getElem (hlen ▸ hx)]
    rfl
  | false =>
    cases ht : storedIn g.rows c with
    | none => rfl
    | some t =>
      rw [storedIn] at ht
      split at ht
      · -- a tile outside would lie in a row that is longer than the first
        rename_i hpos
        obtain ⟨row, hmem, ht⟩ := Option.bind_eq_some_iff.1 ht
        have hlen := hrow row (List.mem_of_getElem? hmem)
        obtain ⟨hy, -⟩ := List.getElem?_eq_some_iff.1 hmem
        obtain ⟨hx, -⟩ := List.getElem?_eq_some_iff.1 ht
        rw [contains_iff.2 ⟨hpos, hlen ▸ hx, hy⟩] at hc
        cases hc
      · cases ht

/-- On an even board the tile of a cell is the stored one, and wall where none is stored. -/
theorem tile_of_even {g : Grid} (h : EvenRows g.rows) (c : Cell) :
    g.tile c = (storedIn g.rows c).getD .wall := by
  rw [tile_eq_stored, ← stored_isSome_of_even h]
  cases storedIn g.rows c with
  | none => rfl
  | some t => rfl

/-! ## Changes

  A list of changes may be long, since rafts may come and go at one cell; but it has an entry for each
  cell at most, as putting a change at a cell replaces the one that is there.  That is why painting may
  take them in any order. -/

/-- The tile that the changes have for a cell. -/
def Changes.tileFor (c : Cell) : Changes → Option Tile
  | [] => none
  | (d, t) :: rest => if d = c then some t else Changes.tileFor c rest

/-- A change that is put counts at its cell, and only there. -/
theorem Changes.tileFor_put (c d : Cell) (t : Tile) (changes : Changes) :
    Changes.tileFor d (changes.put c t) = if c = d then some t else changes.tileFor d := by
  induction changes with
  | nil => rfl
  | cons p rest ih =>
    obtain ⟨e, u⟩ := p
    rw [Changes.put]
    split
    · -- an earlier change of the same cell is replaced
      rename_i he
      subst he
      simp only [Changes.tileFor]
      split <;> rfl
    · rename_i he
      -- another cell's change is passed by
      simp only [Changes.tileFor, ih]
      by_cases hd : e = d
      · subst hd
        rw [if_pos rfl, if_pos rfl, if_neg (Ne.symm he)]
      · rw [if_neg hd, if_neg hd]

/-- There is a tile for the cells that come up in the changes, and for no others. -/
theorem Changes.tileFor_isSome {c : Cell} {changes : Changes} :
    (changes.tileFor c).isSome = true ↔ c ∈ changes.map Prod.fst := by
  induction changes with
  | nil => simp [Changes.tileFor]
  | cons p rest ih =>
    obtain ⟨e, u⟩ := p
    rw [Changes.tileFor, List.map_cons, List.mem_cons]
    split
    · rename_i he
      simp [he]
    · rename_i he
      rw [ih]
      simp [Ne.symm he]

/-- Putting a change adds its cell. -/
theorem Changes.mem_keys_put {c d : Cell} {t : Tile} {changes : Changes} :
    d ∈ (changes.put c t).map Prod.fst ↔ d = c ∨ d ∈ changes.map Prod.fst := by
  rw [← tileFor_isSome, ← tileFor_isSome, tileFor_put]
  split
  · rename_i h
    simp [h]
  · rename_i h
    simp [Ne.symm h]

/-- No cell comes up twice in the changes, however often it has been changed. -/
theorem Changes.keys_put_nodup {c : Cell} {t : Tile} {changes : Changes}
    (h : (changes.map Prod.fst).Nodup) : ((changes.put c t).map Prod.fst).Nodup := by
  induction changes with
  | nil => exact List.nodup_singleton c
  | cons p rest ih =>
    obtain ⟨e, u⟩ := p
    obtain ⟨hnot, hrest⟩ := List.nodup_cons.1 h
    rw [Changes.put]
    split
    · exact h
    · rename_i he
      refine List.nodup_cons.2 ⟨fun hmem => ?_, ih hrest⟩
      rcases mem_keys_put.1 hmem with hc | hmem
      · exact he hc
      · exact hnot hmem

/-! ## Painting

  Painting counts a negative place from the end of a row or of the board.  For cells that are stored this
  does not arise, since `storedIn` asks for places that are not negative. -/

theorem placeOf?_of_nonneg {length : Nat} {index : Int} (h0 : 0 ≤ index) (h : index.toNat < length) :
    placeOf? length index = some index.toNat := by
  rw [placeOf?, if_pos h0, if_pos (by omega)]

/-- Two cells of the board with the same row and the same place in it are one cell. -/
theorem eq_of_toNat {c d : Cell} (hc : 0 ≤ c.x ∧ 0 ≤ c.y) (hd : 0 ≤ d.x ∧ 0 ≤ d.y)
    (hx : c.x.toNat = d.x.toNat) (hy : c.y.toNat = d.y.toNat) : c = d := by
  cases c
  cases d
  simp only [Cell.mk.injEq]
  dsimp only at *
  omega

/-- Painting a stored cell changes the tile of that cell and of no other.  Of the other cells, those in
other rows are in rows that stay, and those in the same row are at other places. -/
theorem storedIn_paintCell {rows painted : List (List Tile)} {c : Cell} {t : Tile}
    (hc : (storedIn rows c).isSome = true) (h : paintCell rows c t = .ok painted) (d : Cell) :
    storedIn painted d = if c = d then some t else storedIn rows d := by
  rw [storedIn] at hc
  split at hc
  · rename_i hpos
    obtain ⟨u, hu⟩ := Option.isSome_iff_exists.1 hc
    obtain ⟨row, hrow, hu⟩ := Option.bind_eq_some_iff.1 hu
    obtain ⟨hy, hrow⟩ := List.getElem?_eq_some_iff.1 hrow
    obtain ⟨hx, -⟩ := List.getElem?_eq_some_iff.1 hu
    rw [paintCell, placeOf?_of_nonneg hpos.2 hy] at h
    simp only [List.getElem?_eq_getElem hy, Option.getD_some, hrow,
      placeOf?_of_nonneg hpos.1 hx, Except.ok.injEq] at h
    subst h
    unfold storedIn
    by_cases hd : 0 ≤ d.x ∧ 0 ≤ d.y
    · rw [if_pos hd, if_pos hd, List.getElem?_set]
      by_cases hrows : c.y.toNat = d.y.toNat
      · -- the row that is changed: the changed place, or another one
        rw [if_pos hrows, if_pos hy, Option.bind_some, List.getElem?_set]
        by_cases hcols : c.x.toNat = d.x.toNat
        · rw [if_pos hcols, if_pos hx, if_pos (eq_of_toNat hpos hd hcols hrows)]
        · rw [if_neg hcols, if_neg (fun he => hcols (by rw [he])), ← hrows,
            List.getElem?_eq_getElem hy, Option.bind_some, hrow]
      · -- another row
        rw [if_neg hrows, if_neg (fun he => hrows (by rw [he]))]
    · have hne : c ≠ d := by
        rintro rfl
        exact hd hpos
      rw [if_neg hd, if_neg hd, if_neg hne]
  · cases hc

/-- **Painting, cell by cell**: the changed tile where there is one, the old tile elsewhere.  By induction
on the changes: the first one is painted on the board, and the others on what comes of it; since no cell
comes up twice, the first change is not painted over. -/
theorem storedIn_paint {g painted : Grid} {changes : Changes}
    (hkeys : (changes.map Prod.fst).Nodup)
    (hstored : ∀ c ∈ changes.map Prod.fst, (storedIn g.rows c).isSome = true)
    (h : g.paint changes = .ok painted) (d : Cell) :
    storedIn painted.rows d = (changes.tileFor d).or (storedIn g.rows d) := by
  -- over any rows, since the induction paints the first change before it looks at the others
  have key : ∀ (changes : Changes) (rows out : List (List Tile)), (changes.map Prod.fst).Nodup →
      (∀ c ∈ changes.map Prod.fst, (storedIn rows c).isSome = true) →
      paintRows rows changes = .ok out →
      storedIn out d = (changes.tileFor d).or (storedIn rows d) := by
    intro changes
    induction changes with
    | nil =>
      intro rows out _ _ h
      cases h
      rfl
    | cons p rest ih =>
      obtain ⟨c, t⟩ := p
      intro rows out hkeys hstored h
      obtain ⟨hnot, hrest⟩ := List.nodup_cons.1 hkeys
      rw [paintRows] at h
      split at h
      · rename_i mid hmid
        have hone := storedIn_paintCell (hstored c List.mem_cons_self) hmid
        -- painting a cell leaves the shape of the board, so the other cells still have a tile
        have hstored' : ∀ e ∈ rest.map Prod.fst, (storedIn mid e).isSome = true := by
          intro e he
          rw [hone]
          split
          · rfl
          · exact hstored e (List.mem_cons_of_mem _ he)
        rw [ih mid out hrest hstored' h, hone, Changes.tileFor]
        split
        · rename_i hcd
          -- each cell is changed once, so nothing paints over the first change
          have hnone : Changes.tileFor d rest = none := by
            rw [← Option.not_isSome_iff_eq_none, Changes.tileFor_isSome, ← hcd]
            exact hnot
          rw [hnone]
          rfl
        · rfl
      · cases h
  unfold paint at h
  cases hp : paintRows g.rows changes with
  | error fault =>
    rw [hp] at h
    cases h
  | ok rows =>
    rw [hp] at h
    cases h
    exact key changes g.rows rows hkeys hstored hp

end Grid

end RobotPuzzle
