/-
  What is known of a level that has been read.

  1. **The parts** (`ofJson_cases`) — the board, the entry, the exits and the quota come from the readers
     of these parts.
  2. **The board** (`evenRows_ofJson`) — all its rows have one length, and the tiles of a started level stand
     where their numbers stood (`start_cases`).
  3. **The headings** (`headed_ofJson`) — every heading is one of the four, so robots can enter.

  The crux is that a reader which goes through a list either keeps its length or fails.  So what the check
  on the rows says of the numbers as they are written is true of the tiles that they stand for.

  These facts are the only ones about levels that the theory of runs uses: headings are directions, rows
  have one length, and a level that starts has a board of tiles.  What the reader accepts otherwise is the
  matter of `Format`.
-/
import RobotPuzzle.Level.Reader
import RobotPuzzle.Proofs.Verdict

namespace RobotPuzzle

/-! ## Reading item by item

  These are about `mapM` in general, and all readers of lists below are made with it. -/

/-- Steps over a list that go through keep its length; each item comes from the one in its place. -/
theorem forall₂_of_mapM {ε α β : Type} {f : α → Except ε β} :
    ∀ {xs : List α} {ys : List β}, xs.mapM f = .ok ys →
      List.Forall₂ (fun x y => f x = .ok y) xs ys := by
  intro xs
  induction xs with
  | nil =>
    intro ys h
    cases h
    exact .nil
  | cons x rest ih =>
    intro ys h
    rw [List.mapM_cons] at h
    obtain ⟨y, hy, h⟩ := bind_eq_ok h
    obtain ⟨others, hothers, h⟩ := bind_eq_ok h
    cases h
    exact .cons hy (ih hothers)

/-- Reading cell by cell keeps the length of every row. -/
theorem lengths_of_mapM {ε α β : Type} {f : α → Except ε β} {rows : List (List α)}
    {others : List (List β)} (h : rows.mapM (fun row => row.mapM f) = .ok others) :
    others.map (·.length) = rows.map (·.length) := by
  have hrows := forall₂_of_mapM h
  clear h
  induction hrows with
  | nil => rfl
  | cons hrow _ ih =>
    rw [List.map_cons, List.map_cons, ih, (forall₂_of_mapM hrow).length_eq]

namespace Grid

/-- A row of tiles is as long as the row that it was read from. -/
theorem readRow_length {α : Type} {decode : α → Option Tile} :
    ∀ {row : List α} {tiles : List Tile}, read.readRow decode row = .ok tiles →
      tiles.length = row.length := by
  intro row
  induction row with
  | nil =>
    intro tiles h
    cases h
    rfl
  | cons a rest ih =>
    intro tiles h
    rw [read.readRow] at h
    split at h
    · cases h
    · obtain ⟨others, hothers, h⟩ := bind_eq_ok h
      cases h
      rw [List.length_cons, List.length_cons, ih hothers]

/-- So are all rows of a board. -/
theorem read_lengths {α : Type} {decode : α → Option Tile} :
    ∀ {rows : List (List α)} {tiles : List (List Tile)}, read decode rows = .ok tiles →
      tiles.map (·.length) = rows.map (·.length) := by
  intro rows
  induction rows with
  | nil =>
    intro tiles h
    cases h
    rfl
  | cons row rest ih =>
    intro tiles h
    obtain ⟨first, hfirst, h⟩ := bind_eq_ok h
    obtain ⟨others, hothers, h⟩ := bind_eq_ok h
    cases h
    rw [List.map_cons, List.map_cons, ih hothers, readRow_length hfirst]

/-- The same, of boards made of numbers. -/
theorem ofIds_lengths {ids : List (List Int)} {g : Grid} (h : ofIds ids = .ok g) :
    g.rows.map (·.length) = ids.map (·.length) := by
  unfold ofIds at h
  cases hr : read Tile.ofId? ids with
  | error id =>
    rw [hr] at h
    cases h
  | ok rows =>
    rw [hr] at h
    cases h
    exact read_lengths hr

end Grid

namespace Level

/-! ## The parts of a level

  Each part is read on its own, and the level is what the readers return; a fault in any of them is one of
  the level. -/

/-- What has been read of a level, part by part. -/
theorem ofJson_cases {v : Json} {level : Level} (h : Level.ofJson v = .ok level) :
    ∃ rows, readRows (v.getD "grid") = .ok rows ∧
      (rows.mapM fun row => row.mapM readNumber) = .ok level.grid ∧
      readEntry v = .ok level.spawner ∧ readExits v = .ok level.exits ∧
      readNumber ((v.get? "requiredSaved").getD (.int 1)) = .ok level.requiredSaved := by
  unfold Level.ofJson at h
  split at h
  · obtain ⟨rows, hrows, h⟩ := bind_eq_ok h
    obtain ⟨spawner, hspawner, h⟩ := bind_eq_ok h
    obtain ⟨exits, hexits, h⟩ := bind_eq_ok h
    obtain ⟨grid, hgrid, h⟩ := bind_eq_ok h
    obtain ⟨requiredSaved, hrequired, h⟩ := bind_eq_ok h
    -- with or without a tick limit
    split at h
    · cases h
      exact ⟨rows, hrows, hgrid, hspawner, hexits, hrequired⟩
    · obtain ⟨maxTicks, -, h⟩ := bind_eq_ok h
      cases h
      exact ⟨rows, hrows, hgrid, hspawner, hexits, hrequired⟩
  · cases h

/-! ## The board

  Rows are compared with the first one, before their cells are looked at. -/

theorem evenRows_iff {rows : List (List Json)} :
    (rows.all fun row => row.length == (rows.head?.map (·.length)).getD 0) = true ↔
      Grid.EvenRows rows := by
  rw [Grid.EvenRows, List.head?_map, List.forall_mem_map, List.all_eq_true]
  simp only [beq_iff_eq]

/-- The rows of a level have passed that check. -/
theorem evenRows_readRows {v : Json} {rows : List (List Json)} (h : readRows v = .ok rows) :
    Grid.EvenRows rows := by
  unfold readRows at h
  split at h
  · cases h
  · obtain ⟨items, -, h⟩ := bind_eq_ok h
    obtain ⟨read, -, h⟩ := bind_eq_ok h
    split at h
    · rename_i heven
      cases h
      exact evenRows_iff.1 heven
    · cases h

/-- A level that has been read has an even board. -/
theorem evenRows_ofJson {v : Json} {level : Level} (h : Level.ofJson v = .ok level) :
    Grid.EvenRows level.grid := by
  obtain ⟨rows, hrows, hgrid, -⟩ := ofJson_cases h
  exact (evenRows_readRows hrows).of_lengths (lengths_of_mapM hgrid)

/-- A level that starts has tiles for all its numbers, and the run starts on these tiles. -/
theorem start_cases {level : Level} {maxTicks : Int} {s : Simulation.State}
    (h : level.start maxTicks = .ok s) :
    ∃ grid, Grid.ofIds level.grid = .ok grid ∧
      Simulation.start grid level.spawner level.exits (level.maxTicks.getD maxTicks)
        level.requiredSaved = .ok s := by
  unfold Level.start at h
  split at h
  · cases h
  · rename_i grid hgrid
    split at h
    · rename_i t ht
      cases h
      exact ⟨grid, hgrid, ht⟩
    · cases h

/-! ## The headings

  A heading is checked where a pose is read, so every pose of a level has one: the starts, and the entry
  pose of older levels. -/

/-- One of the four headings. -/
theorem readPose_heading {v : Json} {pose : Pose} (h : readPose v = .ok pose) :
    (Direction.ofNumber? pose.heading).isSome = true := by
  obtain ⟨cell, -, h⟩ := bind_eq_ok h
  obtain ⟨heading, hheading, h⟩ := bind_eq_ok h
  cases h
  obtain ⟨d, -, hd⟩ := bind_eq_ok hheading
  cases hd
  show (Direction.ofNumber? d.number).isSome = true
  rw [Direction.ofNumber?_number]
  rfl

/-- So it is of all starts. -/
theorem readStarts_headings {v : Json} {starts : List Pose} (h : readStarts v = .ok starts) :
    ∀ pose ∈ starts, (Direction.ofNumber? pose.heading).isSome = true := by
  -- each start is read by itself, so the property goes item by item
  have hread : ∀ {items : List Json} {poses : List Pose},
      List.Forall₂ (fun x y => readPose x = .ok y) items poses →
        ∀ pose ∈ poses, (Direction.ofNumber? pose.heading).isSome = true := by
    intro items poses hposes
    induction hposes with
    | nil =>
      intro pose hpose
      cases hpose
    | cons hfirst _ ih => exact List.forall_mem_cons.2 ⟨readPose_heading hfirst, ih⟩
  unfold readStarts at h
  dsimp only at h
  split at h
  · cases h
    intro pose hpose
    cases hpose
  · obtain ⟨items, -, h⟩ := bind_eq_ok h
    exact hread (forall₂_of_mapM h)

/-- So it is of the entry, in either form. -/
theorem readEntry_headed {v : Json} {spawner : Spawner} (h : readEntry v = .ok spawner) :
    Simulation.Headed spawner := by
  unfold readEntry at h
  split at h
  · cases h
  · -- an older level, with a single start
    obtain ⟨pose, hpose, h⟩ := bind_eq_ok h
    cases h
    exact List.forall_mem_cons.2 ⟨readPose_heading hpose, fun _ hp => (nomatch hp)⟩
  · unfold readSpawner at h
    split at h
    · obtain ⟨starts, hstarts, h⟩ := bind_eq_ok h
      obtain ⟨pose, hpose, h⟩ := bind_eq_ok h
      obtain ⟨count, -, h⟩ := bind_eq_ok h
      obtain ⟨interval, -, h⟩ := bind_eq_ok h
      cases h
      exact List.forall_mem_cons.2 ⟨readPose_heading hpose, readStarts_headings hstarts⟩
    · cases h

/-- A level that has been read lets robots enter. -/
theorem headed_ofJson {v : Json} {level : Level} (h : Level.ofJson v = .ok level) :
    Simulation.Headed level.spawner := by
  obtain ⟨rows, -, -, hentry, -⟩ := ofJson_cases h
  exact readEntry_headed hentry

end Level

end RobotPuzzle
