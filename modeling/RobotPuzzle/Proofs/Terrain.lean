/-
  What becomes of the board.

  1. **Tiles** — `Tile.Becomes` says what a tile of the first board may be later on: a jetty may carry a
     raft, where a raft was made there may be water, and every other tile stays.
  2. **One turn** — a raft that sails changes the tiles of two of its stops.  Every stop is a jetty of the
     first board or a cell where a raft was made (`Raft.Docks`), and what is left behind is just what was
     there at first (`Raft.Turn.becomes`); so it does not matter which rafts came by before.
  3. **Two readers** — a board answers for the cells that its rows hold, and for every cell of the plane.
     What holds of the stored tiles holds of the others (`Grid.tile_becomes`).
  4. **Runs** — every tick keeps all of this, and the routes too (`reaches_terrain`).

  The crux is that what a raft leaves behind depends on the cell alone: a jetty where there is a jetty on
  the first board, water elsewhere.  So it is what was there at first, or what was below the raft that was
  made there, and no history has to be kept of who came by.  It takes that every stop of every raft is one
  or the other, which is why the routes belong to the invariant.

  The first board stays a reference throughout, since what a dock shows without a raft is what it has
  shown at the beginning, a jetty or water.  `Terrain` is stated with the tiles that are asked for and
  with those that are stored, so that it can be used beside the rows as well.
-/
import RobotPuzzle.Proofs.Finished

namespace RobotPuzzle

/-! ## Tiles

  The relation is between the first tile of a cell and a later one, not between one tick and the next; so
  it is not composed along a run, and what is shown is a plain invariant. -/

/-- What a tile of the first board may be later on. -/
def Tile.Becomes : Tile → Tile → Prop
  | .jetty, t => t = .jetty ∨ t = .raft
  | .raft, t => t = .raft ∨ t = .water
  | first, t => t = first

theorem Tile.Becomes.refl (t : Tile) : t.Becomes t := by
  cases t <;> simp [Becomes]

/-- Where there was water there may be a raft later on, and nothing else: the first tile is water, which
stays, or a raft. -/
theorem Tile.Becomes.of_water {first later : Tile} (h : first.Becomes .water)
    (h' : first.Becomes later) : later = .water ∨ later = .raft := by
  cases first with
  | water => exact Or.inl h'
  | raft => exact h'.symm
  | jetty => rcases h with h | h <;> cases h
  | empty | wall | goal | hazard | plate | door => cases h

/-- A tile that is a plate once is a plate at any time. -/
theorem Tile.Becomes.plate_iff {first now : Tile} (h : first.Becomes now) :
    now = .plate ↔ first = .plate := by
  constructor
  · rintro rfl
    cases first with
    | plate => rfl
    | raft | jetty => rcases h with h | h <;> cases h
    | empty | wall | goal | hazard | door | water => cases h
  · rintro rfl
    exact h

namespace Grid

/-- Cell by cell, the display shows what the tiles of the first board may become. -/
def BecomesShown (first : Grid) (display : Cell → Option Tile) : Prop :=
  ∀ c, Option.Rel Tile.Becomes (storedIn first.rows c) (display c)

theorem becomesShown_self (g : Grid) : g.BecomesShown (storedIn g.rows) := fun c => by
  cases storedIn g.rows c with
  | none => exact .none
  | some t => exact .some (.refl t)

end Grid

/-! ## One turn

  The rows of the board are fixed while the rafts have their turns; what changes is the display. -/

/-- The stops of a raft are jetties of the first board, or cells where rafts were made. -/
def Raft.Docks (first : Grid) (raft : Raft) : Prop :=
  ∀ c ∈ raft.route, c ∈ first.cellsOf (· == .raft) ∨ c ∈ first.cellsOf (· == .jetty)

/-- A route is the cell where the raft was made and then the jetties, in some order. -/
theorem Raft.Routed.docks {first : Grid} {rafts : List Raft}
    (h : Routed (first.cellsOf (· == .raft)) (sortStops (first.cellsOf (· == .jetty))) rafts) :
    ∀ raft ∈ rafts, raft.Docks first := by
  intro raft hraft c hc
  obtain ⟨origin, horigin, heq⟩ := h.exists_origin hraft
  rw [heq] at hc
  rcases List.mem_cons.1 hc with rfl | hc
  · exact Or.inl horigin
  · exact Or.inr ((sortStops_perm _).mem_iff.1 hc)

section Turn

variable {first : Grid} {rows : List (List Tile)} {h h' : Harbour} {raft raft' : Raft}

/-- A raft that goes from stop to stop shows what the tiles there may become.  Where it comes a raft is
shown, and both kinds of stops may carry one; where it leaves, the tile it puts back is the jetty or the
water. -/
theorem becomes_sail (hd : raft.Docks first) {here there : Cell} (hhere : here ∈ raft.route)
    (hthere : there ∈ raft.route) (hb : first.BecomesShown (Grid.display rows h.changes)) :
    first.BecomesShown
      (Grid.display rows (h.sail (first.cellsOf (· == .jetty)) here there).changes) := by
  intro c
  rw [Grid.display_sail]
  split
  · -- a raft comes
    rename_i hc
    rw [← hc]
    rcases hd there hthere with hraft | hjetty
    · rw [Grid.mem_tiles.1 hraft]
      exact .some (Or.inl rfl)
    · rw [Grid.mem_tiles.1 hjetty]
      exact .some (Or.inr rfl)
  · split
    · -- a raft goes
      rename_i hc
      rw [← hc]
      rcases hd here hhere with hraft | hjetty
      · rw [if_neg (Simulation.notMem_jetties hraft), Grid.mem_tiles.1 hraft]
        exact .some (Or.inr rfl)
      · rw [if_pos hjetty, Grid.mem_tiles.1 hjetty]
        exact .some (Or.inl rfl)
    · exact hb c

theorem Raft.Turn.becomes (hs : raft.Sound rows) (hd : raft.Docks first)
    (ht : raft.Turn (first.cellsOf (· == .jetty)) h h' raft')
    (hb : first.BecomesShown (Grid.display rows h.changes)) :
    first.BecomesShown (Grid.display rows h'.changes) ∧ raft'.Docks first := by
  have hs' := (ht.sails hs).1
  cases ht with
  | stay => exact ⟨hb, hd⟩
  | carry _ _ _ _ => exact ⟨becomes_sail hd hs.cell_mem hs'.cell_mem hb, hd⟩
  | home _ _ _ _ _ _ => exact ⟨becomes_sail hd hs.cell_mem hs'.cell_mem hb, hd⟩

end Turn

/-- All turns do, and painting the changes at the end changes the length of no row. -/
theorem ferry_becomes {first grid grid' : Grid} {robots robots' : List Robot}
    {rafts rafts' : List Raft} (hs : ∀ raft ∈ rafts, raft.Sound grid.rows)
    (hd : ∀ raft ∈ rafts, raft.Docks first)
    (hf : ferry grid robots rafts (first.cellsOf (· == .jetty)) = .ok (grid', robots', rafts'))
    (hb : first.BecomesShown (Grid.storedIn grid.rows)) :
    first.BecomesShown (Grid.storedIn grid'.rows) ∧
      grid'.rows.map (·.length) = grid.rows.map (·.length) := by
  obtain ⟨h, hall, hpaint, -⟩ := ferry_cases hf
  obtain ⟨hp, -⟩ := Raft.ferryAll_paintable hs hall
  -- what the board shows with the changes so far, turn by turn
  have hturn : ∀ {h h' : Harbour} {raft raft' : Raft},
      first.BecomesShown (Grid.display grid.rows h.changes) →
      raft.Sound grid.rows ∧ raft.Docks first →
      raft.Turn (first.cellsOf (· == .jetty)) h h' raft' →
      first.BecomesShown (Grid.display grid.rows h'.changes) ∧
        raft'.Sound grid.rows ∧ raft'.Docks first := by
    rintro h h' raft raft' hb ⟨hs, hd⟩ ht
    obtain ⟨hb', hd'⟩ := ht.becomes hs hd hb
    exact ⟨hb', (ht.sails hs).1, hd'⟩
  have hlast := (Raft.ferryAll_invariant hturn hall hb fun raft hr => ⟨hs raft hr, hd raft hr⟩).1
  refine ⟨fun c => ?_, Grid.paint_lengths hpaint⟩
  rw [Grid.storedIn_paint hp.nodup hp.stored hpaint]
  exact hlast c

/-! ## Two readers

  A board answers wall beside its rows, and for a ragged board also where a row is short.  The first and
  the present board have rows of the same lengths, so both answer wall at the same cells. -/

namespace Grid

/-- Two boards with rows of the same lengths have the same width and height. -/
theorem size_of_lengths {g first : Grid}
    (h : g.rows.map (·.length) = first.rows.map (·.length)) :
    g.width = first.width ∧ g.height = first.height := by
  have hwidth : ∀ g : Grid, g.width = ((g.rows.map (·.length)).head?).getD 0 := fun g => by
    rw [List.head?_map]
    rfl
  have hheight : ∀ g : Grid, g.height = (g.rows.map (·.length)).length := fun g => by
    rw [List.length_map]
    rfl
  rw [hwidth, hwidth, hheight, hheight, h]
  exact ⟨rfl, rfl⟩

/-- What holds of the stored tiles holds of what the boards answer. -/
theorem tile_becomes {g first : Grid} (hl : g.rows.map (·.length) = first.rows.map (·.length))
    (hb : first.BecomesShown (storedIn g.rows)) (c : Cell) : (first.tile c).Becomes (g.tile c) := by
  obtain ⟨hwidth, hheight⟩ := size_of_lengths hl
  have hin : g.contains c = first.contains c := by
    unfold contains
    rw [hwidth, hheight]
  rw [tile_eq_stored, tile_eq_stored, hin]
  split
  · have hc := hb c
    generalize storedIn first.rows c = before at hc
    generalize storedIn g.rows c = now at hc
    cases hc with
    | none => exact .refl .empty
    | some hc => exact hc
  · exact .refl .wall

end Grid

namespace Simulation

/-! ## Runs -/

/-- What every state of a run that has begun on a board has. -/
structure Charted (first : Grid) (s : State) : Prop where
  /-- every raft lies at a stop of its route -/
  afloat : Afloat s
  /-- the jetties are those of the first board -/
  jetties : s.jetties = first.cellsOf (· == .jetty)
  /-- the routes go from the first cells over these jetties -/
  routed : Raft.Routed (first.cellsOf (· == .raft)) (sortStops (first.cellsOf (· == .jetty))) s.rafts
  /-- no row grows or shrinks -/
  lengths : s.grid.rows.map (·.length) = first.rows.map (·.length)
  /-- every stored tile has changed only as tiles can -/
  tiles : first.BecomesShown (Grid.storedIn s.grid.rows)

theorem charted_start {grid : Grid} {spawner : Spawner} {exits : List Cell}
    {maxSteps requiredSaved : Int} {s : State}
    (h : start grid spawner exits maxSteps requiredSaved = .ok s) : Charted grid s := by
  have hafloat := (afloat_start h).1
  have hrouted := routed_start h
  obtain ⟨entered, hs⟩ := start_cases h
  rw [hs.state] at hafloat hrouted ⊢
  exact ⟨hafloat, rfl, hrouted, rfl, grid.becomesShown_self⟩

/-- A tick keeps the chart: the rafts go on along their routes, and the ferry step changes docks only. -/
theorem charted_tick {first : Grid} {s t : State} {actions : List (Option Action)}
    (hs : Charted first s) (h : tick s actions = .ok t) : Charted first t := by
  have hafloat := (afloat_tick hs.afloat h).1
  have hjetties := (sameRules_tick h).jetties.trans hs.jetties
  have hrouted := hs.routed.onward (tick_onward hs.afloat h)
  rcases tick_cases h with ⟨-, rfl⟩ | ⟨-, entry, grid, ferried, rafts, -, hferry, rfl⟩
  · exact hs
  · rw [hs.jetties] at hferry
    obtain ⟨htiles, hlengths⟩ := ferry_becomes hs.afloat.sound hs.routed.docks hferry hs.tiles
    exact ⟨hafloat, hjetties, hrouted, hlengths.trans hs.lengths, htiles⟩

/-- The status has no part in it. -/
theorem Charted.given_up {first : Grid} {s : State} (hs : Charted first s) :
    Charted first { s with status := .lost } :=
  ⟨⟨hs.afloat.sound, hs.afloat.tiles⟩, hs.jetties, hs.routed, hs.lengths, hs.tiles⟩

/-- The board of a state, and the routes on it, against the first board.  What is said of the tile of
every cell is said of the stored tiles too, since where rows are short some of them are out of sight. -/
structure Terrain (first : Grid) (s : State) : Prop where
  /-- the board keeps its width -/
  width : s.grid.width = first.width
  /-- the board keeps its height -/
  height : s.grid.height = first.height
  /-- a jetty may be a raft later on, a raft may be water, and everything else stays -/
  tiles : ∀ c, (first.tile c).Becomes (s.grid.tile c)
  /-- the same for the stored tiles -/
  stored : ∀ c, Option.Rel Tile.Becomes (Grid.storedIn first.rows c) (Grid.storedIn s.grid.rows c)
  /-- where a raft is shown one lies -/
  moored : ∀ c, s.grid.tile c = .raft ∨ Grid.storedIn s.grid.rows c = some .raft →
    ∃ raft ∈ s.rafts, raft.cell = c
  /-- every raft calls at its first cell and at all jetties, once each -/
  routes : List.Forall₂
    (fun origin raft => ∃ stops, raft.route = origin :: stops ∧
      stops.Perm (first.cellsOf (· == .jetty)) ∧ raft.route.Nodup)
    (first.cellsOf (· == .raft)) s.rafts

/-- What is to be shown of the board, read off the chart.  A raft tile that the board answers is a stored
one, since beside the rows it answers wall. -/
theorem Charted.terrain {first : Grid} {s : State} (h : Charted first s) : Terrain first s := by
  obtain ⟨hwidth, hheight⟩ := Grid.size_of_lengths h.lengths
  refine ⟨hwidth, hheight, Grid.tile_becomes h.lengths h.tiles, h.tiles, fun c hc => ?_, ?_⟩
  · -- a raft tile is stored, and the fleet has a raft for every stored one
    have hstored : Grid.storedIn s.grid.rows c = some .raft :=
      hc.elim (fun ht => Grid.stored_of_tile ht Tile.noConfusion Tile.noConfusion) id
    obtain ⟨raft, hraft, hcell⟩ := List.mem_map.1 (h.afloat.tiles c (Grid.mem_tiles.2 hstored))
    exact ⟨raft, hraft, hcell⟩
  · have hroutes : List.Forall₂ (· = ·)
        ((first.cellsOf (· == .raft)).map (· :: sortStops (first.cellsOf (· == .jetty))))
        (s.rafts.map Raft.route) := by
      rw [h.routed.routes]
      exact List.forall₂_same.2 fun _ _ => rfl
    rw [List.forall₂_map_left_iff, List.forall₂_map_right_iff] at hroutes
    -- no raft tile is a jetty, so the stops of a route are distinct
    have hnodup : ∀ origin ∈ first.cellsOf (· == .raft),
        (origin :: sortStops (first.cellsOf (· == .jetty))).Nodup := fun origin horigin => by
      obtain ⟨-, hstops, hapart⟩ := List.nodup_append.1 h.routed.nodup
      exact List.nodup_cons.2 ⟨fun hmem => hapart origin horigin origin hmem rfl, hstops⟩
    refine ((List.forall₂_and_left _ _).2 ⟨hnodup, hroutes⟩).imp ?_
    rintro origin raft ⟨hdistinct, hroute⟩
    exact ⟨_, hroute.symm, sortStops_perm _, hroute ▸ hdistinct⟩

/-- **Only ferries change the board, and only at their docks.**  In every state of every run the board has
its size, every tile that is no raft and no jetty, and at the docks one of the two tiles that may be
there; a raft tile is only where a raft lies; and the route of every raft is the cell where it was made
and then all jetties, each once. -/
theorem reaches_terrain {grid : Grid} {spawner : Spawner} {exits : List Cell}
    {maxSteps requiredSaved : Int} {s t : State}
    (h : start grid spawner exits maxSteps requiredSaved = .ok s) (ht : Reaches s t) :
    Terrain grid t := by
  have hcharted : Charted grid t := ht.invariant (P := Charted grid) charted_tick (charted_start h)
  exact hcharted.terrain

/-- Two rafts have met at the jetty between them, and the one that has gone home has taken the only raft
tile along.  What is left in the middle is the jetty of the first board all the same. -/
theorem reaches_terrain_meeting :
    ∃ s t, start ⟨[[.raft, .jetty, .raft]]⟩ { pose := ⟨⟨2, 0⟩, 3⟩ } [] 9 1 = .ok s ∧
      Reaches s t ∧ t.grid.toIds = [[6, 8, 7]] ∧
      t.rafts.map Raft.cell = [⟨1, 0⟩, ⟨2, 0⟩] ∧ Terrain ⟨[[.raft, .jetty, .raft]]⟩ t := by
  obtain ⟨s, u, t, hs, hu, ht, hgrid, hrafts⟩ : ∃ s u t,
      start ⟨[[.raft, .jetty, .raft]]⟩ { pose := ⟨⟨2, 0⟩, 3⟩ } [] 9 1 = .ok s ∧
      tick s [some .wait] = .ok u ∧ tick u [some .moveForward] = .ok t ∧
      t.grid.toIds = [[6, 8, 7]] ∧ t.rafts.map Raft.cell = [⟨1, 0⟩, ⟨2, 0⟩] :=
    ⟨_, _, _, rfl, rfl, rfl, rfl, rfl⟩
  have hreach : Reaches s t := .tick (.tick .here hu) ht
  exact ⟨s, t, hs, hreach, hgrid, hrafts, reaches_terrain hs hreach⟩

end Simulation

end RobotPuzzle
