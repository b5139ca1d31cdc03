/-
  A level that has been read is played without a fault.

  1. **The board** — reading tile numbers stops at the first one that is no tile, and nothing else stops it
     (`Grid.ofIds_eq`).  So a level with such a number is refused, and any other one starts.
  2. **Within the lists** — a tick asks for tiles of the board, for stops of a route, for a pose of the spawner
     and for the tick of the next entry.  `Within` says of a state that all of these are there, at a place
     counted from the front: an index below zero would not fail but mean another place.
  3. **Changes** — the tiles that a ferry step changes are cells of the board (`contains_of_changed`).
  4. **Runs** — every state of every run is within its lists, and so every tick goes through
     (`runs_faultless`).

  The crux is that a tick can fail in three places only: where a robot enters with a heading that is none,
  where a raft looks up its next stop, and where a cell is painted.  The readers of levels exclude the
  first, and the invariant of rafts excludes the others.  That nothing else is looked up out of range has
  to be said in `Within`, since it would not fail.

  A run can fail in many places: a board that is not there, a route that is too short, a heading that is
  none.  None of these is excluded by a type.  So that nothing fails is a theorem about levels that have
  been read, and the one thing that can still be wrong with such a level, a number that is no tile, is
  told with the fault that it leads to.
-/
import RobotPuzzle.Proofs.Footing
import RobotPuzzle.Proofs.Terrain

namespace RobotPuzzle

/-! ## The board

  Reading goes row by row and cell by cell, and ends at the first cell that cannot be read. -/

namespace Grid

section Read

variable {α : Type} (decode : α → Option Tile)

/-- A row is read up to its first cell that is no tile. -/
theorem readRow_eq (row : List α) :
    read.readRow decode row =
      match row.find? fun a => (decode a).isNone with
      | some a => .error a
      | none => .ok (row.filterMap decode) := by
  induction row with
  | nil => rfl
  | cons a rest ih =>
    rw [read.readRow, List.find?_cons, List.filterMap_cons]
    cases decode a with
    | none => rfl
    | some t =>
      show (read.readRow decode rest >>= fun others => pure (t :: others)) = _
      rw [ih]
      cases rest.find? fun a => (decode a).isNone with
      | none => rfl
      | some b => rfl

/-- Rows are read up to the first cell that is no tile. -/
theorem read_eq (rows : List (List α)) :
    read decode rows =
      match rows.flatten.find? fun a => (decode a).isNone with
      | some a => .error a
      | none => .ok (rows.map (·.filterMap decode)) := by
  induction rows with
  | nil => rfl
  | cons row rest ih =>
    rw [read, readRow_eq, List.flatten_cons, List.find?_append]
    cases row.find? fun a => (decode a).isNone with
    | some a => rfl
    | none =>
      show (read decode rest >>= fun others => pure (row.filterMap decode :: others)) = _
      rw [ih, Option.none_or]
      cases rest.flatten.find? fun a => (decode a).isNone with
      | none => rfl
      | some b => rfl

end Read

theorem ofId?_isNone (n : Int) : (Tile.ofId? n).isNone = !(0 ≤ n && n ≤ 8) := by
  rw [Bool.eq_iff_iff, Option.isNone_iff_eq_none, Tile.ofId?, List.find?_eq_none]
  simp [Tile.id]
  omega

/-- A board of numbers is one of tiles, unless some number is none; the first such number is reported. -/
theorem ofIds_eq (ids : List (List Int)) :
    ofIds ids =
      match ids.flatten.find? fun n => !(0 ≤ n && n ≤ 8) with
      | some id => .error id
      | none => .ok ⟨ids.map (·.filterMap Tile.ofId?)⟩ := by
  have htiles : (fun n => (Tile.ofId? n).isNone) = fun n : Int => !(0 ≤ n && n ≤ 8) :=
    funext ofId?_isNone
  rw [ofIds, read_eq, htiles]
  cases ids.flatten.find? fun n : Int => !(0 ≤ n && n ≤ 8) with
  | none => rfl
  | some id => rfl

end Grid

namespace Simulation

/-! ## Within the lists

  A place in a list may be counted from its end, if it is below zero; a dock of -1 would be the last stop.
  So the bounds from below matter as much as those from above. -/

/-- What a tick asks for in a state is there. -/
structure Within (s : State) : Prop where
  /-- a cell inside the width and the height has a tile -/
  tiles : ∀ c, s.grid.contains c = true → (Grid.storedIn s.grid.rows c).isSome = true
  /-- a raft lies at the stop of its dock -/
  docks : ∀ raft ∈ s.rafts, 0 ≤ raft.dock ∧ raft.dock < raft.route.length ∧
    raft.route[raft.dock.toNat]? = some raft.cell
  /-- the stop that it remembers is one of its route -/
  backs : ∀ raft ∈ s.rafts, ∀ back, raft.back = some back → 0 ≤ back ∧ back < raft.route.length
  /-- so is the next one -/
  nexts : ∀ raft ∈ s.rafts, 0 ≤ (raft.dock + 1) % raft.route.length ∧
    (raft.dock + 1) % raft.route.length < raft.route.length
  /-- all stops are cells of the board -/
  stops : ∀ raft ∈ s.rafts, ∀ c ∈ raft.route, s.grid.contains c = true
  /-- the pose that is asked for is that of the robot behind the last one -/
  poses : s.spawnedCount = s.robots.length
  /-- where robots enter one after the other, there is a tick for the next one -/
  schedule : 0 < s.spawner.count → 0 < s.spawner.interval → s.nextSpawnTick.isSome = true

/-- A raft that is sound finds its stops. -/
theorem within_raft {g : Grid} {raft : Raft} (heven : Grid.EvenRows g.rows)
    (hs : raft.Sound g.rows) :
    (0 ≤ raft.dock ∧ raft.dock < raft.route.length ∧
      raft.route[raft.dock.toNat]? = some raft.cell) ∧
    (∀ back, raft.back = some back → 0 ≤ back ∧ back < raft.route.length) ∧
    (0 ≤ (raft.dock + 1) % raft.route.length ∧
      (raft.dock + 1) % raft.route.length < raft.route.length) ∧
    ∀ c ∈ raft.route, g.contains c = true := by
  obtain ⟨i, hi, hcell⟩ := hs.moored
  have hlt := (List.getElem?_eq_some_iff.1 hcell).1
  refine ⟨⟨by omega, by omega, ?_⟩, fun back hback => ?_, ⟨?_, ?_⟩, fun c hc => ?_⟩
  · rw [hi, Int.toNat_natCast]
    exact hcell
  · obtain ⟨j, rfl, hj⟩ := hs.back back hback
    omega
  · exact Int.emod_nonneg _ (by omega)
  · exact Int.emod_lt_of_pos _ (by omega)
  · rw [← Grid.stored_isSome_of_even heven]
    exact hs.stored c hc

/-! ## Changes

  The cells that change are stops of rafts, and those lie on the board. -/

/-- Whatever the robots do, the ferry step changes cells of the board only. -/
theorem contains_of_changed {s : State} (heven : Grid.EvenRows s.grid.rows) (hs : Afloat s)
    {robots : List Robot} {h : Harbour} {rafts : List Raft}
    (hall : Raft.ferryAll s.jetties (.before robots) s.rafts = .ok (h, rafts)) :
    ∀ c ∈ h.changes.map Prod.fst, s.grid.contains c = true := by
  intro c hc
  rw [← Grid.stored_isSome_of_even heven]
  exact (Raft.ferryAll_paintable hs.sound hall).1.stored c hc

/-! ## Runs

  Three invariants together make up what is needed: that of the board and its rafts, that of the robots,
  and that of the time of the next entry. -/

/-- Where robots enter one after the other, the next entry has a tick. -/
def Scheduled (s : State) : Prop :=
  0 < s.spawner.count → 0 < s.spawner.interval → s.nextSpawnTick.isSome = true

/-- There is a time for the second robot, if there is a second one and it has to wait. -/
theorem scheduled_start {grid : Grid} {spawner : Spawner} {exits : List Cell}
    {maxSteps requiredSaved : Int} {s : State}
    (h : start grid spawner exits maxSteps requiredSaved = .ok s) : Scheduled s := by
  obtain ⟨entered, hs⟩ := start_cases h
  rw [hs.state]
  intro (hcount : 0 < spawner.count) (hinterval : 0 < spawner.interval)
  show (firstSpawnTick spawner).isSome = true
  have hlater : ¬ (decide (spawner.count ≤ 0) || decide (spawner.interval ≤ 0)) = true := by
    simp only [Bool.or_eq_true, decide_eq_true_eq]
    omega
  rw [firstSpawnTick, if_neg hlater]
  rfl

/-- Where a robot enters, the time of the next one is set; otherwise it is left. -/
theorem scheduled_tick {s t : State} {actions : List (Option Action)} (hs : Scheduled s)
    (h : tick s actions = .ok t) : Scheduled t := by
  rcases tick_cases h with ⟨-, rfl⟩ | ⟨-, entry, grid, ferried, rafts, hspawn, -, rfl⟩
  · exact hs
  · intro hcount hinterval
    have hnext := hs hcount hinterval
    show entry.nextSpawnTick.isSome = true
    rcases spawnPhase_cases hspawn with ⟨-, rfl⟩ | ⟨index, r, -, -, rfl⟩
    · exact hnext
    · rw [Option.isSome_map]
      exact hnext

/-- What every state of a run has that has begun on an even board. -/
structure Shipshape (first : Grid) (s : State) : Prop where
  /-- its board, compared with the first one -/
  charted : Charted first s
  /-- its robots -/
  roster : Roster s
  /-- and the time of the next one -/
  scheduled : Scheduled s

theorem shipshape_tick {first : Grid} {s t : State} {actions : List (Option Action)}
    (hs : Shipshape first s) (h : tick s actions = .ok t) : Shipshape first t :=
  ⟨charted_tick hs.charted h, roster_tick hs.roster h, scheduled_tick hs.scheduled h⟩

theorem Shipshape.even {first : Grid} {s : State} (h : Shipshape first s)
    (heven : Grid.EvenRows first.rows) : Grid.EvenRows s.grid.rows :=
  heven.of_lengths h.charted.lengths

/-- **Within its lists**: in such a state all that a tick asks for is there. -/
theorem Shipshape.within {first : Grid} {s : State} (h : Shipshape first s)
    (heven : Grid.EvenRows first.rows) : Within s := by
  have hraft := fun raft hr => within_raft (h.even heven) (h.charted.afloat.sound raft hr)
  refine ⟨fun c hc => ?_, fun raft hr => (hraft raft hr).1, fun raft hr => (hraft raft hr).2.1,
    fun raft hr => (hraft raft hr).2.2.1, fun raft hr => (hraft raft hr).2.2.2,
    h.roster.entered.symm, h.scheduled⟩
  rw [Grid.stored_isSome_of_even (h.even heven)]
  exact hc

/-- **No fault.**  A level that has been read is refused at the start exactly if one of its numbers is no
tile, and then it is the first such number that is reported.  Any other level starts, and in every state
of every run all that a tick asks for is there, the ferry step changes cells of the board only, and a
tick with whatever actions goes through. -/
theorem runs_faultless {v : Json} {level : Level} (h : Level.ofJson v = .ok level)
    (maxTicks : Int) :
    match level.grid.flatten.find? fun n => !(0 ≤ n && n ≤ 8) with
    | some id => level.start maxTicks = .error (.unknownTile id)
    | none => ∃ s, level.start maxTicks = .ok s ∧
        ∀ t, Reaches s t → Within t ∧
          (∀ robots h rafts, Raft.ferryAll t.jetties (.before robots) t.rafts = .ok (h, rafts) →
            ∀ c ∈ h.changes.map Prod.fst, t.grid.contains c = true) ∧
          ∀ actions, ∃ u, tick t actions = .ok u := by
  have hboard := Grid.ofIds_eq level.grid
  split
  · rename_i id hid
    rw [hid] at hboard
    -- the first number that is no tile is what the reader of the board reports
    rw [Level.start, hboard]
  · rename_i hnone
    rw [hnone] at hboard
    have hheaded := Level.headed_ofJson h
    -- every number is a tile, so the level starts
    obtain ⟨s, hs⟩ := hheaded.start_ok ⟨level.grid.map (·.filterMap Tile.ofId?)⟩ level.exits
      (level.maxTicks.getD maxTicks) level.requiredSaved
    refine ⟨s, by rw [Level.start, hboard]; dsimp only; rw [hs], fun t ht => ?_⟩
    have heven := (Level.evenRows_ofJson h).of_lengths (Grid.ofIds_lengths hboard)
    -- the chart, the roster and the schedule are kept along the run
    have hship := ht.invariant (P := Shipshape _) shipshape_tick
      ⟨charted_start hs, roster_start hs, scheduled_start hs⟩
    refine ⟨hship.within heven, fun robots h rafts hall => ?_, fun actions => ?_⟩
    · exact contains_of_changed (hship.even heven) hship.charted.afloat hall
    · -- the headings are those that the level was read with
      refine tick_ok hship.charted.afloat ?_ actions
      obtain ⟨entered, hstarted⟩ := start_cases hs
      rw [ht.sameRules.spawner, hstarted.state]
      exact hheaded

/-- A board with two numbers that are no tile. -/
def brokenLevel : Json :=
  .obj [("grid", .arr [.arr [.int 0, .int 8], .arr [.int 9, .int (-1)]]),
    ("start", .obj [("x", .int 0), ("y", .int 0)])]

/-- The ferry has brought one robot home over another that has drowned, and can go on; the broken level
is refused for its first number that is no tile. -/
theorem runs_faultless_ferry :
    (∃ level s t, Level.ofJson ferryLevel = .ok level ∧ level.start 200 = .ok s ∧ Reaches s t ∧
      t.rafts.map Raft.back = [some 1] ∧ Within t ∧
      ∃ u, tick t [some .wait, some .moveForward, none] = .ok u) ∧
    ∃ level, Level.ofJson brokenLevel = .ok level ∧
      level.start 200 = .error (.unknownTile 9) := by
  constructor
  · obtain ⟨level, s, t, u, hlevel, hs, ht, hu, hback, htiles⟩ : ∃ level s t u,
        Level.ofJson ferryLevel = .ok level ∧ level.start 200 = .ok s ∧
        tick s [some .moveForward] = .ok t ∧ tick t [none, some .moveForward] = .ok u ∧
        u.rafts.map Raft.back = [some 1] ∧
        level.grid.flatten.find? (fun n => !(0 ≤ n && n ≤ 8)) = none :=
      ⟨_, _, _, _, rfl, rfl, rfl, rfl, rfl, rfl⟩
    -- no tile is unknown, so the level starts and its runs go on
    have hrun := runs_faultless hlevel 200
    rw [htiles, hs] at hrun
    obtain ⟨s', hs', hall⟩ := hrun
    cases hs'
    have hreach : Reaches s u := .tick (.tick .here ht) hu
    obtain ⟨hwithin, -, hgoes⟩ := hall u hreach
    exact ⟨level, s, u, hlevel, hs, hreach, hback, hwithin, hgoes _⟩
  · obtain ⟨level, hlevel, htiles⟩ : ∃ level, Level.ofJson brokenLevel = .ok level ∧
        level.grid.flatten.find? (fun n => !(0 ≤ n && n ≤ 8)) = some 9 := ⟨_, rfl, rfl⟩
    have hrun := runs_faultless hlevel 200
    rw [htiles] at hrun
    exact ⟨level, hlevel, hrun⟩

end Simulation

end RobotPuzzle
