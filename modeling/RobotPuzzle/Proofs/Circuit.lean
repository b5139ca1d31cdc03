/-
  A rider who stays aboard comes to every stop.

  1. **At rest** — where every robot is told to wait or told nothing, the actions change no robot of a
     settled state (`actedRobots_of_resting`).
  2. **Casting off** — a raft with riders sails as soon as nobody holds its next stop
     (`Raft.ferryOne_of_rider`); the riders themselves are on another cell and never hold it.
  3. **On a round** — a single raft with riders, a route that is theirs alone, and nobody to enter
     (`OnRound`).  A tick at rest takes raft and riders to the next stop and leaves everybody else
     (`OnRound.tick`), and then the raft is on its round again; so this is the invariant of the loop.
  4. **The tiles** — where a single raft lies is the only raft tile, so every other stop shows what was
     there when no raft was: a jetty, or the water where the raft was made (`Charted.stop_tile`).
  5. **Round after round** — by induction on the ticks, the raft is as many stops further as ticks have
     gone by, modulo the length of its route (`riders_circle`).

  The crux is that `OnRound` holds again after each tick.  Its condition that the route belongs to the
  riders alone is about all stops at once, so it does not matter which of them the raft has come to; and
  as the riders are taken from stop to stop, they are never in their own way.

  The assumptions are about the state from which the raft is watched, not about the level: one raft, with
  a rider, on a route that belongs to its riders, and nobody to enter.  What follows is for every number
  of ticks, up to the end of the run.  `RoundTrip` tells all that has become of the board then: where raft
  and riders are, what the other stops show, and that nobody else has moved.
-/
import RobotPuzzle.Proofs.Waiting

namespace RobotPuzzle

/-! ## Casting off

  A raft asks for three things before it sails: two stops at least, a rider, and a next stop that nobody
  holds. -/

/-- A raft with riders sails to its next stop if nobody holds it. -/
theorem Raft.ferryOne_of_rider {jetties : List Cell} {h : Harbour} {raft : Raft} {there : Cell}
    (hlen : 2 ≤ raft.route.length) (hrider : h.hasRider raft.cell = true)
    (hstop : raft.stop? ((raft.dock + 1) % raft.route.length) = some there)
    (hfree : there ∉ h.occupied) :
    raft.ferryOne jetties h = .ok ((h.sail jetties raft.cell there).carry raft.cell there,
      { raft with
        cell := there, dock := (raft.dock + 1) % raft.route.length, back := some raft.dock }) := by
  unfold ferryOne
  rw [if_neg (by omega), if_pos hrider]
  simp only [sailWithRiders]
  rw [hstop]
  dsimp only
  rw [if_neg fun hheld => hfree hheld.1]

/-- The stop so many places behind the dock is one of the route. -/
theorem Raft.Sound.exists_stop {rows : List (List Tile)} {raft : Raft} (h : raft.Sound rows) (k : Nat) :
    ∃ there ∈ raft.route, raft.stop? ((raft.dock + k) % raft.route.length) = some there := by
  obtain ⟨i, hi, hcell⟩ := h.moored
  have hlt := (List.getElem?_eq_some_iff.1 hcell).1
  have hplace : (raft.dock + k) % raft.route.length = ((i + k) % raft.route.length : Nat) := by
    rw [hi]
    rfl
  have hin := Nat.mod_lt (i + k) (Nat.zero_lt_of_lt hlt)
  refine ⟨_, List.getElem_mem hin, ?_⟩
  rw [hplace, stop?_natCast, List.getElem?_eq_getElem hin]

namespace Simulation

/-! ## At rest

  No order but the one to go forward moves a robot, but a robot can be saved without moving, where it
  stands on an exit.  In a settled state whoever stands there has been saved already. -/

/-- Every robot is told to wait, or told nothing. -/
def Resting (orders : Orders) : Prop := ∀ order ∈ orders, order = none ∨ order = some .wait

/-- Whoever rests is told nothing, or something that comes to the same. -/
theorem Resting.plain_getElem? {orders : Orders} (h : Resting orders) (i : Nat) :
    plain orders[i]?.join = none := by
  cases horder : orders[i]? with
  | none => rfl
  | some order => exact plain_eq_none_iff.2 (h order (List.mem_of_getElem? horder))

/-- In a settled state nobody who blocks is on an exit. -/
theorem Settled.isExit_eq_false {s : State} (hs : Settled s) {r : Robot} (hr : r ∈ s.robots)
    (hb : r.blocking = true) : isExit s.grid s.exits r.cell = false := by
  cases hexit : isExit s.grid s.exits r.cell with
  | false => rfl
  | true =>
    have hmarked := hs.exits r hr
    rw [markExit, hb, hexit] at hmarked
    rw [← hmarked] at hb
    simp [Robot.blocking] at hb

/-- Whoever rests in a settled state stays as it is. -/
theorem actedRobots_of_resting {s : State} {entry : Entry} {orders : Orders} (hs : Settled s)
    (hentry : entry.robots = s.robots) (hrest : Resting orders) :
    (actedRobots s entry orders).1 = s.robots := by
  refine List.ext_getElem? fun i => ?_
  unfold actedRobots
  rw [hentry]
  rcases Nat.lt_or_ge i s.robots.length with hi | hi
  · have hr : s.robots[i]? = some s.robots[i] := List.getElem?_eq_getElem hi
    rw [acted_getElem? s.globalSignal hr, ← turn_plain, hrest.plain_getElem?, hr]
    exact congrArg some (hs.exits _ (List.getElem_mem hi))
  · rw [List.getElem?_eq_none hi, List.getElem?_eq_none (by rw [actPhase_length]; exact hi)]

/-! ## On a round

  A tick at rest changes nothing but in its ferry step, and there only one raft sails.  What is left to
  show is that everybody on the raft's cell is taken along, once, and that the statement can be made again
  of the state after it. -/

/-- A single raft has riders, its route is theirs alone, no stop of it is an exit, and nobody is still to
enter. -/
structure OnRound (s : State) (raft : Raft) : Prop where
  /-- there is no other raft -/
  single : s.rafts = [raft]
  /-- it has somewhere to go -/
  stops : 2 ≤ raft.route.length
  /-- somebody is on board -/
  rider : ∃ r ∈ s.robots, r.blocking = true ∧ r.cell = raft.cell
  /-- nobody else stands in its way, now or later -/
  alone : ∀ r ∈ s.robots, r.blocking = true → r.cell ∈ raft.route → r.cell = raft.cell
  /-- nobody is saved on the way -/
  inland : ∀ c ∈ raft.route, isExit s.grid s.exits c = false
  /-- nobody enters any more -/
  complete : s.remainingSpawns = 0

/-- Who is on `here` is taken to `there`. -/
def taken (here there : Cell) (r : Robot) : Robot :=
  if r.cell = here then { r with cell := there } else r

theorem taken_blocking (here there : Cell) (r : Robot) :
    (taken here there r).blocking = r.blocking := by
  unfold taken
  split
  · rfl
  · rfl

/-- Whoever is taken along twice might as well have gone straight on, and whoever is not on the way is
not taken along at all. -/
theorem taken_taken {here mid there : Cell} {r : Robot} (h : r.cell = here ∨ r.cell ≠ mid) :
    taken mid there (taken here mid r) = taken here there r := by
  by_cases hhere : r.cell = here
  · rw [taken, taken, taken, if_pos hhere, if_pos rfl, if_pos hhere]
  · rw [taken, taken, taken, if_neg hhere, if_neg (h.resolve_left hhere), if_neg hhere]

/-- The raft at its next stop. -/
def nextStop (raft : Raft) (there : Cell) : Raft :=
  { raft with cell := there, dock := (raft.dock + 1) % raft.route.length, back := some raft.dock }

section Round

variable {first : Grid} {s : State} {raft : Raft} {orders : Orders} {there : Cell}

theorem OnRound.sound (hs : OnRound s raft) (hafloat : Afloat s) : raft.Sound s.grid.rows :=
  hafloat.sound raft (by rw [hs.single]; exact List.mem_singleton_self raft)

/-- The ferry step of a tick at rest. -/
theorem OnRound.ferry_ok (hs : OnRound s raft) (hafloat : Afloat s) (hroute : there ∈ raft.route)
    (hstop : raft.stop? ((raft.dock + 1) % raft.route.length) = some there) :
    ∃ grid, ferry s.grid s.robots s.rafts s.jetties
      = .ok (grid, s.robots.map (taken raft.cell there), [nextStop raft there]) := by
  have hne := (hs.sound hafloat).next_ne hs.stops hstop
  have hrider : (Harbour.before s.robots).hasRider raft.cell = true := by
    obtain ⟨r, hr, hb, hcell⟩ := hs.rider
    exact List.any_eq_true.2 ⟨r, hr, by rw [hb, hcell, beq_self_eq_true]; rfl⟩
  -- whoever holds a stop of the route is a rider, and the riders are not there
  have hfree : there ∉ (Harbour.before s.robots).occupied := by
    intro hheld
    obtain ⟨r, hr, hb, rfl⟩ := mem_occupiedCells.1 hheld
    exact hne (hs.alone r hr hb hroute)
  have hall : Raft.ferryAll s.jetties (.before s.robots) s.rafts
      = .ok (((Harbour.before s.robots).sail s.jetties raft.cell there).carry raft.cell there,
        [nextStop raft there]) := by
    rw [hs.single, Raft.ferryAll, Raft.ferryOne_of_rider hs.stops hrider hstop hfree]
    rfl
  obtain ⟨grid, hpaint⟩ := Grid.paint_ok (Raft.ferryAll_paintable hafloat.sound hall).1
  refine ⟨grid, ?_⟩
  unfold ferry
  show (Raft.ferryAll s.jetties (.before s.robots) s.rafts >>= _) = _
  rw [hall]
  dsimp only [bind, Except.bind]
  rw [hpaint]
  rfl

/-- **One tick at rest** takes the raft and its riders to the next stop, leaves everybody else, and finds
the raft on its round again. -/
theorem OnRound.tick (hcharted : Charted first s) (hsettled : Settled s) (hs : OnRound s raft)
    (hrun : s.status = .running) (hrest : Resting orders) :
    ∃ t there, tick s orders = .ok t ∧ there ∈ raft.route ∧
      raft.stop? ((raft.dock + 1) % raft.route.length) = some there ∧
      t.robots = s.robots.map (taken raft.cell there) ∧ OnRound t (nextStop raft there) := by
  obtain ⟨there, hroute, hstop⟩ := (hs.sound hcharted.afloat).exists_stop 1
  have hspawned : s.spawner.count ≤ s.spawnedCount := by
    have hnone := hs.complete
    unfold State.remainingSpawns at hnone
    omega
  obtain ⟨grid, hferry⟩ := hs.ferry_ok hcharted.afloat hroute hstop
  have hacted : (actedRobots s ⟨s.robots, s.spawnedCount, s.nextSpawnTick⟩ orders).1 = s.robots :=
    actedRobots_of_resting hsettled rfl hrest
  rw [← hacted] at hferry
  have htick := tick_of_phases hrun (spawnPhase_of_complete hspawned) hferry
  rw [hacted] at htick
  -- no cell becomes an exit or ceases to be one
  have hexits : ∀ c, isExit grid s.exits c = isExit s.grid s.exits c := fun c =>
    ((charted_tick hcharted htick).isExit_eq s.exits c).trans (hcharted.isExit_eq s.exits c).symm
  have hmark : ∀ r ∈ s.robots,
      markExit grid s.exits (taken raft.cell there r) = taken raft.cell there r := by
    intro r hr
    cases hb : r.blocking with
    | false => exact markExit_of_not_blocking ((taken_blocking _ _ r).trans hb) grid s.exits
    | true =>
      have hexit : isExit grid s.exits (taken raft.cell there r).cell = false := by
        rw [hexits, taken]
        split
        · exact hs.inland there hroute
        · exact hsettled.isExit_eq_false hr hb
      rw [markExit, hexit, Bool.and_false]
      rfl
  have hrobots : (s.robots.map (taken raft.cell there)).map (markExit grid s.exits)
      = s.robots.map (taken raft.cell there) := by
    rw [List.map_map]
    exact List.map_congr_left hmark
  refine ⟨_, there, htick, hroute, hstop, hrobots, rfl, hs.stops, ?_, ?_, ?_, hs.complete⟩
  · obtain ⟨r, hr, hb, hcell⟩ := hs.rider
    refine ⟨taken raft.cell there r, ?_, (taken_blocking _ _ r).trans hb, ?_⟩
    · show _ ∈ (s.robots.map (taken raft.cell there)).map (markExit grid s.exits)
      rw [hrobots]
      exact List.mem_map_of_mem hr
    · rw [taken, if_pos hcell]
      rfl
  · show ∀ q ∈ (s.robots.map (taken raft.cell there)).map (markExit grid s.exits), _
    rw [hrobots]
    intro q hq hb hcell
    obtain ⟨r, hr, rfl⟩ := List.mem_map.1 hq
    rw [taken_blocking] at hb
    by_cases hhere : r.cell = raft.cell
    · rw [taken, if_pos hhere]
      rfl
    · -- nobody else was on the route, and whoever is not taken along stays off it
      rw [taken, if_neg hhere] at hcell
      exact absurd (hs.alone r hr hb hcell) hhere
  · intro c hc
    exact (hexits c).trans (hs.inland c hc)

end Round

end Simulation

/-! ## The tiles

  What a tile is at a cell is asked in two ways, by the board that is stored and by the board that is
  looked at; they part on boards that are not even, which are not excluded here. -/

/-- The board holds the tile at that cell: it is stored there, and it is what is found there, unless the
cell lies behind the last column. -/
def Grid.Holds (g : Grid) (c : Cell) (t : Tile) : Prop :=
  storedIn g.rows c = some t ∧ (g.contains c = true → g.tile c = t)

theorem Grid.holds_of_stored {g : Grid} {c : Cell} {t : Tile} (h : storedIn g.rows c = some t) :
    g.Holds c t := by
  refine ⟨h, fun hc => ?_⟩
  rw [tile_eq_stored, if_pos hc, h]
  rfl

namespace Simulation

section Tiles

variable {first : Grid} {s : State} {raft : Raft}

theorem RaftsShown.raft_tile (h : RaftsShown s) (hsingle : s.rafts = [raft]) :
    s.grid.Holds raft.cell .raft := by
  refine Grid.holds_of_stored (Grid.mem_tiles.1 ((h.2 _).2 ?_))
  rw [hsingle]
  exact List.mem_singleton_self _

/-- Where the only raft does not lie, a stop shows what is there without a raft. -/
theorem Charted.stop_tile (h : Charted first s) (hshown : RaftsShown s) (hsingle : s.rafts = [raft])
    {c : Cell} (hc : c ∈ raft.route) (hne : c ≠ raft.cell) :
    s.grid.Holds c (if c ∈ first.cellsOf (· == .jetty) then .jetty else .water) := by
  -- a raft tile would show a raft, and the only one lies elsewhere
  have hnone : Grid.storedIn s.grid.rows c ≠ some .raft := by
    intro hraft
    have hmem := (hshown.2 c).1 (Grid.mem_tiles.2 hraft)
    rw [hsingle] at hmem
    exact hne (List.mem_singleton.1 hmem)
  have hdock := h.routed.docks raft (by rw [hsingle]; exact List.mem_singleton_self raft) c hc
  have hbecomes := h.tiles c
  refine Grid.holds_of_stored ?_
  rcases hdock with hraft | hjetty
  · -- a stop that was a raft tile at the start has become water
    rw [if_neg (notMem_jetties hraft)]
    rw [Grid.mem_tiles.1 hraft] at hbecomes
    generalize Grid.storedIn s.grid.rows c = now at hbecomes hnone
    cases hbecomes with
    | some hb =>
      rcases hb with rfl | rfl
      · exact absurd rfl hnone
      · rfl
  · -- and a jetty is a jetty again
    rw [if_pos hjetty]
    rw [Grid.mem_tiles.1 hjetty] at hbecomes
    generalize Grid.storedIn s.grid.rows c = now at hbecomes hnone
    cases hbecomes with
    | some hb =>
      rcases hb with rfl | rfl
      · rfl
      · exact absurd rfl hnone

end Tiles

/-! ## Round after round

  The statement for `k + 1` ticks is made of the one for the first tick and the one for the `k` others,
  which starts at another dock.  So docks are counted modulo the length of the route, and `Circled.next`
  adds them up. -/

/-- From one state to another, the raft has gone on by so many stops, with its riders and nobody else. -/
structure Circled (s : State) (raft : Raft) (k : Nat) (there : Cell) (t : State) : Prop where
  /-- the stop is so many further on the route -/
  stop : raft.stop? ((raft.dock + k) % raft.route.length) = some there
  /-- there lies the raft, and it remembers the stop before -/
  rafts : t.rafts = [{ raft with
    cell := there
    dock := (raft.dock + k) % raft.route.length
    back := some ((raft.dock + k - 1) % raft.route.length) }]
  /-- the riders are with it, and the others where they were -/
  robots : ∀ (i : Nat) (r : Robot), s.robots[i]? = some r → r.blocking = true →
    t.robots[i]? = some (taken raft.cell there r)

section Rounds

variable {s t u : State} {raft : Raft} {mid there : Cell} {k : Nat}

/-- The first stop. -/
theorem Circled.one (hsound : raft.Sound s.grid.rows)
    (hstop : raft.stop? ((raft.dock + 1) % raft.route.length) = some there)
    (hrafts : t.rafts = [nextStop raft there])
    (hrobots : t.robots = s.robots.map (taken raft.cell there)) : Circled s raft 1 there t := by
  obtain ⟨i, hi, hcell⟩ := hsound.moored
  have hlt := (List.getElem?_eq_some_iff.1 hcell).1
  have hback : (raft.dock + (1 : Nat) - 1) % raft.route.length = raft.dock := by
    rw [Int.emod_eq_of_lt]
    · omega
    · omega
    · omega
  refine ⟨hstop, ?_, fun i r hr _ => ?_⟩
  · rw [hrafts, hback]
    rfl
  · rw [hrobots, List.getElem?_map, hr]
    rfl

/-- The stop behind that one, and all stops behind it. -/
theorem Circled.next (hs : OnRound s raft) (hmid : mid ∈ raft.route)
    (hrobots : t.robots = s.robots.map (taken raft.cell mid))
    (h : Circled t (nextStop raft mid) (k + 1) there u) : Circled s raft (k + 1 + 1) there u := by
  have hdock : ((raft.dock + 1) % raft.route.length + (k + 1 : Nat)) % raft.route.length
      = (raft.dock + (k + 1 + 1 : Nat)) % raft.route.length := by
    rw [Int.emod_add_emod]
    congr 1
    omega
  have hback : ((raft.dock + 1) % raft.route.length + (k + 1 : Nat) - 1) % raft.route.length
      = (raft.dock + (k + 1 + 1 : Nat) - 1) % raft.route.length := by
    rw [Int.add_sub_assoc, Int.emod_add_emod]
    congr 1
    omega
  refine ⟨?_, ?_, fun i r hr hb => ?_⟩
  · rw [← hdock]
    exact h.stop
  · rw [← hdock, ← hback]
    exact h.rafts
  · have hr' : t.robots[i]? = some (taken raft.cell mid r) := by
      rw [hrobots, List.getElem?_map, hr]
      rfl
    -- nobody but the riders is on the route, so nobody is picked up on the way
    have hway : r.cell = raft.cell ∨ r.cell ≠ mid := by
      by_cases hhere : r.cell = mid
      · exact Or.inl (hs.alone r (List.mem_of_getElem? hr) hb (hhere ▸ hmid))
      · exact Or.inr hhere
    have hlast := h.robots i _ hr' ((taken_blocking _ _ r).trans hb)
    rw [hlast]
    exact congrArg some (taken_taken hway)

/-- **So many ticks at rest**, so many stops, by induction on the ticks; a run that is over stays where it
is. -/
theorem OnRound.circled {first : Grid} :
    ∀ {log : List Orders} {s : State} {raft : Raft}, Charted first s → Settled s → OnRound s raft →
      (∀ orders ∈ log, Resting orders) →
      ∃ states, statesAfter s log = .ok states ∧
        ∀ (k : Nat) (u v : State), (s :: states)[k]? = some u → u.status = .running →
          states[k]? = some v → ∃ there, Circled s raft (k + 1) there v := by
  intro log
  induction log with
  | nil => exact fun _ _ _ _ => ⟨[], rfl, fun _ _ _ _ _ hv => nomatch hv⟩
  | cons orders rest ih =>
    intro s raft hcharted hsettled hs hrest
    obtain ⟨hhere, hlater⟩ := List.forall_mem_cons.1 hrest
    by_cases hrun : s.status = .running
    · obtain ⟨t, there, htick, hroute, hstop, hrobots, hround⟩ :=
        hs.tick hcharted hsettled hrun hhere
      -- one stop further the raft is on its round again, so the induction goes on from there
      obtain ⟨states, hstates, hall⟩ :=
        ih (charted_tick hcharted htick) (settled_tick hsettled htick) hround hlater
      refine ⟨t :: states, ?_, fun k u v hu hurun hv => ?_⟩
      · rw [statesAfter, htick]
        show (statesAfter t rest >>= _) = _
        rw [hstates]
        rfl
      · cases k with
        | zero =>
          cases hv
          exact ⟨there, .one (hs.sound hcharted.afloat) hstop hround.single hrobots⟩
        | succ k =>
          obtain ⟨last, hlast⟩ := hall k u v hu hurun hv
          exact ⟨last, .next hs hroute hrobots hlast⟩
    · obtain ⟨states, hstates, -⟩ := ih hcharted hsettled hs hlater
      have htick := tick_of_not_running hrun orders
      refine ⟨s :: states, ?_, fun k u v hu hurun _ => ?_⟩
      · rw [statesAfter, htick]
        show (statesAfter s rest >>= _) = _
        rw [hstates]
        rfl
      · -- a run that is over repeats its last state, so no tick of it counts
        have hreach : Reaches s u := by
          rcases List.mem_cons.1 (List.mem_of_getElem? hu) with rfl | hmem
          · exact .here
          · rcases List.mem_cons.1 hmem with rfl | hmem
            · exact .here
            · exact .of_statesAfter hstates hmem
        rw [eq_of_over hreach hrun] at hurun
        exact absurd hurun hrun

end Rounds

/-- What has become of a round after so many ticks at rest, and what the board shows of it. -/
structure RoundTrip (first : Grid) (s : State) (raft : Raft) (k : Nat) (there : Cell) (t : State) :
    Prop extends Circled s raft k there t where
  /-- the raft is shown where it lies -/
  raftTile : t.grid.Holds there .raft
  /-- and every other stop as it is without a raft -/
  otherStops : ∀ c ∈ raft.route, c ≠ there →
    t.grid.Holds c (if c ∈ first.cellsOf (· == .jetty) then .jetty else .water)

/-- **A rider who stays aboard comes to every stop.**  In any state of any run whose only raft is on its
round, all ticks at rest go through.  After each tick that a running state has made, the raft and all
its riders are as many stops further as ticks have gone by, modulo the length of the route; it
remembers the stop before that one, the raft tile is there and nowhere else on the route, where every
other stop is a jetty if it has been one on the first board and water if not; and no other blocking
robot has moved. -/
theorem riders_circle {grid : Grid} {spawner : Spawner} {exits : List Cell}
    {maxSteps requiredSaved : Int} {s t : State} {raft : Raft} {log : List Orders}
    (h : start grid spawner exits maxSteps requiredSaved = .ok s) (ht : Reaches s t)
    (hround : OnRound t raft) (hrest : ∀ orders ∈ log, Resting orders) :
    ∃ states, statesAfter t log = .ok states ∧
      ∀ (k : Nat) (u v : State), (t :: states)[k]? = some u → u.status = .running →
        states[k]? = some v → ∃ there, RoundTrip grid t raft (k + 1) there v := by
  have hcharted : Charted grid t := ht.invariant (P := Charted grid) charted_tick (charted_start h)
  have hsettled : Settled t := ht.invariant (P := Settled) settled_tick (settled_start h)
  obtain ⟨states, hstates, hall⟩ := hround.circled hcharted hsettled hrest
  refine ⟨states, hstates, fun k u v hu hrun hv => ?_⟩
  obtain ⟨there, hcircled⟩ := hall k u v hu hrun hv
  have hreach : Reaches t v := .of_statesAfter hstates (List.mem_of_getElem? hv)
  have hcharted' : Charted grid v := hreach.invariant (P := Charted grid) charted_tick hcharted
  -- no raft is lost or added, so there has been a single one from the start
  have hlength : v.rafts.length = s.rafts.length := by
    refine (ht.trans hreach).invariant (P := fun w => w.rafts.length = s.rafts.length) ?_ rfl
    exact fun hw hstep => (tick_rafts_length hstep).trans hw
  have hshown : RaftsShown v := by
    obtain ⟨hafloat, hfirst⟩ := afloat_start h
    refine raftsShown_of_single hafloat hfirst ?_ (ht.trans hreach)
    rw [← hlength, hcircled.rafts]
    exact Nat.le_refl 1
  exact ⟨there, hcircled, hshown.raft_tile hcircled.rafts,
    fun c hc hne => hcharted'.stop_tile hshown hcircled.rafts hc hne⟩

/-- A robot walks onto the raft, which takes it to the first of two jetties.  At rest it comes to the
second one, and back to where the raft was made. -/
theorem riders_circle_home :
    ∃ s t states v raft, start ⟨[[.empty, .raft, .jetty, .jetty]]⟩ { pose := ⟨⟨0, 0⟩, 1⟩ } [] 9 1 = .ok s ∧
      tick s [some .moveForward] = .ok t ∧ OnRound t raft ∧
      statesAfter t [[some .wait], []] = .ok states ∧ states[1]? = some v ∧
      v.grid.toIds = [[0, 7, 8, 8]] ∧
      RoundTrip ⟨[[.empty, .raft, .jetty, .jetty]]⟩ t raft 2 ⟨1, 0⟩ v := by
  obtain ⟨s, t, u, v, raft, hs, ht, hsingle, hrun, hstates, hgrid, hstop⟩ : ∃ s t u v raft,
      start ⟨[[.empty, .raft, .jetty, .jetty]]⟩ { pose := ⟨⟨0, 0⟩, 1⟩ } [] 9 1 = .ok s ∧
      tick s [some .moveForward] = .ok t ∧ t.rafts = [raft] ∧ u.status = .running ∧
      statesAfter t [[some .wait], []] = .ok [u, v] ∧ v.grid.toIds = [[0, 7, 8, 8]] ∧
      raft.stop? ((raft.dock + (2 : Nat)) % raft.route.length) = some ⟨1, 0⟩ :=
    ⟨_, _, _, _, _, rfl, rfl, rfl, rfl, rfl, rfl, rfl⟩
  -- the state is a closed term, and the raft carries a robot that blocks
  have hround : OnRound t raft := by
    cases hs
    cases ht
    cases hsingle
    exact ⟨rfl, by decide, ⟨_, List.mem_cons_self, rfl, rfl⟩, by decide, by decide, rfl⟩
  have hrest : ∀ orders ∈ [[some Action.wait], []], Resting orders := by
    simp [Resting]
  obtain ⟨states, hstates', hall⟩ := riders_circle hs (.tick .here ht) hround hrest
  cases hstates.symm.trans hstates'
  obtain ⟨there, hthere⟩ := hall 1 u v rfl hrun rfl
  cases hthere.stop.symm.trans hstop
  exact ⟨s, t, [u, v], v, raft, hs, ht, hround, hstates, rfl, hgrid, hthere⟩

end Simulation

end RobotPuzzle
