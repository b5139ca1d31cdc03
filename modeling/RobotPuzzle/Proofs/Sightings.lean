/-
  What the milestones tell of rafts and water.

  The milestones look at the states between the ticks.  A robot boards, sails and is saved within one tick,
  or drowns and has a raft come over it, so what happens is not always what is seen.

  1. **Rides** — whoever a ferry step has carried is on a raft tile when it is over (`FerryStep.carried_tile`).
     So a ride is seen at the end of its tick, unless the tick saves the rider as well (`Carried.shows`).
  2. **Water** — where a raft lies the board never has water, since rafts meet at jetties only and each has
     its origin for itself (`Dry`).  So whoever has drowned stays where it is, and is seen there unless a
     raft has come in the same tick (`Drowned.shows`).
  3. **Milestones** — a milestone is set exactly if some state shows it (`foldl_merge_iff`); and so the
     milestones of a run tell of its rides and of its drownings, but for the ones just named
     (`evaluate_sightings`).

  The crux is what a raft leaves behind when it sails: water at its origin, and a jetty at any other stop.
  So a rider ends on the tile of the raft that has brought it, unless some later raft of the tick takes it
  on, and then on that one's; and a drowned robot, whom no raft carries, is at a cell that goes from water
  to raft at most.

  There are four things that are told apart here: what a state shows, what a tick does, what the flags
  say, and what they miss.  `ShowsRaft` and `ShowsWater` are of the first kind, `Carried` and `Drowned` of
  the second.  The exceptions, `Gone` and `Covered`, are decided by the states before and after the tick,
  so whether a flag misses something can be seen from the run.
-/
import RobotPuzzle.Proofs.Passage
import RobotPuzzle.Proofs.Report
import RobotPuzzle.Proofs.Terrain

namespace RobotPuzzle

/-! ## Rides

  A robot may be carried by several rafts in one tick.  What each of them keeps is that it is where it
  started or on a raft tile, so the first is excluded by its having moved. -/

namespace Raft

section Rider

variable {rows : List (List Tile)} {jetties : List Cell} {h h' : Harbour} {raft raft' : Raft}
  {r : Robot} {c : Cell}

/-- A blocking robot that is still on `c` or on a raft tile is so after the turn of any raft. -/
theorem Turn.rider_display {i : Nat} (ht : raft.Turn jetties h h' raft') (hr : h.robots[i]? = some r)
    (hb : r.blocking = true) (hon : r.cell = c ∨ Grid.display rows h.changes r.cell = some .raft) :
    ∃ r', h'.robots[i]? = some r' ∧ r'.blocking = true ∧
      (r'.cell = c ∨ Grid.display rows h'.changes r'.cell = some .raft) := by
  -- a raft that sails elsewhere leaves it on its tile
  have hother : ∀ {there : Cell}, r.cell ≠ raft.cell → r.cell = c ∨
      Grid.display rows (h.sail jetties raft.cell there).changes r.cell = some .raft := by
    intro there hne
    rw [Grid.display_sail, if_neg hne.symm]
    by_cases hthere : there = r.cell
    · exact Or.inr (if_pos hthere)
    · rwa [if_neg hthere]
  cases ht with
  | stay => exact ⟨r, hr, hb, hon⟩
  | @carry there _ _ _ _ =>
    refine ⟨if r.cell = raft.cell then { r with cell := there } else r, ?_, ?_⟩
    · show (h.robots.map _)[i]? = _
      rw [List.getElem?_map, hr]
      rfl
    · by_cases hhere : r.cell = raft.cell
      · rw [if_pos hhere]
        refine ⟨hb, Or.inr ?_⟩
        show Grid.display rows (h.sail jetties raft.cell there).changes there = some .raft
        rw [Grid.display_sail, if_pos rfl]
      · rw [if_neg hhere]
        exact ⟨hb, hother hhere⟩
  | home _ hrider _ _ _ _ =>
    refine ⟨r, hr, hb, hother fun hhere => ?_⟩
    have hany : h.hasRider raft.cell = true :=
      List.any_eq_true.2 ⟨r, List.mem_of_getElem? hr, by simp [hb, hhere]⟩
    rw [hrider] at hany
    cases hany

end Rider

end Raft

namespace Simulation

section Ride

variable {s t : State} {orders : Orders} {before after : List Robot} {i : Nat}

/-- A blocking robot that has been carried is on a raft tile. -/
theorem FerryStep.carried_tile (hs : Afloat s) (h : FerryStep s orders t before after) {r r' : Robot}
    (hr : before[i]? = some r) (hr' : after[i]? = some r') (hb : r.blocking = true)
    (hmoved : r'.cell ≠ r.cell) :
    r'.blocking = true ∧ Grid.storedIn t.grid.rows r'.cell = some .raft := by
  obtain ⟨harbour, hall, rfl, hstored⟩ := h.turns hs
  have hturn : ∀ {h h' : Harbour} {raft raft' : Raft},
      (∃ q, h.robots[i]? = some q ∧ q.blocking = true ∧
        (q.cell = r.cell ∨ Grid.display s.grid.rows h.changes q.cell = some .raft)) →
      True → raft.Turn s.jetties h h' raft' →
      (∃ q, h'.robots[i]? = some q ∧ q.blocking = true ∧
        (q.cell = r.cell ∨ Grid.display s.grid.rows h'.changes q.cell = some .raft)) ∧ True := by
    rintro h h' raft raft' ⟨q, hq, hqb, hon⟩ - ht
    exact ⟨ht.rider_display hq hqb hon, trivial⟩
  obtain ⟨⟨q, hq, hqb, hon⟩, -⟩ :=
    Raft.ferryAll_invariant hturn hall ⟨r, hr, hb, Or.inl rfl⟩ fun _ _ => trivial
  cases hq.symm.trans hr'
  rw [hstored]
  exact ⟨hqb, hon.resolve_left hmoved⟩

/-- Robot number `i` blocks its cell after its action, and the rafts of the tick take it elsewhere. -/
def Carried (s : State) (orders : Orders) (t : State) (i : Nat) : Prop :=
  ∃ before after r r', FerryStep s orders t before after ∧ before[i]? = some r ∧
    after[i]? = some r' ∧ r.blocking = true ∧ r'.cell ≠ r.cell

theorem Carried.ticks (h : Carried s orders t i) : s.status = .running ∧ tick s orders = .ok t := by
  obtain ⟨before, after, r, r', hstep, -⟩ := h
  exact ⟨hstep.running, hstep.tick⟩

/-- A robot that blocks its cell is on a raft tile. -/
def ShowsRaft (s : State) : Prop :=
  ∃ r ∈ s.robots, r.blocking = true ∧ s.grid.tile r.cell = .raft

/-- Robot number `i` has been saved, or is behind the last column of the board. -/
def Gone (t : State) (i : Nat) : Prop :=
  ∃ r, t.robots[i]? = some r ∧ (r.saved = true ∨ t.grid.contains r.cell = false)

/-- A ride is seen at the end of the tick, unless the rider is gone by then. -/
theorem Carried.shows (hs : Afloat s) (h : Carried s orders t i) : ShowsRaft t ∨ Gone t i := by
  obtain ⟨before, after, r, r', hstep, hr, hr', hb, hmoved⟩ := h
  obtain ⟨hb', hstored⟩ := hstep.carried_tile hs hr hr' hb hmoved
  have hlast : t.robots[i]? = some (markExit t.grid s.exits r') := by
    rw [hstep.settled, List.getElem?_map, hr']
    rfl
  cases hexit : isExit t.grid s.exits r'.cell with
  | true =>
    -- on an exit it is saved, and gone
    have hmark : markExit t.grid s.exits r' = { r' with saved := true } := by
      rw [markExit, hb', hexit]
      rfl
    rw [hmark] at hlast
    exact Or.inr ⟨_, hlast, Or.inl rfl⟩
  | false =>
    have hmark : markExit t.grid s.exits r' = r' := by
      rw [markExit, hexit, Bool.and_false]
      rfl
    rw [hmark] at hlast
    -- elsewhere it is seen on the raft, unless the raft lies outside the board
    cases hin : t.grid.contains r'.cell with
    | false => exact Or.inr ⟨r', hlast, Or.inr hin⟩
    | true =>
      refine Or.inl ⟨r', List.mem_of_getElem? hlast, hb', ?_⟩
      rw [Grid.tile_eq_stored, hin, hstored]
      rfl

end Ride

end Simulation

/-! ## Water

  Two rafts never lie at one cell, unless it is a jetty; and a raft at a jetty does not lie on water.
  This is kept turn by turn, with the rafts that have had their turn in front of those that have not. -/

namespace Raft

/-- Only at the stops that all share do two rafts meet. -/
theorem Routed.pairwise {origins stops : List Cell} {rafts : List Raft}
    (h : Routed origins stops rafts) :
    rafts.Pairwise fun p q => ∀ c, c ∈ p.route → c ∈ q.route → c ∈ stops := by
  have hroutes : (rafts.map route).Pairwise fun p q => ∀ c, c ∈ p → c ∈ q → c ∈ stops := by
    rw [h.routes, List.pairwise_map]
    refine (List.nodup_append.1 h.nodup).1.imp fun {origin other} hne c hc hc' => ?_
    rcases List.mem_cons.1 hc with rfl | hc
    · exact (List.mem_cons.1 hc').resolve_left hne
    · exact hc
  exact List.pairwise_map.1 hroutes

/-- No raft lies where the display shows water. -/
def Dry (display : Cell → Option Tile) (rafts : List Raft) : Prop :=
  ∀ raft ∈ rafts, display raft.cell ≠ some .water

/-- What the rafts and the display keep from turn to turn. -/
structure Berths (rows : List (List Tile)) (origins stops : List Cell) (h : Harbour)
    (rafts : List Raft) : Prop where
  /-- every raft lies at a stop of its route -/
  sound : ∀ raft ∈ rafts, raft.Sound rows
  /-- the routes are those drawn up at the start -/
  routed : Routed origins stops rafts
  /-- the display has no water under a raft -/
  dry : Dry (Grid.display rows h.changes) rafts

section Berths

variable {rows : List (List Tile)} {origins stops jetties : List Cell} {h h' : Harbour}
  {raft raft' : Raft} {done todo : List Raft}

/-- A raft that sails leaves water only where no other raft can lie. -/
theorem dry_sail {here there : Cell} {others : List Raft}
    (hshared : ∀ q ∈ others, q.cell = here → here ∈ jetties)
    (hdry : Dry (Grid.display rows h.changes) others) (hthere : raft'.cell = there) :
    Dry (Grid.display rows (h.sail jetties here there).changes) (raft' :: others) := by
  intro q hq
  rw [Grid.display_sail]
  by_cases harrives : there = q.cell
  · rw [if_pos harrives]
    exact fun h => nomatch h
  · rw [if_neg harrives]
    rcases List.mem_cons.1 hq with rfl | hq
    · exact absurd hthere.symm harrives
    · by_cases hleft : here = q.cell
      · rw [if_pos hleft, if_pos (hshared q hq hleft.symm)]
        exact fun h => nomatch h
      · rw [if_neg hleft]
        exact hdry q hq

/-- A turn keeps the berths. -/
theorem Turn.berths (hjetties : ∀ c ∈ stops, c ∈ jetties) (ht : raft.Turn jetties h h' raft')
    (hb : Berths rows origins stops h (done ++ raft :: todo)) :
    Berths rows origins stops h' (done ++ raft' :: todo) := by
  have hmiddle : ∀ {P : Raft → Prop} {r : Raft},
      (∀ q ∈ done ++ r :: todo, P q) ↔ ∀ q ∈ r :: (done ++ todo), P q :=
    forall_congr' fun q => by rw [List.perm_middle.mem_iff]
  obtain ⟨hsound, hrouted, hdry⟩ := hb
  obtain ⟨hraft, hothers⟩ := List.forall_mem_cons.1 (hmiddle.1 hsound)
  have hroute := (ht.onward hraft).route
  have hdothers := (List.forall_mem_cons.1 (hmiddle.1 hdry)).2
  -- two routes share jetties only, so where two rafts meet there is one
  have hshared : ∀ q ∈ done ++ todo, q.cell = raft.cell → raft.cell ∈ jetties := by
    intro q hq hcell
    have hmeet := (List.pairwise_middle (fun h c hc hc' => h c hc' hc)).1 hrouted.pairwise
    refine hjetties _ ((List.pairwise_cons.1 hmeet).1 q hq _ hraft.cell_mem ?_)
    rw [← hcell]
    exact (hothers q hq).cell_mem
  refine ⟨hmiddle.2 (List.forall_mem_cons.2 ⟨(ht.sails hraft).1, hothers⟩), ⟨?_, hrouted.nodup⟩, ?_⟩
  · rw [← hrouted.routes, List.map_append, List.map_append, List.map_cons, List.map_cons, hroute]
  · cases ht with
    | stay => exact hdry
    | carry _ _ _ _ => exact hmiddle.2 (dry_sail hshared hdothers rfl)
    | home _ _ _ _ _ _ => exact hmiddle.2 (dry_sail hshared hdothers rfl)

/-- All turns keep the berths, by induction on the rafts that have still to sail. -/
theorem ferryAll_berths (hjetties : ∀ c ∈ stops, c ∈ jetties) :
    ∀ {rafts rafts' done : List Raft} {h h' : Harbour},
      ferryAll jetties h rafts = .ok (h', rafts') →
      Berths rows origins stops h (done ++ rafts) → Berths rows origins stops h' (done ++ rafts') := by
  intro rafts
  induction rafts with
  | nil =>
    intro rafts' done h h' hf hb
    cases hf
    exact hb
  | cons raft rest ih =>
    intro rafts' done h h' hf hb
    obtain ⟨mid, raft', others, hturn, hrest, rfl⟩ := ferryAll_cons_cases hf
    have hmid := hturn.berths hjetties hb
    rw [List.append_cons] at hmid ⊢
    exact ih hrest hmid

end Berths

end Raft

namespace Simulation

/-- A state of a run: its board, and no raft where that board has water. -/
structure Berthed (first : Grid) (s : State) : Prop where
  /-- the board is what a run from the first one can have -/
  charted : Charted first s
  /-- its stored tiles have no water under a raft -/
  dry : Raft.Dry (Grid.storedIn s.grid.rows) s.rafts

theorem berthed_start {grid : Grid} {spawner : Spawner} {exits : List Cell}
    {maxSteps requiredSaved : Int} {s : State}
    (h : start grid spawner exits maxSteps requiredSaved = .ok s) : Berthed grid s := by
  refine ⟨charted_start h, fun raft hraft hwater => ?_⟩
  have hcell := ((afloat_start h).2.2 raft.cell).2 (List.mem_map_of_mem hraft)
  cases (Grid.mem_tiles.1 hcell).symm.trans hwater

/-- Every tick keeps this. -/
theorem berthed_tick {first : Grid} {s t : State} {orders : List (Option Action)}
    (hs : Berthed first s) (h : tick s orders = .ok t) : Berthed first t := by
  refine ⟨charted_tick hs.charted h, ?_⟩
  by_cases hrun : s.status = .running
  · obtain ⟨before, after, hstep⟩ := exists_ferryStep hrun h
    obtain ⟨harbour, hall, -, hstored⟩ := hstep.turns hs.charted.afloat
    rw [hs.charted.jetties] at hall
    have hfirst : Raft.Berths s.grid.rows (first.cellsOf (· == .raft))
        (sortStops (first.cellsOf (· == .jetty))) (.before before) ([] ++ s.rafts) :=
      ⟨hs.charted.afloat.sound, hs.charted.routed, hs.dry⟩
    have hlast := Raft.ferryAll_berths (fun c hc => (sortStops_perm _).mem_iff.1 hc) hall hfirst
    rw [hstored]
    exact hlast.dry
  · rw [tick_of_not_running hrun] at h
    cases h
    exact hs.dry

section Water

variable {s t : State} {orders : Orders} {i : Nat}

/-- Robot number `i` moves onto water in the tick, and dies there. -/
def Drowned (s : State) (orders : Orders) (t : State) (i : Nat) : Prop :=
  ∃ entry before after r r', spawnPhase s = .ok entry ∧ FerryStep s orders t before after ∧
    entry.robots[i]? = some r ∧ before[i]? = some r' ∧ r.alive = true ∧ r'.alive = false ∧
    s.grid.tile r'.cell = .water

theorem Drowned.ticks (h : Drowned s orders t i) : s.status = .running ∧ tick s orders = .ok t := by
  obtain ⟨entry, before, after, r, r', -, hstep, -⟩ := h
  exact ⟨hstep.running, hstep.tick⟩

/-- A robot that is not saved is on water. -/
def ShowsWater (s : State) : Prop :=
  ∃ r ∈ s.robots, r.saved = false ∧ s.grid.tile r.cell = .water

/-- A raft has come in the tick to where robot number `i` is. -/
def Covered (s t : State) (i : Nat) : Prop :=
  ∃ r, t.robots[i]? = some r ∧ ∃ p ∈ s.rafts.zip t.rafts, p.1.cell ≠ r.cell ∧ p.2.cell = r.cell

/-- Whoever has drowned is seen in the water at the end of the tick, unless a raft has come there. -/
theorem Drowned.shows {first : Grid} (hs : Berthed first s) (h : Drowned s orders t i) :
    ShowsWater t ∨ Covered s t i := by
  obtain ⟨entry, before, after, r, r', hspawn, hstep, hr, hr', halive, hdead, hwater⟩ := h
  have ht := berthed_tick hs hstep.tick
  -- it is not saved, since only the living are
  have hsaved : r'.saved = false := by
    obtain ⟨entry', hspawn', hbefore, -⟩ := hstep.sails
    cases hspawn.symm.trans hspawn'
    have hacted := continue_act (boardOf s entry.robots) entry.robots (occupiedCells entry.robots)
      s.globalSignal orders
    rw [actedRobots] at hbefore
    rw [← hbefore] at hacted
    obtain ⟨q, hq, hcontinues⟩ := hacted.getElem? hr
    cases hq.symm.trans hr'
    cases hsaved : r'.saved with
    | false => rfl
    | true =>
      rw [hcontinues.single (fun _ => halive) hsaved] at hdead
      cases hdead
  -- no raft lies in the water, and so none takes it away
  have hnone : ∀ raft ∈ s.rafts, raft.cell ≠ r'.cell := by
    intro raft hraft hcell
    refine hs.dry raft hraft ?_
    rw [hcell]
    exact Grid.stored_of_tile hwater Tile.noConfusion Tile.noConfusion
  have hlast : t.robots[i]? = some r' := by
    rw [hstep.settled, hstep.robots, List.getElem?_map, List.getElem?_map, hr']
    show some (markExit t.grid s.exits { r' with cell := Raft.haul s.rafts t.rafts r'.cell }) = some r'
    rw [Raft.haul_of_forall_ne hnone, markExit_of_not_blocking (by simp [Robot.blocking, hdead])]
  have hterrain := ht.charted.terrain
  have hfirst := hs.charted.terrain.tiles r'.cell
  rw [hwater] at hfirst
  rcases hfirst.of_water (hterrain.tiles r'.cell) with hstill | hraft
  · exact Or.inl ⟨r', List.mem_of_getElem? hlast, hsaved, hstill⟩
  · obtain ⟨raft, hmem, hcell⟩ := hterrain.moored r'.cell (Or.inl hraft)
    obtain ⟨k, hk, hget⟩ := List.getElem_of_mem hmem
    have hk' : k < s.rafts.length := tick_rafts_length hstep.tick ▸ hk
    refine Or.inr ⟨r', hlast, (s.rafts[k], t.rafts[k]), ?_, ?_, ?_⟩
    · rw [← List.getElem_zip (h := by rw [List.length_zip]; omega)]
      exact List.getElem_mem _
    · exact hnone _ (List.getElem_mem hk')
    · rw [hget]
      exact hcell

end Water

end Simulation

/-! ## Milestones

  Milestones are gathered by taking everything together that any state shows.  This is about any
  milestone, and those for rafts and water are two of them. -/

/-- After some states a milestone is set exactly if it was before, or one of the states shows it. -/
theorem Milestones.foldl_merge_iff (flag : Milestones → Bool)
    (hunion : ∀ m n : Milestones, flag (m.union n) = (flag m || flag n)) :
    ∀ (states : List Simulation.State) (m : Milestones), flag (states.foldl merge m) = true ↔
      flag m = true ∨ ∃ s ∈ states, flag (ofState s) = true := by
  intro states
  induction states with
  | nil => exact fun m => ⟨Or.inl, fun h => h.resolve_right fun ⟨_, hs, _⟩ => nomatch hs⟩
  | cons s rest ih =>
    intro m
    rw [List.foldl_cons, ih, merge, hunion, Bool.or_eq_true, or_assoc]
    simp only [List.mem_cons, or_and_right, exists_or, exists_eq_left]

/-- After a run a milestone is set exactly if one of its states shows it. -/
theorem Milestones.foldl_rounds_iff (flag : Milestones → Bool)
    (hunion : ∀ m n : Milestones, flag (m.union n) = (flag m || flag n)) (hnone : flag {} = false)
    (rounds : List Run) : flag ((rounds.map Run.state).foldl merge {}) = true ↔
      ∃ run ∈ rounds, flag (ofState run.state) = true := by
  rw [foldl_merge_iff flag hunion, hnone]
  simp only [Bool.false_eq_true, false_or, List.mem_map, exists_exists_and_eq_and]

namespace Simulation

theorem showsRaft_iff {s : State} : (Milestones.ofState s).raftUsed = true ↔ ShowsRaft s := by
  simp only [Milestones.ofState, ShowsRaft, List.any_eq_true, Bool.and_eq_true, beq_iff_eq]

theorem showsWater_iff {s : State} : (Milestones.ofState s).waterTouched = true ↔ ShowsWater s := by
  simp only [Milestones.ofState, ShowsWater, List.any_eq_true, Bool.and_eq_true, beq_iff_eq,
    Bool.not_eq_true']

end Simulation

namespace Run

/-- A round that is running and not idle is followed by the one that its tick leads to. -/
theorem history_tick {setup : Setup} {run : Run} {rounds : List Run} {t : Simulation.State}
    (h : history setup run = .ok rounds) (hrun : run.state.status = .running)
    (hbusy : run.idle setup = false) (ht : Simulation.tick run.state (run.orders setup) = .ok t) :
    ∃ next rest, rounds = run :: next :: rest ∧ next.state = t ∧
      history setup next = .ok (next :: rest) := by
  rcases history_cases h with ⟨hover, -⟩ | ⟨-, next, others, hnext, hothers, rfl⟩
  · exact absurd hrun hover
  · rw [advance_of_not_idle hbusy] at hnext
    obtain ⟨rest, rfl⟩ := List.head?_eq_some_iff.1 (rounds_of_history hothers).first
    exact ⟨next, rest, rfl, Except.ok.inj ((advanceFully_cases hnext).1.symm.trans ht), hothers⟩

/-- In some tick of the run this happens to some robot. -/
def Happens (setup : Setup) (rounds : List Run)
    (P : Simulation.State → Simulation.Orders → Simulation.State → Nat → Prop) : Prop :=
  ∃ a b, [a, b] <:+: rounds ∧ ∃ i, P a.state (a.orders setup) b.state i

end Run

namespace Evaluation

/-- What the milestones of a run tell of its rides and of its drownings. -/
structure Sightings (setup : Run.Setup) (rounds : List Run) (m : Milestones) : Prop where
  /-- the one flag is set by a robot in the way that is seen on a raft -/
  raft : m.raftUsed = true ↔ ∃ run ∈ rounds, Simulation.ShowsRaft run.state
  /-- the other flag is set by a robot, not saved, that is seen on water -/
  water : m.waterTouched = true ↔ ∃ run ∈ rounds, Simulation.ShowsWater run.state
  /-- a ride is seen when its tick is over, unless its rider is gone -/
  ride : ∀ a b i, [a, b] <:+: rounds → Simulation.Carried a.state (a.orders setup) b.state i →
    Simulation.ShowsRaft b.state ∨ Simulation.Gone b.state i
  /-- who has drowned is seen when the tick is over, unless a raft has come there -/
  drowning : ∀ a b i, [a, b] <:+: rounds → Simulation.Drowned a.state (a.orders setup) b.state i →
    Simulation.ShowsWater b.state ∨ Simulation.Covered a.state b.state i
  /-- all rides of a run count, exactly if those whose riders are gone do -/
  rides : (m.raftUsed = true ↔ (∃ run ∈ rounds, Simulation.ShowsRaft run.state) ∨
      Run.Happens setup rounds Simulation.Carried) ↔
    (Run.Happens setup rounds (fun s orders t i => Simulation.Carried s orders t i ∧
      Simulation.Gone t i) → m.raftUsed = true)
  /-- all drownings of a run count, exactly if those under a raft do -/
  drownings : (Run.Happens setup rounds Simulation.Drowned → m.waterTouched = true) ↔
    (Run.Happens setup rounds (fun s orders t i => Simulation.Drowned s orders t i ∧
      Simulation.Covered s t i) → m.waterTouched = true)

theorem berthed_of_rounds {level : Level} {maxTicks : Int} {state : Simulation.State}
    {setup : Run.Setup} {rounds : List Run} (hstart : level.start maxTicks = .ok state)
    (hrounds : Run.Rounds setup { state } rounds) :
    ∃ first, ∀ run ∈ rounds, Simulation.Berthed first run.state := by
  obtain ⟨grid, -, hs⟩ := Level.start_cases hstart
  exact ⟨grid, Run.history_invariant Simulation.berthed_tick
    (fun hs _ => ⟨hs.charted.given_up, hs.dry⟩) (Run.history_of_rounds hrounds)
    (Simulation.berthed_start hs)⟩

/-- What the milestones tell follows round by round, from the two lemmas on what a tick shows. -/
theorem sightings_of_berthed {setup : Run.Setup} {rounds : List Run} {first : Grid}
    (hberthed : ∀ run ∈ rounds, Simulation.Berthed first run.state) :
    Sightings setup rounds ((rounds.map Run.state).foldl Milestones.merge {}) := by
  have hraft : ((rounds.map Run.state).foldl Milestones.merge {}).raftUsed = true ↔
      ∃ run ∈ rounds, Simulation.ShowsRaft run.state := by
    rw [Milestones.foldl_rounds_iff Milestones.raftUsed (fun _ _ => rfl) rfl]
    simp only [Simulation.showsRaft_iff]
  have hwater : ((rounds.map Run.state).foldl Milestones.merge {}).waterTouched = true ↔
      ∃ run ∈ rounds, Simulation.ShowsWater run.state := by
    rw [Milestones.foldl_rounds_iff Milestones.waterTouched (fun _ _ => rfl) rfl]
    simp only [Simulation.showsWater_iff]
  -- a ride is shown by the state after it, or its rider is gone
  have hride : ∀ a b i, [a, b] <:+: rounds →
      Simulation.Carried a.state (a.orders setup) b.state i →
      Simulation.ShowsRaft b.state ∨ Simulation.Gone b.state i := fun a b i hab hcarried =>
    hcarried.shows (hberthed a (hab.subset List.mem_cons_self)).charted.afloat
  -- and a robot that drowns is shown there, or the water is covered
  have hdrowning : ∀ a b i, [a, b] <:+: rounds →
      Simulation.Drowned a.state (a.orders setup) b.state i →
      Simulation.ShowsWater b.state ∨ Simulation.Covered a.state b.state i := fun a b i hab hdrowned =>
    hdrowned.shows (hberthed a (hab.subset List.mem_cons_self))
  -- each flag tells all just if none of the exceptions happens
  refine ⟨hraft, hwater, hride, hdrowning, ⟨?_, ?_⟩, ⟨?_, ?_⟩⟩
  · rintro hall ⟨a, b, hab, i, hcarried, -⟩
    exact hall.2 (Or.inr ⟨a, b, hab, i, hcarried⟩)
  · refine fun hgone => ⟨fun h => Or.inl (hraft.1 h), ?_⟩
    rintro (hshown | ⟨a, b, hab, i, hcarried⟩)
    · exact hraft.2 hshown
    · rcases hride a b i hab hcarried with hseen | hleft
      · exact hraft.2 ⟨b, hab.subset (List.mem_cons_of_mem _ List.mem_cons_self), hseen⟩
      · exact hgone ⟨a, b, hab, i, hcarried, hleft⟩
  · rintro hall ⟨a, b, hab, i, hdrowned, -⟩
    exact hall ⟨a, b, hab, i, hdrowned⟩
  · rintro hcovered ⟨a, b, hab, i, hdrowned⟩
    rcases hdrowning a b i hab hdrowned with hseen | hunder
    · exact hwater.2 ⟨b, hab.subset (List.mem_cons_of_mem _ List.mem_cons_self), hseen⟩
    · exact hcovered ⟨a, b, hab, i, hdrowned, hunder⟩

/-- **Rides and drownings.**  The milestones of any evaluation are set by what the states of its run show.  A
ride is seen at the end of its tick unless the rider has been saved by then or is behind the last column,
and a drowned robot is seen in the water unless a raft has come over it in the same tick.  So the raft
milestone counts every ride, and the water milestone every drowning, exactly if they are set in runs in
which such a thing happens. -/
theorem evaluate_sightings {program : Program} {level : Level} {options : Options} {r : Result}
    (h : evaluate program level options = .ok r) : ∃ state rounds,
      level.start (options.maxTicks.getD Simulation.defaultMaxSteps) = .ok state ∧
      Run.Rounds (setupOf program options state) { state } rounds ∧
      Sightings (setupOf program options state) rounds r.milestones := by
  obtain ⟨state, before, last, hstart, hhistory, rfl⟩ := exists_rounds h
  have hrounds := Run.rounds_of_history hhistory
  obtain ⟨first, hberthed⟩ := berthed_of_rounds hstart hrounds
  exact ⟨state, before ++ [last], hstart, hrounds, sightings_of_berthed hberthed⟩

/-- A raft in front of the robots, and a jetty behind it. -/
def ferryLane (robots : Int) (exits : List Cell) : Level :=
  { grid := [[0, 7, 8]], spawner := { pose := ⟨⟨0, 0⟩, 1⟩, count := robots }, exits, requiredSaved := robots }

/-- A robot rides to the jetty, where nobody is saved, and the ride is seen. -/
theorem evaluate_sightings_ferryLane :
    ∃ (r : Result) (state : Simulation.State) (rounds : List Run),
      evaluate twoSteps (ferryLane 1 []) {} = .ok r ∧
      Run.Rounds (setupOf twoSteps {} state) { state } rounds ∧
      Sightings (setupOf twoSteps {} state) rounds r.milestones ∧ r.milestones.raftUsed = true ∧
      ∃ run ∈ rounds, Simulation.ShowsRaft run.state := by
  obtain ⟨r, hr, hused⟩ := exists_of_evaluate_eq
    (show ((evaluate twoSteps (ferryLane 1 []) {}).map fun r => r.milestones.raftUsed).toOption
      = some true by decide +kernel)
  obtain ⟨state, rounds, -, hrounds, hsightings⟩ := evaluate_sightings hr
  exact ⟨r, state, rounds, hr, hrounds, hsightings, hused, hsightings.raft.1 hused⟩

/-- Two robots step forward, and an exit is at the jetty.  In the first tick one of them boards the raft,
sails and is saved.  In the second tick the other one drowns in the water that the raft has left, and the
raft comes home.  No state of the run shows a raft in use, or a robot in the water. -/
theorem not_sighted_between_ticks :
    ∃ (r : Result) (state : Simulation.State) (rounds : List Run),
      evaluate twoSteps (ferryLane 2 [⟨2, 0⟩]) {} = .ok r ∧
      Run.Rounds (setupOf twoSteps {} state) { state } rounds ∧
      Run.Happens (setupOf twoSteps {} state) rounds Simulation.Carried ∧
      Run.Happens (setupOf twoSteps {} state) rounds Simulation.Drowned ∧
      r.milestones.raftUsed = false ∧ r.milestones.waterTouched = false := by
  obtain ⟨state, rounds, hstart, hhistory, hshown⟩ := exists_history_of_eq
    (show (((ferryLane 2 [⟨2, 0⟩]).start 200).bind fun state =>
      ((Run.history (setupOf twoSteps {} state) { state }).map fun rounds =>
        (rounds.map (Run.orders ⟨twoSteps, 200⟩),
          (rounds.map Run.state).foldl Milestones.merge {})).mapError Level.StartFault.run).toOption
        = some ([[some .moveForward, some .moveForward], [none, some .moveForward], [none, none]],
          { anySaved := true }) by decide +kernel)
  obtain ⟨s, t, u, hs, hlimit, hcarried, hdrowned, hbusy, hbusy'⟩ : ∃ s t u,
      (ferryLane 2 [⟨2, 0⟩]).start 200 = .ok s ∧ s.maxSteps = 200 ∧
      Simulation.Carried s [some .moveForward, some .moveForward] t 0 ∧
      Simulation.Drowned t [none, some .moveForward] u 1 ∧
      Simulation.isIdle s [some .moveForward, some .moveForward] = false ∧
      Simulation.isIdle t [none, some .moveForward] = false := by
    refine ⟨_, _, _, rfl, rfl, ⟨_, _, _, _, ⟨rfl, rfl, _, rfl, rfl, rfl⟩, rfl, rfl, rfl, ?_⟩,
      ⟨_, _, _, _, _, rfl, ⟨rfl, rfl, _, rfl, rfl, rfl⟩, rfl, rfl, rfl, rfl, rfl⟩, rfl, rfl⟩
    decide
  obtain rfl : s = state := Except.ok.inj (hs.symm.trans hstart)
  have hsetup : setupOf twoSteps {} s = ⟨twoSteps, 200⟩ := congrArg (Run.Setup.mk twoSteps) hlimit
  rw [hsetup] at hhistory
  -- the rounds are known up to the third, tick by tick
  obtain ⟨horders, hmilestones⟩ := Prod.mk.inj hshown
  obtain ⟨tail, rfl⟩ := List.head?_eq_some_iff.1 (Run.rounds_of_history hhistory).first
  obtain ⟨hfirst, horders⟩ := List.cons.inj horders
  obtain ⟨hrun, htick⟩ := hcarried.ticks
  rw [← hfirst] at hbusy htick
  obtain ⟨b, rest, hrounds, rfl, hlater⟩ := Run.history_tick hhistory hrun hbusy htick
  obtain ⟨-, rfl⟩ := List.cons.inj hrounds
  obtain ⟨hsecond, -⟩ := List.cons.inj horders
  obtain ⟨hrun', htick'⟩ := hdrowned.ticks
  rw [← hsecond] at hbusy' htick'
  obtain ⟨c, rest', hrounds', rfl, -⟩ := Run.history_tick hlater hrun' hbusy' htick'
  obtain ⟨-, rfl⟩ := List.cons.inj hrounds'
  obtain ⟨before, last, hends, -, -⟩ := Run.history_ends hhistory
  have hresult := evaluate_of_history twoSteps hstart (by rw [hsetup, hhistory, hends])
  rw [← hends] at hresult
  refine ⟨_, s, { state := s } :: b :: c :: rest', hresult, ?_⟩
  rw [hsetup]
  refine ⟨Run.rounds_of_history hhistory, ⟨_, b, ⟨[], c :: rest', rfl⟩, 0, ?_⟩,
    ⟨b, c, ⟨[_], rest', rfl⟩, 1, ?_⟩, ?_, ?_⟩
  · rw [hfirst]
    exact hcarried
  · rw [hsecond]
    exact hdrowned
  · exact congrArg Milestones.raftUsed hmilestones
  · exact congrArg Milestones.waterTouched hmilestones

end Evaluation

end RobotPuzzle
