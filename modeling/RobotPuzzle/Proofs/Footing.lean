/-
  Where robots stand.

  1. **Standing** — no robot stands on wall, none on a door before the doors are unlocked, and none that
     still blocks on hazard or water (`Robot.Stands`).  A tile that is `firm` carries everybody at any
     time.
  2. **Even boards** — the rows of a level that has been read have one length, so the tile of a cell is
     the stored one, and painting moves no border.
  3. **The actions** — a robot goes only to cells that are not closed, and dies on lethal ones
     (`stands_act`).
  4. **The ferry step** — a raft that sails with riders leaves nobody behind, and one that sails alone
     leaves nobody who blocks; both arrive under a raft tile.  What a raft leaves behind is water only
     where it was made, and there nobody enters (`Raft.Turn.safe`).
  5. **Runs** — all of this at once is kept by every tick (`placed_tick`), and the footing of the robots
     follows (`reaches_footing`).

  The crux is the water behind a raft.  A raft that leaves the cell where it was made leaves water there,
  and whoever enters on that cell would enter to drown.  So the invariant has to speak of cells on which
  nobody stands yet: on every cell where a robot is to enter the ground is firm, and every raft leaves
  water only where nobody is to enter (`KeepsClear`).  That is why entering on a raft has to be excluded
  at the start, even though a raft carries whoever stands on it.

  The entry cells are the one assumption, and it is about the board as it is at the start: no wall, no
  door, nothing lethal, and no raft, since a raft may leave.  All else is a consequence: that robots stay
  inside needs that the way out is a wall to them, that nobody stands on a closed door needs that doors do
  not close again, and so on; each of these is kept by a tick on its own.
-/
import RobotPuzzle.Proofs.Fleet
import RobotPuzzle.Proofs.Idle
import RobotPuzzle.Proofs.Levels
import RobotPuzzle.Proofs.Occupancy

namespace RobotPuzzle

/-! ## Standing

  Standing is a relation between a robot, whether the doors are unlocked, and a tile.  Dead and saved
  robots may stand on hazard and water, since that is where they died or were carried to. -/

/-- Everybody may stand on the tile at any time. -/
def Tile.firm : Tile → Bool
  | .wall => false
  | .door => false
  | .hazard => false
  | .water => false
  | _ => true

/-- A tile is firm unless it is one of the four that are not; a raft is firm as well, but it may leave. -/
theorem Tile.firm_of_notMem {t : Tile} (h : t ∉ [.wall, .door, .hazard, .water, .raft]) :
    t.firm = true := by
  cases t with
  | wall => exact absurd (by decide) h
  | door => exact absurd (by decide) h
  | hazard => exact absurd (by decide) h
  | water => exact absurd (by decide) h
  | empty => rfl
  | goal => rfl
  | plate => rfl
  | raft => rfl
  | jetty => rfl

namespace Robot

/-- The robot may stand on the tile. -/
structure Stands (r : Robot) (unlocked : Bool) (t : Tile) : Prop where
  /-- nobody stands in a wall -/
  wall : t ≠ .wall
  /-- nor in a door that has not been unlocked -/
  door : t = .door → unlocked = true
  /-- and whoever blocks lives -/
  alive : r.blocking = true → t.lethal = false

/-- On a firm tile everybody may stand at any time. -/
theorem Stands.of_firm {t : Tile} (h : t.firm = true) (r : Robot) (unlocked : Bool) :
    r.Stands unlocked t := by
  cases t with
  | wall => cases h
  | door => cases h
  | hazard => cases h
  | water => cases h
  | empty => exact ⟨Tile.noConfusion, fun h => Tile.noConfusion h, fun _ => rfl⟩
  | goal => exact ⟨Tile.noConfusion, fun h => Tile.noConfusion h, fun _ => rfl⟩
  | plate => exact ⟨Tile.noConfusion, fun h => Tile.noConfusion h, fun _ => rfl⟩
  | raft => exact ⟨Tile.noConfusion, fun h => Tile.noConfusion h, fun _ => rfl⟩
  | jetty => exact ⟨Tile.noConfusion, fun h => Tile.noConfusion h, fun _ => rfl⟩

theorem Stands.unlock {r : Robot} {unlocked later : Bool} {t : Tile} (h : r.Stands unlocked t)
    (hl : unlocked = true → later = true) : r.Stands later t :=
  ⟨h.wall, fun hd => hl (h.door hd), h.alive⟩

/-- A robot that blocks only if another does may stand where the other may. -/
theorem Stands.of_blocking {r r' : Robot} {unlocked : Bool} {t : Tile} (h : r.Stands unlocked t)
    (hb : r'.blocking = true → r.blocking = true) : r'.Stands unlocked t :=
  ⟨h.wall, h.door, fun hr => h.alive (hb hr)⟩

end Robot

/-- Some robot enters on the cell, now or later. -/
def Spawner.Uses (spawner : Spawner) (c : Cell) : Prop :=
  ∃ index : Nat, (index : Int) < spawner.count ∧ (spawner.poseOf index).cell = c

/-! ## The actions -/

/-- A step forward is not made, or leads into death, or leads on. -/
theorem Robot.advance_cases (grid : Grid) (blocked : Cell → Bool) (r : Robot) :
    r.advance grid blocked = r ∨
      (blocked (r.cell.step r.heading) = false ∧
        (grid.tile (r.cell.step r.heading)).lethal = true ∧
        r.advance grid blocked = { r with cell := r.cell.step r.heading, alive := false }) ∨
      (blocked (r.cell.step r.heading) = false ∧
        (grid.tile (r.cell.step r.heading)).lethal = false ∧
        r.advance grid blocked = { r with cell := r.cell.step r.heading }) := by
  cases hc : blocked (r.cell.step r.heading) with
  | true => exact Or.inl (by simp [advance, hc])
  | false =>
    cases hl : (grid.tile (r.cell.step r.heading)).lethal with
    | true => exact Or.inr (Or.inl ⟨rfl, rfl, by simp [advance, hc, hl]⟩)
    | false => exact Or.inr (Or.inr ⟨rfl, rfl, by simp [advance, hc, hl]⟩)

/-- An action takes a robot only where it may stand, or kills it there.  Only going forward changes the
cell, and what is not blocked is no wall and no closed door. -/
theorem Robot.Stands.apply {grid : Grid} {blocked : Cell → Bool} {unlocked : Bool} {r : Robot}
    (hopen : ∀ c, blocked c = false →
      grid.tile c ≠ .wall ∧ (grid.tile c = .door → unlocked = true))
    (h : r.Stands unlocked (grid.tile r.cell)) (action : Action) :
    (r.apply grid blocked action).Stands unlocked
      (grid.tile (r.apply grid blocked action).cell) := by
  cases hb : r.blocking with
  | false =>
    rw [apply_of_not_blocking hb]
    exact h
  | true =>
    -- a robot that stays on its cell stands there as before
    have hsame : ∀ r' : Robot, r'.cell = r.cell → r'.Stands unlocked (grid.tile r'.cell) := by
      intro r' hcell
      rw [hcell]
      exact h.of_blocking fun _ => hb
    unfold Robot.apply
    rw [if_pos hb]
    cases action with
    | moveForward =>
      show (r.advance grid blocked).Stands unlocked (grid.tile (r.advance grid blocked).cell)
      rcases r.advance_cases grid blocked with hstay | ⟨hc, -, hdies⟩ | ⟨hc, hl, hgoes⟩
      · rw [hstay]
        exact h
      · obtain ⟨hwall, hdoor⟩ := hopen _ hc
        -- it dies where it goes, and a dead robot may lie on any open tile
        rw [hdies]
        exact ⟨hwall, hdoor, fun halive => by simp [blocking] at halive⟩
      · obtain ⟨hwall, hdoor⟩ := hopen _ hc
        -- it lives, so the tile is not lethal
        rw [hgoes]
        exact ⟨hwall, hdoor, fun _ => hl⟩
    | turnLeft => exact hsame _ rfl
    | turnRight => exact hsame _ rfl
    | wait => exact hsame _ rfl
    | signalOn => exact hsame _ rfl
    | signalOff => exact hsame _ rfl

namespace Simulation

/-- Being saved moves nobody. -/
theorem markExit_cell (grid : Grid) (exits : List Cell) (r : Robot) :
    (markExit grid exits r).cell = r.cell := by
  unfold markExit
  split
  · rfl
  · rfl

/-- Nor does it take anybody's footing: who is saved no longer blocks, so less is asked of the tile. -/
theorem stands_markExit {grid : Grid} {r : Robot} {unlocked : Bool}
    (h : r.Stands unlocked (grid.tile r.cell)) (other : Grid) (exits : List Cell) :
    (markExit other exits r).Stands unlocked (grid.tile (markExit other exits r).cell) := by
  rw [markExit_cell]
  refine h.of_blocking fun hb => ?_
  rw [markExit_blocking hb] at hb
  exact hb

/-- The robots that see a board. -/
def Board.Carries (board : Board) (r : Robot) : Prop :=
  r.Stands board.doorOpen (board.grid.tile r.cell)

/-- An action and the look at the exits behind it leave a robot on its feet. -/
theorem carries_actOne {board : Board} {r : Robot} (h : board.Carries r) (occupied : List Cell)
    (action : Action) : board.Carries (actOne board occupied r action) := by
  refine stands_markExit (Robot.Stands.apply (fun c hc => ?_) h action) board.grid board.exits
  have hclosed : board.closed c = false := (Bool.or_eq_false_iff.1 hc).2
  simp only [Board.closed, Bool.or_eq_false_iff, beq_eq_false_iff_ne] at hclosed
  refine ⟨hclosed.1, fun hdoor => ?_⟩
  simpa [hdoor] using hclosed.2

/-- The board carries the robots after their actions if it did before.  Each robot is looked at on its
own, since what the others do changes only which cells are occupied. -/
theorem stands_act (board : Board) :
    ∀ (robots : List Robot) (occupied : List Cell) (signal : Bool) (actions : List (Option Action)),
      (∀ r ∈ robots, board.Carries r) →
      ∀ r ∈ (actPhase board occupied signal robots actions).1, board.Carries r := by
  intro robots
  induction robots with
  | nil =>
    intro occupied signal actions _ r hr
    cases hr
  | cons q rest ih =>
    intro occupied signal actions h r hr
    obtain ⟨hq, hrest⟩ := List.forall_mem_cons.1 h
    rw [actPhase] at hr
    cases ha : actions.head?.join with
    | none =>
      rw [ha] at hr
      rcases List.mem_cons.1 hr with rfl | hr
      · -- a robot without an order may still be saved where it stands
        exact stands_markExit hq board.grid board.exits
      · exact ih _ _ _ hrest r hr
    | some action =>
      rw [ha] at hr
      rcases List.mem_cons.1 hr with rfl | hr
      · exact carries_actOne hq _ action
      · exact ih _ _ _ hrest r hr

end Simulation

/-! ## The ferry step

  Safe is said of a harbour in the middle of the step, with the display in place of the board.  A turn
  changes the display of two cells: the one it leaves, where nobody who blocks is left behind, and the one
  it comes to, where whoever stands is under a raft then. -/

/-- The tile on display for a cell, wall where the board has none. -/
def Grid.shown (rows : List (List Tile)) (changes : Grid.Changes) (c : Cell) : Tile :=
  (Grid.display rows changes c).getD .wall

/-- What is shown after a raft has sailed. -/
theorem Grid.shown_sail (rows : List (List Tile)) (jetties : List Cell) (h : Harbour)
    (here there c : Cell) : Grid.shown rows (h.sail jetties here there).changes c =
      if there = c then .raft
      else if here = c then (if here ∈ jetties then .jetty else .water)
      else Grid.shown rows h.changes c := by
  unfold Grid.shown
  rw [Grid.display_sail]
  split
  · rfl
  · split
    · rfl
    · rfl

/-- The robots of a harbour stand well, and where robots enter the ground is firm. -/
structure Harbour.Safe (rows : List (List Tile)) (spawner : Spawner) (unlocked : Bool)
    (h : Harbour) : Prop where
  /-- the robots stand on what is shown now -/
  robots : ∀ r ∈ h.robots, r.Stands unlocked (Grid.shown rows h.changes r.cell)
  /-- where robots enter, nothing lethal is shown -/
  entries : ∀ c, spawner.Uses c → (Grid.shown rows h.changes c).firm = true

/-- A raft leaves water behind only where no robot enters. -/
def Raft.KeepsClear (spawner : Spawner) (jetties : List Cell) (raft : Raft) : Prop :=
  ∀ c ∈ raft.route, c ∈ jetties ∨ ¬ spawner.Uses c

section Turn

variable {rows : List (List Tile)} {spawner : Spawner} {unlocked : Bool} {jetties : List Cell}
  {h h' : Harbour} {raft raft' : Raft}

/-- The ground stays firm where robots enter: a raft that leaves such a cell lies at a jetty, since it
leaves water only elsewhere. -/
theorem firm_sail (hs : raft.Sound rows) (hk : raft.KeepsClear spawner jetties)
    (hsafe : h.Safe rows spawner unlocked) (there c : Cell) (hc : spawner.Uses c) :
    (Grid.shown rows (h.sail jetties raft.cell there).changes c).firm = true := by
  rw [Grid.shown_sail]
  split
  · rfl
  · split
    · -- robots enter where the raft has left: it was at a jetty
      rename_i hhere
      have hjetty : raft.cell ∈ jetties :=
        (hk raft.cell hs.cell_mem).resolve_right fun hn => hn (hhere ▸ hc)
      rw [if_pos hjetty]
      rfl
    · exact hsafe.entries c hc

/-- A robot that is not where a raft leaves stands as before, or under the raft. -/
theorem stands_sail {r : Robot} (hr : r.Stands unlocked (Grid.shown rows h.changes r.cell))
    {here : Cell} (there : Cell) (hne : here ≠ r.cell) :
    r.Stands unlocked (Grid.shown rows (h.sail jetties here there).changes r.cell) := by
  rw [Grid.shown_sail, if_neg hne]
  split
  · exact .of_firm rfl r unlocked
  · exact hr

/-- A turn keeps everybody safe.  With riders, those on the raft's cell go with it and the others stand
where they stood, or under the raft; alone, the raft has nobody who blocks on its cell. -/
theorem Raft.Turn.safe (hs : raft.Sound rows) (hk : raft.KeepsClear spawner jetties)
    (hsafe : h.Safe rows spawner unlocked) (ht : raft.Turn jetties h h' raft') :
    h'.Safe rows spawner unlocked ∧ raft'.KeepsClear spawner jetties := by
  cases ht with
  | stay => exact ⟨hsafe, hk⟩
  | @carry there _ _ _ _ =>
    refine ⟨⟨fun r hr => ?_, firm_sail hs hk hsafe there⟩, hk⟩
    obtain ⟨q, hq, rfl⟩ := List.mem_map.1 hr
    show Robot.Stands _ unlocked (Grid.shown rows (h.sail jetties raft.cell there).changes _)
    by_cases hhere : q.cell = raft.cell
    · -- a rider is under the raft
      rw [if_pos hhere, Grid.shown_sail, if_pos rfl]
      exact .of_firm rfl _ unlocked
    · rw [if_neg hhere]
      exact stands_sail (hsafe.robots q hq) there (Ne.symm hhere)
  | @home back there _ hrider _ _ _ _ =>
    refine ⟨⟨fun r hr => ?_, firm_sail hs hk hsafe there⟩, hk⟩
    by_cases hhere : raft.cell = r.cell
    · -- whoever stays behind does not block
      have hgone : r.blocking = false := by
        cases hb : r.blocking with
        | false => rfl
        | true =>
          have hon : h.hasRider raft.cell = true :=
            List.any_eq_true.2 ⟨r, hr, by simp [hb, hhere]⟩
          rw [hrider] at hon
          cases hon
      have hdead : r.blocking = true → ∀ t : Tile, t.lethal = false := fun hb => by
        rw [hgone] at hb
        cases hb
      rw [Grid.shown_sail, if_pos hhere]
      split
      · exact .of_firm rfl r unlocked
      · split
        · exact .of_firm rfl r unlocked
        · exact ⟨Tile.noConfusion, fun h => Tile.noConfusion h, fun hb => hdead hb _⟩
    · exact stands_sail (hsafe.robots r hr) there hhere

end Turn

/-- The ferry step keeps robots on their feet, and the ground firm where robots enter. -/
theorem ferry_safe {grid grid' : Grid} {robots robots' : List Robot} {rafts rafts' : List Raft}
    {jetties : List Cell} {spawner : Spawner} {unlocked : Bool} (heven : Grid.EvenRows grid.rows)
    (hs : ∀ raft ∈ rafts, raft.Sound grid.rows)
    (hk : ∀ raft ∈ rafts, raft.KeepsClear spawner jetties)
    (hrobots : ∀ r ∈ robots, r.Stands unlocked (grid.tile r.cell))
    (hentries : ∀ c, spawner.Uses c → (grid.tile c).firm = true)
    (hf : ferry grid robots rafts jetties = .ok (grid', robots', rafts')) :
    Grid.EvenRows grid'.rows ∧ (∀ raft ∈ rafts', raft.KeepsClear spawner jetties) ∧
      (∀ r ∈ robots', r.Stands unlocked (grid'.tile r.cell)) ∧
      ∀ c, spawner.Uses c → (grid'.tile c).firm = true := by
  obtain ⟨h, hall, hpaint, rfl⟩ := ferry_cases hf
  obtain ⟨hp, -⟩ := Raft.ferryAll_paintable hs hall
  have hbefore : ∀ c, grid.tile c = Grid.shown grid.rows [] c := Grid.tile_of_even heven
  have hstart : (Harbour.before robots).Safe grid.rows spawner unlocked :=
    ⟨fun r hr => hbefore r.cell ▸ hrobots r hr, fun c hc => hbefore c ▸ hentries c hc⟩
  have hturn : ∀ {h h' : Harbour} {raft raft' : Raft}, h.Safe grid.rows spawner unlocked →
      raft.Sound grid.rows ∧ raft.KeepsClear spawner jetties → raft.Turn jetties h h' raft' →
      h'.Safe grid.rows spawner unlocked ∧
        raft'.Sound grid.rows ∧ raft'.KeepsClear spawner jetties := by
    rintro h h' raft raft' hsafe ⟨hs, hk⟩ ht
    obtain ⟨hsafe', hk'⟩ := ht.safe hs hk hsafe
    exact ⟨hsafe', (ht.sails hs).1, hk'⟩
  obtain ⟨hsafe, hrafts⟩ :=
    Raft.ferryAll_invariant hturn hall hstart fun raft hr => ⟨hs raft hr, hk raft hr⟩
  have heven' : Grid.EvenRows grid'.rows := heven.of_lengths (Grid.paint_lengths hpaint)
  -- after the painting the board holds what was on display
  have hafter : ∀ c, grid'.tile c = Grid.shown grid.rows h.changes c := fun c => by
    rw [Grid.tile_of_even heven', Grid.storedIn_paint hp.nodup hp.stored hpaint]
    rfl
  refine ⟨heven', fun raft hr => (hrafts raft hr).2, fun r hr => ?_, fun c hc => ?_⟩
  · rw [hafter]
    exact hsafe.robots r hr
  · rw [hafter]
    exact hsafe.entries c hc

namespace Simulation

/-! ## Runs

  `Placed` collects what the phases need of each other.  The count of those who have entered is in it
  since the index of the next robot is read off that count as a natural number. -/

/-- What every state of a run has, from the start on: even boards, sound rafts that keep clear of where
robots enter, firm ground there, and robots that stand well. -/
structure Placed (s : State) : Prop where
  /-- the board is even -/
  even : Grid.EvenRows s.grid.rows
  /-- the rafts are sound -/
  afloat : Afloat s
  /-- pressed plates have unlocked the doors -/
  settled : Settled s
  /-- rafts keep clear of where robots enter -/
  clear : ∀ raft ∈ s.rafts, raft.KeepsClear s.spawner s.jetties
  /-- there the ground is firm -/
  entries : ∀ c, s.spawner.Uses c → (s.grid.tile c).firm = true
  /-- every robot stands well -/
  robots : ∀ r ∈ s.robots, r.Stands s.doorUnlocked (s.grid.tile r.cell)
  /-- the count of robots is a number of robots -/
  counted : 0 ≤ s.spawnedCount

/-- The robots at the start stand on the cells of their poses. -/
theorem enterMany_cells {spawner : Spawner} :
    ∀ {count first : Nat} {robots : List Robot}, enterMany spawner first count = .ok robots →
      ∀ r ∈ robots, ∃ index, index < first + count ∧ r.cell = (spawner.poseOf index).cell := by
  intro count
  induction count with
  | zero =>
    intro first robots h r hr
    cases h
    cases hr
  | succ count ih =>
    intro first robots h r hr
    obtain ⟨q, hq, h⟩ := bind_eq_ok h
    obtain ⟨others, hothers, h⟩ := bind_eq_ok h
    cases h
    rcases List.mem_cons.1 hr with rfl | hr
    · -- the first one to enter takes the first place of the count
      obtain ⟨heading, -, rfl⟩ := enter_cases hq
      exact ⟨first, by omega, rfl⟩
    · obtain ⟨index, hindex, hcell⟩ := ih hothers r hr
      exact ⟨index, by omega, hcell⟩

/-- Whoever enters at the start is among those who are to enter. -/
theorem initialCount_le {spawner : Spawner} {index : Nat} (h : index < initialCount spawner) :
    (index : Int) < spawner.count := by
  obtain ⟨-, hle, -⟩ := initialCount_bounds spawner
  omega

/-- A run starts well if robots enter on firm ground that is no raft. -/
theorem placed_start {grid : Grid} {spawner : Spawner} {exits : List Cell}
    {maxSteps requiredSaved : Int} {s : State} (heven : Grid.EvenRows grid.rows)
    (hfirm : ∀ c, spawner.Uses c → (grid.tile c).firm = true)
    (hraft : ∀ c, spawner.Uses c → grid.tile c ≠ .raft)
    (h : start grid spawner exits maxSteps requiredSaved = .ok s) : Placed s := by
  obtain ⟨hafloat, -⟩ := afloat_start h
  have hsettled := settled_start h
  obtain ⟨entered, hs⟩ := start_cases h
  rw [hs.state] at hafloat hsettled ⊢
  refine ⟨heven, hafloat, hsettled, fun raft hr c hc => ?_, hfirm, fun r hr => ?_, ?_⟩
  · -- a stop is a jetty, or the cell where the raft was made
    obtain ⟨origin, horigin, rfl⟩ := List.mem_map.1 hr
    rcases List.mem_cons.1 ((buildRoute_perm origin _).mem_iff.1 hc) with rfl | hc
    · refine Or.inr fun huses => hraft c huses ?_
      rw [Grid.tile_of_even heven, Grid.mem_tiles.1 horigin]
      rfl
    · exact Or.inl (List.mem_filter.1 hc).1
  · obtain ⟨q, hq, rfl⟩ := List.mem_map.1 hr
    obtain ⟨index, hindex, hcell⟩ := enterMany_cells hs.enter q hq
    refine stands_markExit (Robot.Stands.of_firm (hfirm q.cell ?_) q _) grid exits
    exact ⟨index, initialCount_le (by omega), hcell.symm⟩
  · exact Int.natCast_nonneg _

/-- A tick keeps all of it.  Entry is on firm ground, the actions keep the footing on the board of the
tick, the ferry step keeps it on the painted board, and unlocking doors on the way takes nobody's. -/
theorem placed_tick {s t : State} {actions : List (Option Action)} (hs : Placed s)
    (h : tick s actions = .ok t) : Placed t := by
  have hafloat := (afloat_tick hs.afloat h).1
  have hsettled := settled_tick hs.settled h
  rcases tick_cases h with ⟨-, rfl⟩ | ⟨-, entry, grid, ferried, rafts, hspawn, hferry, rfl⟩
  · exact hs
  · -- whoever enters does so on firm ground
    have hentry : 0 ≤ entry.spawnedCount ∧
        ∀ r ∈ entry.robots, r.Stands s.doorUnlocked (s.grid.tile r.cell) := by
      rcases spawnPhase_cases hspawn with ⟨-, rfl⟩ | ⟨index, r, hin, henter, rfl⟩
      · exact ⟨hs.counted, hs.robots⟩
      · obtain ⟨rfl, hdue, -⟩ := entering?_cases hin
        obtain ⟨heading, -, rfl⟩ := enter_cases henter
        have hcounted := hs.counted
        refine ⟨by show 0 ≤ s.spawnedCount + 1; omega, fun q hq => ?_⟩
        rcases List.mem_append.1 hq with hq | hq
        · exact hs.robots q hq
        · rw [List.mem_singleton] at hq
          subst hq
          refine .of_firm (hs.entries _ ⟨s.spawnedCount.toNat, ?_, rfl⟩) _ _
          have hleft := lt_of_spawnDue hdue
          omega
    have hcarried : ∀ r ∈ entry.robots, (boardOf s entry.robots).Carries r := fun r hr =>
      (hentry.2 r hr).unlock fun hd => by simp [boardOf, hd]
    have hacted := stands_act (boardOf s entry.robots) entry.robots (occupiedCells entry.robots)
      s.globalSignal actions hcarried
    obtain ⟨heven, hclear, hferried, hentries⟩ :=
      ferry_safe hs.even hs.afloat.sound hs.clear hacted hs.entries hferry
    refine ⟨heven, hafloat, hsettled, hclear, hentries, fun r hr => ?_, hentry.1⟩
    obtain ⟨q, hq, rfl⟩ := List.mem_map.1 hr
    refine stands_markExit ((hferried q hq).unlock fun hopen => ?_) grid s.exits
    -- doors that were open during the actions are unlocked after the tick
    show (s.doorUnlocked || platePressed s.grid entry.robots || _) = true
    rw [Bool.or_eq_true]
    exact Or.inl hopen

/-- How the robots of a state stand. -/
structure Footing (s : State) : Prop where
  /-- every robot is on the board, dead or not, and in no wall -/
  inside : ∀ r ∈ s.robots, s.grid.contains r.cell = true ∧ s.grid.tile r.cell ≠ .wall
  /-- a door with a robot on it is unlocked -/
  doors : ∀ r ∈ s.robots, s.grid.tile r.cell = .door → s.doorUnlocked = true
  /-- who blocks is on nothing lethal -/
  alive : ∀ r ∈ s.robots, r.blocking = true →
    s.grid.tile r.cell ≠ .hazard ∧ s.grid.tile r.cell ≠ .water
  /-- a plate under such a robot has unlocked the doors -/
  plates : ∀ r ∈ s.robots, r.blocking = true → s.grid.tile r.cell = .plate → s.doorUnlocked = true

/-- What is to be shown of the robots, read off the invariant.  A plate under a robot that blocks has
unlocked the doors by the end of the tick, as the state is settled. -/
theorem Placed.footing {s : State} (h : Placed s) : Footing s := by
  refine ⟨fun r hr => ⟨?_, (h.robots r hr).wall⟩, fun r hr => (h.robots r hr).door,
    fun r hr hb => ⟨fun ht => ?_, fun ht => ?_⟩, fun r hr hb ht => ?_⟩
  · cases hc : s.grid.contains r.cell with
    | true => rfl
    | false => exact absurd (Grid.tile_of_not_contains hc) (h.robots r hr).wall
  · have hl := (h.robots r hr).alive hb
    rw [ht] at hl
    cases hl
  · have hl := (h.robots r hr).alive hb
    rw [ht] at hl
    cases hl
  · exact h.settled.doors (List.any_eq_true.2 ⟨r, hr, by simp [hb, ht]⟩)

/-- **Where robots stand.**  In a level that has been read, let every robot enter inside the board and not
on wall, door, hazard, water or raft.  Then in every state of every run all robots are inside the board
and not on wall, a door with a robot on it is unlocked, no robot that still blocks is on hazard or water,
and a plate with such a robot on it has unlocked the doors. -/
theorem reaches_footing {v : Json} {level : Level} {maxTicks : Int} {s : State}
    (hlevel : Level.ofJson v = .ok level) (hstart : level.start maxTicks = .ok s)
    (hentries : ∀ index : Nat, (index : Int) < level.spawner.count →
      s.grid.contains (level.spawner.poseOf index).cell = true ∧
        s.grid.tile (level.spawner.poseOf index).cell ∉ [.wall, .door, .hazard, .water, .raft]) :
    ∀ t, Reaches s t → Footing t := by
  intro t ht
  obtain ⟨grid, hgrid, hs⟩ := Level.start_cases hstart
  have heven : Grid.EvenRows grid.rows :=
    (Level.evenRows_ofJson hlevel).of_lengths (Grid.ofIds_lengths hgrid)
  obtain ⟨entered, hstarted⟩ := start_cases hs
  have hboard : s.grid = grid := by rw [hstarted.state]
  -- an entry cell is one of the poses of the spawner, for which the tiles are excluded
  have hground : ∀ c, level.spawner.Uses c →
      grid.tile c ∉ [.wall, .door, .hazard, .water, .raft] := by
    rintro c ⟨index, hindex, rfl⟩
    rw [← hboard]
    exact (hentries index hindex).2
  have hplaced : Placed s := by
    refine placed_start heven (fun c hc => ?_) (fun c hc hraft => ?_) hs
    · exact Tile.firm_of_notMem (hground c hc)
    · have hc := hground c hc
      -- a raft tile is none of the tiles to enter on
      rw [hraft] at hc
      exact hc (by decide)
  exact (ht.invariant (P := Placed) placed_tick hplaced).footing

/-- A board with a raft and a jetty, and two robots that enter one after the other. -/
def ferryLevel : Json :=
  .obj [("grid", .arr [.arr [.int 0, .int 7, .int 8]]),
    ("spawner", .obj [("x", .int 0), ("y", .int 0), ("dir", .int 1), ("count", .int 2),
      ("intervalTicks", .int 1)])]

/-- The first robot sails to the jetty, the second walks into the water where the raft was, and the raft
comes back with the first. -/
theorem reaches_footing_drowned :
    ∃ level s t u, Level.ofJson ferryLevel = .ok level ∧ level.start 200 = .ok s ∧
      statesAfter s [[some .moveForward], [none, some .moveForward]] = .ok [t, u] ∧
      u.robots.map (fun r => (r.cell, r.alive)) = [(⟨1, 0⟩, true), (⟨1, 0⟩, false)] ∧
      Footing u := by
  obtain ⟨level, s, t, u, hlevel, hs, hrun, hspawner, hgrid, hcells⟩ : ∃ level s t u,
      Level.ofJson ferryLevel = .ok level ∧ level.start 200 = .ok s ∧
      statesAfter s [[some .moveForward], [none, some .moveForward]] = .ok [t, u] ∧
      level.spawner = { pose := ⟨⟨0, 0⟩, 1⟩, count := 2, interval := 1 } ∧
      s.grid = ⟨[[.empty, .raft, .jetty]]⟩ ∧
      u.robots.map (fun r => (r.cell, r.alive)) = [(⟨1, 0⟩, true), (⟨1, 0⟩, false)] :=
    ⟨_, _, _, _, rfl, rfl, rfl, rfl, rfl, rfl⟩
  refine ⟨level, s, t, u, hlevel, hs, hrun, hcells, ?_⟩
  refine reaches_footing hlevel hs (fun index _ => ?_) u (.of_statesAfter hrun (by simp))
  -- both robots enter at the same pose
  have hpose : level.spawner.poseOf index = ⟨⟨0, 0⟩, 1⟩ := by
    rw [hspawner]
    rfl
  rw [hpose, hgrid]
  decide

end Simulation

end RobotPuzzle
