/-
  Which doors open without a plate that is seen pressed.

  Doors unlock when a plate is pressed, and a plate is looked at three times: before the first tick, behind
  the entry of a tick and at its end.  The milestones look at the states between the ticks only.

  1. **Unlocking** — after a tick the doors are unlocked if they were open before it, or a robot has entered
     on a plate, or a plate is pressed when it is over (`doorUnlocked_tick_iff`).
  2. **The entrant** — nobody tells a robot what to do in the tick it enters in, and no raft comes to a
     plate.  So it is on its plate still when the tick is over, and presses it, unless the plate is an exit
     as well and the tick has saved it (`pressed_or_slips`).
  3. **Runs** — so a run sees an open door exactly if it sees a plate pressed, or if in some tick a robot
     enters on a plate that is an exit (`evaluate_presses`).

  The crux is the tick in which a robot enters.  It is the only one in which a plate can be pressed and
  released again between two looks at it, and it is released only by saving the robot, for nothing else
  moves a robot that has just come.

  The flags of an evaluation are set from the states between ticks.  What happens within a tick is told by
  `SlipsIn`: a robot that enters on a plate which is an exit.  The theorem makes both visible, what the
  flags show and what they leave out, and ends with the condition under which the two flags agree.
-/
import RobotPuzzle.Proofs.Outlook
import RobotPuzzle.Proofs.Sightings

namespace RobotPuzzle

namespace Simulation

section Tick

variable {s t : State} {orders : Orders} {entry : Entry} {i : Nat}

/-! ## Unlocking

  Unlocking is for good, so it is enough to say what unlocks the doors in one tick. -/

/-- Doors are open if they have been unlocked or a plate is pressed. -/
theorem isDoorOpen_iff : s.isDoorOpen = true ↔ s.doorUnlocked = true ∨ s.isPlatePressed = true :=
  Bool.or_eq_true_iff

/-- What has unlocked the doors when a tick is over. -/
theorem doorUnlocked_tick_iff (hrun : s.status = .running) (h : tick s orders = .ok t)
    (hspawn : spawnPhase s = .ok entry) : t.doorUnlocked = true ↔
      s.isDoorOpen = true ∨ EntersOnPlate s entry ∨ t.isPlatePressed = true := by
  obtain ⟨entry', grid, ferried, rafts, hspawn', -, rfl⟩ := tick_eq_settle hrun h
  cases hspawn.symm.trans hspawn'
  rw [← or_assoc, ← doorOpen_entry_iff hspawn]
  exact Bool.or_eq_true_iff

/-! ## The entrant

  What happens to a robot in the tick in which it enters: it has no orders, since these are drawn up
  before; it may be ferried, but only from a raft; and it may be saved. -/

/-- Robot number `i` enters on a plate that is an exit as well. -/
structure SlipsIn (s : State) (orders : Orders) (t : State) (i : Nat) : Prop where
  /-- the run goes on -/
  running : s.status = .running
  /-- the tick goes through -/
  tick : tick s orders = .ok t
  /-- the robot enters in it -/
  enters : entering? s = some i
  /-- where it enters is a plate -/
  plate : s.grid.tile (s.spawner.poseOf i).cell = .plate
  /-- and an exit, so that it is saved in the same tick -/
  exit : isExit s.grid s.exits (s.spawner.poseOf i).cell = true

/-- Who slips in unlocks the doors. -/
theorem SlipsIn.doorUnlocked (h : SlipsIn s orders t i) : t.doorUnlocked = true := by
  obtain ⟨entry, grid, ferried, rafts, hspawn, -, -⟩ := tick_eq_settle h.running h.tick
  refine (doorUnlocked_tick_iff h.running h.tick hspawn).2 (Or.inr (Or.inl ?_))
  rcases spawnPhase_cases hspawn with ⟨hnone, -⟩ | ⟨index, r, hindex, henter, rfl⟩
  · cases hnone.symm.trans h.enters
  · cases hindex.symm.trans h.enters
    obtain ⟨heading, -, rfl⟩ := enter_cases henter
    exact ⟨_, rfl, h.plate⟩

/-- No raft comes to a plate. -/
theorem Charted.cell_ne_of_plate {first : Grid} {c : Cell} (hs : Charted first s)
    (hplate : s.grid.tile c = .plate) : ∀ raft ∈ s.rafts, raft.cell ≠ c := by
  rintro raft hraft rfl
  have hcell := (hs.afloat.sound raft hraft).cell_mem
  have hstored := hs.tiles raft.cell
  rw [Grid.stored_of_tile hplate Tile.noConfusion Tile.noConfusion] at hstored
  rcases hs.routed.docks raft hraft raft.cell hcell with hdock | hdock
  · rw [Grid.mem_tiles.1 hdock] at hstored
    cases hstored with
    | some h => cases h.plate_iff.1 rfl
  · rw [Grid.mem_tiles.1 hdock] at hstored
    cases hstored with
    | some h => cases h.plate_iff.1 rfl

/-- A plate is an exit only if it is named as one, and so it stays. -/
theorem isExit_plate {grid grid' : Grid} {exits : List Cell} {c : Cell} (h : grid.tile c = .plate)
    (h' : grid'.tile c = .plate) : isExit grid' exits c = isExit grid exits c := by
  unfold isExit
  rw [h, h']

/-- A robot that has entered on a plate presses it when the tick is over, unless it has slipped in.  The
orders are those of the robots that were there before it. -/
theorem pressed_or_slips {first : Grid} (hs : Charted first s) (hrun : s.status = .running)
    (h : tick s orders = .ok t) (horders : orders.length = s.robots.length)
    (hspawn : spawnPhase s = .ok entry) (hplate : EntersOnPlate s entry) :
    t.isPlatePressed = true ∨ ∃ i, SlipsIn s orders t i := by
  obtain ⟨p, hentry, hpress⟩ := hplate
  have ht := charted_tick hs h
  obtain ⟨before, after, hstep⟩ := exists_ferryStep hrun h
  have hp : p.blocking = true ∧ ∃ index, entering? s = some index ∧
      p.cell = (s.spawner.poseOf index).cell := by
    rcases spawnPhase_cases hspawn with ⟨-, rfl⟩ | ⟨index, r, hindex, henter, rfl⟩
    · exact absurd (congrArg List.length hentry) (by simp)
    · cases List.append_cancel_left hentry
      obtain ⟨heading, -, rfl⟩ := enter_cases henter
      exact ⟨rfl, index, hindex, rfl⟩
  obtain ⟨hb, index, hindex, hcell⟩ := hp
  cases hexit : isExit s.grid s.exits p.cell with
  | true =>
    rw [hcell] at hpress hexit
    exact Or.inr ⟨index, hrun, h, hindex, hpress, hexit⟩
  | false =>
    have hmark : ∀ {grid : Grid}, grid.tile p.cell = .plate → markExit grid s.exits p = p := by
      intro grid hgrid
      rw [markExit, isExit_plate hpress hgrid, hexit, Bool.and_false]
      rfl
    -- nobody has told it what to do
    have hacted : before[s.robots.length]? = some p := by
      obtain ⟨entry', hspawn', rfl, -⟩ := hstep.sails
      cases hspawn.symm.trans hspawn'
      have hlast : entry.robots[s.robots.length]? = some p := by
        rw [hentry, List.getElem?_append_right (Nat.le_refl _), Nat.sub_self]
        rfl
      have hnone : orders[s.robots.length]?.join = none := by
        rw [List.getElem?_eq_none (Nat.le_of_eq horders)]
        rfl
      rw [actedRobots, acted_getElem? s.globalSignal hlast, hnone]
      exact congrArg some (hmark hpress)
    -- and no raft takes it elsewhere
    have hlater : t.grid.tile p.cell = .plate :=
      (ht.terrain.tiles p.cell).plate_iff.2 ((hs.terrain.tiles p.cell).plate_iff.1 hpress)
    have hend : t.robots[s.robots.length]? = some p := by
      rw [hstep.settled, hstep.robots, List.getElem?_map, List.getElem?_map, hacted]
      show some (markExit t.grid s.exits { p with cell := Raft.haul s.rafts t.rafts p.cell }) = some p
      rw [Raft.haul_of_forall_ne (hs.cell_ne_of_plate hpress)]
      exact congrArg some (hmark hlater)
    refine Or.inl (List.any_eq_true.2 ⟨p, List.mem_of_getElem? hend, ?_⟩)
    rw [hb, hlater]
    rfl

end Tick

end Simulation

/-! ## Runs

  The milestones gather what each state shows.  So the statement about a run is a statement about the
  states up to some round, and it is carried from round to round with the rounds before. -/

namespace Run

/-- Open doors have been unlocked by a plate that one of the rounds so far shows pressed, or by a robot that
has slipped in. -/
structure Accounted (setup : Setup) (first : Grid) (before : List Run) (run : Run) : Prop where
  /-- the board is that of the run -/
  charted : Simulation.Charted first run.state
  /-- open doors have one of the two reasons -/
  doors : run.state.isDoorOpen = true → (∃ q ∈ before ++ [run], q.state.isPlatePressed = true) ∨
    Happens setup (before ++ [run]) Simulation.SlipsIn

theorem orders_length (setup : Setup) (run : Run) :
    (run.orders setup).length = run.state.robots.length := by
  rw [orders, List.length_map, asked, ask_length]

theorem Happens.mono {setup : Setup} {rounds rounds' : List Run}
    {P : Simulation.State → Simulation.Orders → Simulation.State → Nat → Prop}
    (h : Happens setup rounds P) (hsub : rounds <:+: rounds') : Happens setup rounds' P := by
  obtain ⟨a, b, hab, hP⟩ := h
  exact ⟨a, b, hab.trans hsub, hP⟩

/-- **One round** keeps the account: what unlocks the doors in it is seen at once, or is a robot that has
slipped in. -/
theorem accounted_advance {setup : Setup} {first : Grid} {before : List Run} {run next : Run}
    (h : Accounted setup first before run) (hrun : run.state.status = .running)
    (hnext : run.advance setup = .ok next) : Accounted setup first (before ++ [run]) next := by
  -- what was seen before is seen still
  have hearlier : run.state.isDoorOpen = true →
      (∃ q ∈ before ++ [run] ++ [next], q.state.isPlatePressed = true) ∨
        Happens setup (before ++ [run] ++ [next]) Simulation.SlipsIn := fun hopen =>
    (h.doors hopen).imp (fun ⟨q, hq, hpressed⟩ => ⟨q, List.mem_append_left _ hq, hpressed⟩)
      fun hslips => hslips.mono (List.prefix_append _ _).isInfix
  have hnow : next.state.isPlatePressed = true →
      (∃ q ∈ before ++ [run] ++ [next], q.state.isPlatePressed = true) ∨
        Happens setup (before ++ [run] ++ [next]) Simulation.SlipsIn := fun hpressed =>
    Or.inl ⟨next, List.mem_append_right _ List.mem_cons_self, hpressed⟩
  -- giving up changes nothing but the status
  cases hidle : run.idle setup with
  | true =>
    rw [advance_of_idle hidle] at hnext
    cases hnext
    exact ⟨h.charted.given_up, hearlier⟩
  | false =>
    rw [advance_of_not_idle hidle] at hnext
    have htick := (advanceFully_cases hnext).1
    refine ⟨Simulation.charted_tick h.charted htick, fun hopen => ?_⟩
    rcases Simulation.isDoorOpen_iff.1 hopen with hunlocked | hpressed
    · obtain ⟨entry, -, -, -, hspawn, -, -⟩ := Simulation.tick_eq_settle hrun htick
      -- the doors were open before, or a plate was pressed on the way in, or it is pressed now
      rcases (Simulation.doorUnlocked_tick_iff hrun htick hspawn).1 hunlocked with
        hopen | hplate | hpressed
      · exact hearlier hopen
      · rcases Simulation.pressed_or_slips h.charted hrun htick (orders_length setup run) hspawn hplate
          with hpressed | ⟨i, hslips⟩
        · exact hnow hpressed
        · refine Or.inr ⟨run, next, ⟨before, [], ?_⟩, i, hslips⟩
          rw [List.append_nil, List.append_assoc]
          rfl
      · exact hnow hpressed
    · exact hnow hpressed

end Run

namespace Evaluation

/-- What the milestones of a run tell of its doors and of its plates. -/
structure Presses (setup : Run.Setup) (rounds : List Run) (m : Milestones) : Prop where
  /-- a plate is reported exactly if some state shows it pressed -/
  plate : m.platePressed = true ↔ ∃ run ∈ rounds, run.state.isPlatePressed = true
  /-- an open door, exactly if a plate is reported or a robot has slipped in -/
  door : m.doorOpened = true ↔
    m.platePressed = true ∨ Run.Happens setup rounds Simulation.SlipsIn
  /-- an open door stands for a plate that was seen pressed, exactly if it does for whoever slips in -/
  agree : (m.doorOpened = true ↔ m.platePressed = true) ↔
    (Run.Happens setup rounds Simulation.SlipsIn → m.platePressed = true)

/-- At the start the doors are open only if a plate is pressed. -/
theorem accounted_of_start {level : Level} {maxTicks : Int} {state : Simulation.State}
    (setup : Run.Setup) (hstart : level.start maxTicks = .ok state) :
    ∃ first, Run.Accounted setup first [] { state } := by
  obtain ⟨grid, -, hs⟩ := Level.start_cases hstart
  have hcharted := Simulation.charted_start hs
  obtain ⟨entered, hstarted⟩ := Simulation.start_cases hs
  refine ⟨grid, hcharted, fun hopen => Or.inl ⟨{ state }, List.mem_cons_self, ?_⟩⟩
  -- before the first tick the doors are unlocked only by a plate that is pressed
  have hsame : state.doorUnlocked = state.isPlatePressed := by
    rw [hstarted.state]
    rfl
  rcases Simulation.isDoorOpen_iff.1 hopen with hunlocked | hpressed
  · exact hsame.symm.trans hunlocked
  · exact hpressed

/-- What the milestones of a run tell is what its rounds have shown. -/
theorem presses_of_accounted {setup : Run.Setup} {first : Grid} {run : Run} {rounds : List Run}
    (hhistory : Run.history setup run = .ok rounds) (hrun : Run.Accounted setup first [] run) :
    Presses setup rounds ((rounds.map Run.state).foldl Milestones.merge {}) := by
  have hplate := Milestones.foldl_rounds_iff Milestones.platePressed (fun _ _ => rfl) rfl rounds
  have hdoor := Milestones.foldl_rounds_iff Milestones.doorOpened (fun _ _ => rfl) rfl rounds
  have hiff : ((rounds.map Run.state).foldl Milestones.merge {}).doorOpened = true ↔
      ((rounds.map Run.state).foldl Milestones.merge {}).platePressed = true ∨
        Run.Happens setup rounds Simulation.SlipsIn := by
    rw [hdoor, hplate]
    constructor
    · rintro ⟨r, hr, hopen⟩
      -- the account of the round that shows an open door
      obtain ⟨past, after, rfl⟩ := List.append_of_mem hr
      have haccounted : Run.Accounted setup first ([] ++ past) r :=
        Run.history_traces Run.accounted_advance hhistory hrun
      have hprefix : ([] ++ past) ++ [r] <+: past ++ r :: after := ⟨after, by simp⟩
      exact (haccounted.doors hopen).imp
        (fun ⟨q, hq, hpressed⟩ => ⟨q, hprefix.subset hq, hpressed⟩)
        fun hslips => hslips.mono hprefix.isInfix
    · rintro (⟨r, hr, hpressed⟩ | ⟨a, b, hab, i, hslips⟩)
      · exact ⟨r, hr, Simulation.isDoorOpen_iff.2 (Or.inr hpressed)⟩
      · exact ⟨b, hab.subset (List.mem_cons_of_mem _ List.mem_cons_self),
          Simulation.isDoorOpen_iff.2 (Or.inl hslips.doorUnlocked)⟩
  -- the two flags differ just by the robots that have slipped in
  refine ⟨hplate, hiff, ?_⟩
  rw [hiff]
  exact ⟨fun h hslips => h.1 (Or.inr hslips), fun h => ⟨fun hor => hor.elim id h, Or.inl⟩⟩

/-- **Doors and plates.**  An evaluation reports an open door exactly if it reports a pressed plate, or if in
some tick of its run a robot has entered on a plate that is an exit as well: that plate is pressed when the
robot enters, and not any more when the tick is over. -/
theorem evaluate_presses {program : Program} {level : Level} {options : Options} {r : Result}
    (h : evaluate program level options = .ok r) : ∃ state rounds,
      level.start (options.maxTicks.getD Simulation.defaultMaxSteps) = .ok state ∧
      Run.Rounds (setupOf program options state) { state } rounds ∧
      Presses (setupOf program options state) rounds r.milestones := by
  obtain ⟨state, before, last, hstart, hhistory, rfl⟩ := exists_rounds h
  obtain ⟨first, haccounted⟩ := accounted_of_start (setupOf program options state) hstart
  exact ⟨state, before ++ [last], hstart, Run.rounds_of_history hhistory,
    presses_of_accounted hhistory haccounted⟩

/-- A robot in front of a plate. -/
def plateLane : Level := { grid := [[0, 4]], spawner := { pose := ⟨⟨0, 0⟩, 1⟩ } }

/-- A robot steps onto a plate, which opens the doors and is seen pressed. -/
theorem evaluate_presses_plateLane :
    ∃ (r : Result) (state : Simulation.State) (rounds : List Run),
      evaluate [.act .moveForward] plateLane {} = .ok r ∧
      Run.Rounds (setupOf [.act .moveForward] {} state) { state } rounds ∧
      Presses (setupOf [.act .moveForward] {} state) rounds r.milestones ∧
      r.milestones.doorOpened = true ∧ ∃ run ∈ rounds, run.state.isPlatePressed = true := by
  obtain ⟨r, hr, hpressed⟩ := exists_of_evaluate_eq
    (show ((evaluate [.act .moveForward] plateLane {}).map
      fun r => r.milestones.platePressed).toOption = some true by decide +kernel)
  obtain ⟨state, rounds, -, hrounds, hpresses⟩ := evaluate_presses hr
  exact ⟨r, state, rounds, hr, hrounds, hpresses, hpresses.door.2 (Or.inl hpressed),
    hpresses.plate.1 hpressed⟩

/-- A single cell that is a plate and an exit, for two robots that enter one after the other. -/
def turnstile : Level :=
  { grid := [[4]], spawner := { pose := ⟨⟨0, 0⟩, 1⟩, count := 2, interval := 1 }, exits := [⟨0, 0⟩],
    requiredSaved := 2 }

/-- The first robot is saved before its plate is looked at.  The second one opens the doors, and is saved in
the same tick. -/
theorem not_pressed_of_doorOpened :
    ∃ r, evaluate [] turnstile {} = .ok r ∧ r.milestones.doorOpened = true ∧
      r.milestones.platePressed = false := by
  obtain ⟨r, hr, hmilestones⟩ := exists_of_evaluate_eq
    (show ((evaluate [] turnstile {}).map
      fun r => (r.milestones.doorOpened, r.milestones.platePressed)).toOption = some (true, false) by
        decide +kernel)
  exact ⟨r, hr, congrArg Prod.fst hmilestones, congrArg Prod.snd hmilestones⟩

end Evaluation

end RobotPuzzle
