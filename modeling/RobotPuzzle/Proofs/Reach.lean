/-
  The states that a run can reach, and what each phase of a tick can do.

  `Reaches s t` says that ticks lead from `s` to `t`.  What holds at the start and is kept by every tick
  holds in every state reached (`Reaches.invariant`); so a statement about all states of all runs needs
  one look at the start and one look at a tick.

  The look at a tick goes through the inversion lemmas of this module, one for each phase:
  `start_cases`, `tick_cases`, `spawnPhase_cases`, `ferry_cases`, `ferryAll_cons_cases` and
  `ferryOne_cases` say everything that the phase can have done when it goes through, guards included.

  The lemmas are made for one use: a proof about ticks opens a phase with its inversion lemma, finds one
  case for each thing the phase can do, and looks at the state behind it.  No later module unfolds a phase
  again.  For the ferry step there is one more layer, since it goes through the rafts one after another:
  what every turn keeps, all turns keep (`Raft.ferryAll_invariant`).

  The lemmas in this module are inversions, one for each function of a tick: what it returns, and under
  which conditions.  The invariants of all other modules are proved from them, so that a change to a phase
  of the tick has to be met here and in the invariants that are about it.
-/
import RobotPuzzle.Replay

namespace RobotPuzzle

/-- A step and what follows it both went through. -/
theorem bind_eq_ok {ε α β : Type} {x : Except ε α} {f : α → Except ε β} {b : β}
    (h : x >>= f = .ok b) : ∃ a, x = .ok a ∧ f a = .ok b := by
  cases x with
  | error e => cases h
  | ok a => exact ⟨a, rfl, h⟩

/-! ## The ferry step

  `Raft.Turn` is the specification of one raft's turn.  It leaves out why a raft stays: a blocked stop, no
  rider and nothing to go back to, or a route of one stop all look alike from outside. -/

/-- What a raft can do on its turn. -/
inductive Raft.Turn (jetties : List Cell) (h : Harbour) (raft : Raft) : Harbour → Raft → Prop
  /-- it stays where it is -/
  | stay : Turn jetties h raft h raft
  /-- it goes on to its next stop, with all robots on its cell -/
  | carry {there} (hlen : 2 ≤ raft.route.length) (hrider : h.hasRider raft.cell = true)
      (hstop : raft.stop? ((raft.dock + 1) % raft.route.length) = some there)
      (hfree : there ∉ h.occupied ∨ there = raft.cell) :
      Turn jetties h raft ((h.sail jetties raft.cell there).carry raft.cell there)
        { raft with
          cell := there, dock := (raft.dock + 1) % raft.route.length, back := some raft.dock }
  /-- it goes back to the stop it remembers, without riders -/
  | home {back there} (hlen : 2 ≤ raft.route.length) (hrider : h.hasRider raft.cell = false)
      (hback : raft.back = some back) (hdock : back ≠ raft.dock) (hstop : raft.stop? back = some there)
      (hfree : there ∉ h.occupied) :
      Turn jetties h raft (h.sail jetties raft.cell there)
        { raft with cell := there, dock := back, back := none }

/-- A raft has somewhere to go back to only if it remembers a stop, and another one than where it lies. -/
theorem Raft.pending_eq_some {raft : Raft} {back : Int} (h : raft.pending = some back) :
    raft.back = some back ∧ back ≠ raft.dock := by
  unfold Raft.pending at h
  split at h
  · rename_i b hb
    split at h
    · cases h
    · rename_i hne
      cases h
      exact ⟨hb, hne⟩
  · cases h

/-- A turn that goes through is one of the three.  The cases follow the order in which the turn asks: the
length of the route, then riders, then the stop it remembers, then whether the stop is free. -/
theorem Raft.ferryOne_cases {jetties : List Cell} {h h' : Harbour} {raft raft' : Raft}
    (hf : raft.ferryOne jetties h = .ok (h', raft')) : raft.Turn jetties h h' raft' := by
  unfold Raft.ferryOne at hf
  split at hf
  · cases hf
    exact .stay
  · -- with two stops or more the raft may sail: it is asked first who is on board
    rename_i hlen
    split at hf
    · rename_i hrider
      simp only [Raft.sailWithRiders] at hf
      split at hf
      · cases hf
      · rename_i there hstop
        split at hf
        · cases hf
          exact .stay
        · rename_i hfree
          cases hf
          refine .carry (by omega) hrider hstop ?_
          -- the way is free if nobody is there, or if the raft lies there itself
          by_cases hc : there = raft.cell
          · exact Or.inr hc
          · exact Or.inl fun hmem => hfree ⟨hmem, hc⟩
    · rename_i hrider
      split at hf
      · rename_i back hp
        -- nobody on board, and a stop to go back to
        obtain ⟨hback, hdock⟩ := Raft.pending_eq_some hp
        simp only [Raft.sailAlone] at hf
        split at hf
        · cases hf
        · rename_i there hstop
          split at hf
          · cases hf
            exact .stay
          · rename_i hfree
            cases hf
            exact .home (by omega) (by simpa using hrider) hback hdock hstop hfree
      · cases hf
        exact .stay

/-- The ferry step of several rafts is the turn of the first and the ferry step of the others behind it.
-/
theorem Raft.ferryAll_cons_cases {jetties : List Cell} {h h' : Harbour} {raft : Raft}
    {rest rafts : List Raft} (hf : Raft.ferryAll jetties h (raft :: rest) = .ok (h', rafts)) :
    ∃ mid raft' others, raft.Turn jetties h mid raft' ∧
      Raft.ferryAll jetties mid rest = .ok (h', others) ∧ rafts = raft' :: others := by
  rw [Raft.ferryAll] at hf
  obtain ⟨⟨mid, raft'⟩, hone, hf⟩ := bind_eq_ok hf
  obtain ⟨⟨last, others⟩, hrest, hf⟩ := bind_eq_ok hf
  cases hf
  exact ⟨mid, raft', others, ferryOne_cases hone, hrest, rfl⟩

/-- What every turn of a sound raft keeps, all turns together keep; the rafts stay sound. -/
theorem Raft.ferryAll_invariant {jetties : List Cell} {P : Harbour → Prop} {Q : Raft → Prop}
    (hturn : ∀ {h h' : Harbour} {raft raft' : Raft}, P h → Q raft → raft.Turn jetties h h' raft' →
      P h' ∧ Q raft') :
    ∀ {rafts rafts' : List Raft} {h h' : Harbour},
      Raft.ferryAll jetties h rafts = .ok (h', rafts') → P h → (∀ raft ∈ rafts, Q raft) →
      P h' ∧ ∀ raft ∈ rafts', Q raft := by
  intro rafts
  induction rafts with
  | nil =>
    intro rafts' h h' hf hP hQ
    cases hf
    exact ⟨hP, hQ⟩
  | cons raft rest ih =>
    intro rafts' h h' hf hP hQ
    obtain ⟨mid, raft', others, hone, hrest, rfl⟩ := Raft.ferryAll_cons_cases hf
    obtain ⟨hmid, hraft'⟩ := hturn hP (hQ raft List.mem_cons_self) hone
    obtain ⟨hlast, hothers⟩ := ih hrest hmid fun r hr => hQ r (List.mem_cons_of_mem _ hr)
    exact ⟨hlast, List.forall_mem_cons.2 ⟨hraft', hothers⟩⟩

/-- No raft is lost, and none is added. -/
theorem Raft.ferryAll_length {jetties : List Cell} :
    ∀ {rafts rafts' : List Raft} {h h' : Harbour},
      Raft.ferryAll jetties h rafts = .ok (h', rafts') → rafts'.length = rafts.length := by
  intro rafts
  induction rafts with
  | nil =>
    intro rafts' h h' hf
    cases hf
    rfl
  | cons raft rest ih =>
    intro rafts' h h' hf
    obtain ⟨mid, raft', others, -, hrest, rfl⟩ := Raft.ferryAll_cons_cases hf
    rw [List.length_cons, List.length_cons, ih hrest]

/-- The harbour before the first turn. -/
def Harbour.before (robots : List Robot) : Harbour :=
  { robots, occupied := occupiedCells robots, changes := [] }

/-- The ferry step starts with the cells of the blocking robots occupied and nothing to paint, and paints
at the end. -/
theorem ferry_cases {grid grid' : Grid} {robots robots' : List Robot} {rafts rafts' : List Raft}
    {jetties : List Cell} (hf : ferry grid robots rafts jetties = .ok (grid', robots', rafts')) :
    ∃ h, Raft.ferryAll jetties (.before robots) rafts = .ok (h, rafts') ∧
      grid.paint h.changes = .ok grid' ∧ robots' = h.robots := by
  unfold ferry at hf
  obtain ⟨⟨h, others⟩, hall, hf⟩ := bind_eq_ok hf
  dsimp only at hf
  cases hp : grid.paint h.changes with
  | error fault =>
    rw [hp] at hf
    cases hf
  | ok painted =>
    rw [hp] at hf
    cases hf
    exact ⟨h, hall, hp, rfl⟩

namespace Simulation

/-! ## Entry

  At most one robot enters in a tick.  Who it is and whether it may are settled before the robot is made,
  so that a robot is made only if it enters. -/

/-- A robot enters alive, not yet saved, on the cell of its pose. -/
theorem enter_cases {spawner : Spawner} {index : Nat} {r : Robot}
    (h : enter spawner index = .ok r) :
    ∃ heading, Direction.ofNumber? (spawner.poseOf index).heading = some heading ∧
      r = { id := robotName index, cell := (spawner.poseOf index).cell, heading } := by
  simp only [enter] at h
  split at h
  · rename_i heading hh
    cases h
    exact ⟨heading, hh, rfl⟩
  · cases h

/-- An entry is due only while robots are left to enter. -/
theorem lt_of_spawnDue {s : State} (h : spawnDue s = true) : s.spawnedCount < s.spawner.count := by
  unfold spawnDue at h
  rw [Bool.and_eq_true, Bool.and_eq_true] at h
  exact of_decide_eq_true h.1.1

/-- Somebody enters only when an entry is due and nobody blocks the cell of the pose. -/
theorem entering?_cases {s : State} {index : Nat} (h : entering? s = some index) :
    index = s.spawnedCount.toNat ∧ spawnDue s = true ∧
      (s.spawner.poseOf index).cell ∉ occupiedCells s.robots := by
  simp only [entering?] at h
  split at h
  · rename_i hd
    cases h
    simpa using hd
  · cases h

/-- The entry of a tick: nobody, or the next robot behind all others, with the next entry due one interval
later. -/
theorem spawnPhase_cases {s : State} {entry : Entry} (h : spawnPhase s = .ok entry) :
    (entering? s = none ∧ entry = ⟨s.robots, s.spawnedCount, s.nextSpawnTick⟩) ∨
      ∃ index r, entering? s = some index ∧ enter s.spawner index = .ok r ∧
        entry = ⟨s.robots ++ [r], s.spawnedCount + 1,
          s.nextSpawnTick.map (· + s.spawner.interval)⟩ := by
  unfold spawnPhase at h
  split at h
  · rename_i hn
    cases h
    exact Or.inl ⟨hn, rfl⟩
  · rename_i index hs
    obtain ⟨r, he, h⟩ := bind_eq_ok h
    cases h
    exact Or.inr ⟨index, r, hs, he, rfl⟩

/-! ## The start

  At the start all first robots enter at once, without asking whether their cells are free.  Whoever is
  put on an exit is saved before the first tick. -/

/-- A state before the first tick: everything but the status is read off the board and the spawner. -/
structure Started (grid : Grid) (spawner : Spawner) (exits : List Cell)
    (maxSteps requiredSaved : Int) (entered : List Robot) (s : State) : Prop where
  /-- the first robots can enter -/
  enter : enterMany spawner 0 (initialCount spawner) = .ok entered
  /-- and the rest is read off -/
  state : s =
    { grid, robots := entered.map (markExit grid exits), spawner, exits, maxSteps, requiredSaved
      status := if requiredSaved ≤ (entered.map (markExit grid exits)).countP Robot.saved then .won
        else .running
      spawnedCount := initialCount spawner
      nextSpawnTick := firstSpawnTick spawner
      doorUnlocked := platePressed grid (entered.map (markExit grid exits))
      rafts := initialRafts grid (grid.cellsOf (· == .jetty))
      jetties := grid.cellsOf (· == .jetty) }

/-- The start fails only when a robot fails to enter; otherwise the state is the one that `Started` spells
out. -/
theorem start_cases {grid : Grid} {spawner : Spawner} {exits : List Cell}
    {maxSteps requiredSaved : Int} {s : State}
    (h : start grid spawner exits maxSteps requiredSaved = .ok s) :
    ∃ entered, Started grid spawner exits maxSteps requiredSaved entered s := by
  unfold start at h
  obtain ⟨entered, he, h⟩ := bind_eq_ok h
  refine ⟨entered, he, ?_⟩
  unfold State.savedCount at h
  dsimp only at h
  split at h
  · rename_i hw
    cases h
    simp only [hw, if_true]
  · rename_i hw
    cases h
    simp only [hw, if_false]

/-! ## The tick -/

/-- A tick either leaves a state that is not running as it is, or goes through its phases. -/
theorem tick_cases {s t : State} {actions : List (Option Action)} (h : tick s actions = .ok t) :
    (s.status ≠ .running ∧ t = s) ∨
      (s.status = .running ∧ ∃ entry grid ferried rafts,
        spawnPhase s = .ok entry ∧
        ferry s.grid (actedRobots s entry actions).1 s.rafts s.jetties = .ok (grid, ferried, rafts) ∧
        t = settle s entry (actedRobots s entry actions).2 grid ferried rafts) := by
  by_cases hr : s.status = .running
  · exact Or.inr ⟨hr, tick_eq_settle hr h⟩
  · rw [tick_of_not_running hr] at h
    cases h
    exact Or.inl ⟨hr, rfl⟩

/-! ## Runs

  Runs are told from their end, since invariants go forward.  The list of orders of a replay is told from
  its beginning; `Reaches.of_statesAfter` connects the two. -/

/-- Ticks, with whatever actions, lead from the first state to the second. -/
inductive Reaches (s : State) : State → Prop
  /-- no tick at all -/
  | here : Reaches s s
  /-- one tick more -/
  | tick {t u : State} {actions : List (Option Action)} (before : Reaches s t)
      (step : tick t actions = .ok u) : Reaches s u

/-- What every tick keeps holds in every state reached. -/
theorem Reaches.invariant {P : State → Prop}
    (hstep : ∀ {t u : State} {actions : List (Option Action)}, P t →
      Simulation.tick t actions = .ok u → P u)
    {s t : State} (h : Reaches s t) (hs : P s) : P t := by
  induction h with
  | here => exact hs
  | tick before step ih => exact hstep ih step

/-- Two states of one run: they agree in all that no tick changes. -/
structure SameRules (s t : State) : Prop where
  /-- where and when robots enter -/
  spawner : t.spawner = s.spawner
  /-- where they are saved -/
  exits : t.exits = s.exits
  /-- how long the run may be -/
  maxSteps : t.maxSteps = s.maxSteps
  /-- the quota -/
  requiredSaved : t.requiredSaved = s.requiredSaved
  /-- where rafts may stop -/
  jetties : t.jetties = s.jetties

theorem sameRules_tick {s t : State} {actions : List (Option Action)}
    (h : Simulation.tick s actions = .ok t) : SameRules s t := by
  rcases tick_cases h with ⟨-, rfl⟩ | ⟨-, entry, grid, ferried, rafts, -, -, rfl⟩
  · exact ⟨rfl, rfl, rfl, rfl, rfl⟩
  · exact ⟨rfl, rfl, rfl, rfl, rfl⟩

theorem SameRules.trans {s t u : State} (h : SameRules s t) (h' : SameRules t u) : SameRules s u :=
  ⟨h'.spawner.trans h.spawner, h'.exits.trans h.exits, h'.maxSteps.trans h.maxSteps,
    h'.requiredSaved.trans h.requiredSaved, h'.jetties.trans h.jetties⟩

theorem Reaches.sameRules {s t : State} (h : Reaches s t) : SameRules s t :=
  h.invariant (P := SameRules s) (fun hs hstep => hs.trans (sameRules_tick hstep))
    ⟨rfl, rfl, rfl, rfl, rfl⟩

theorem Reaches.trans {s t u : State} (h : Reaches s t) (h' : Reaches t u) : Reaches s u := by
  induction h' with
  | here => exact h
  | tick before step ih => exact .tick ih step

/-- A run of one tick more is that tick and the run behind it. -/
theorem statesAfter_cons_cases {s : State} {orders : Orders} {rest : List Orders}
    {states : List State} (h : statesAfter s (orders :: rest) = .ok states) :
    ∃ t others, Simulation.tick s orders = .ok t ∧ statesAfter t rest = .ok others ∧
      states = t :: others := by
  obtain ⟨t, ht, h⟩ := bind_eq_ok h
  obtain ⟨others, hothers, h⟩ := bind_eq_ok h
  cases h
  exact ⟨t, others, ht, hothers, rfl⟩

/-- The states of a replay are reached. -/
theorem Reaches.of_statesAfter {log : List Orders} {s t : State} {states : List State}
    (h : statesAfter s log = .ok states) (ht : t ∈ states) : Reaches s t := by
  induction log generalizing s states with
  | nil =>
    cases h
    cases ht
  | cons orders rest ih =>
    obtain ⟨u, others, hu, hothers, rfl⟩ := statesAfter_cons_cases h
    have hone : Reaches s u := .tick .here hu
    rcases List.mem_cons.1 ht with rfl | hmem
    · exact hone
    · exact hone.trans (ih hothers hmem)

end Simulation

end RobotPuzzle
