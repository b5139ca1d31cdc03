/-
  No two blocking robots ever stand on one cell.

  1. **The cells** — `Exclusive robots` says that the cells of the blocking robots are pairwise distinct.
     A robot enters only where no blocking robot stands (`exclusive_spawn`).
  2. **The actions** — while the robots act, the cells of those that have acted and of those that have
     not are distinct and all of them are among the occupied cells.  The occupied cells may be more
     than these: a robot that is saved without acting leaves its cell behind.  More is harmless, since
     a robot steps only onto a cell that is not occupied (`exclusive_act`).
  3. **The ferry step** — the same invariant, for the cells a raft may not sail to: riders all move from
     one cell to one that is free (`Harbour.Apart`).
  4. **Saving** a robot only takes its cell away (`occupiedCells_markExit`).

  The crux is which set of cells is kept during a phase.  The cells of the robots themselves would not do,
  since a robot that has left its cell still has to be kept from the cells of those that have not acted
  yet; and the occupied cells would not do either, since they are more than the robots stand on.  So the
  invariant has both: distinct cells, all of them occupied.

  `Exclusive` is stated on the list of occupied cells, so it says at once that no cell is blocked by two
  robots.  Robots that are dead or saved do not count; they may lie on one cell, and anybody may go there.
  Without an interval all robots enter at the start, and may do so on one cell; so the assumption on the
  start cannot be left out.
-/
import Mathlib.Data.List.Nodup
import RobotPuzzle.Proofs.Reach

namespace RobotPuzzle

/-! ## The cells of blocking robots

  The list of cells and not a set, so that being exclusive is having no duplicates, and a phase can be
  followed robot by robot. -/

/-- The blocking robots stand on pairwise distinct cells. -/
def Exclusive (robots : List Robot) : Prop := (occupiedCells robots).Nodup

instance (robots : List Robot) : Decidable (Exclusive robots) :=
  inferInstanceAs (Decidable (occupiedCells robots).Nodup)

@[simp] theorem occupiedCells_nil : occupiedCells [] = [] := rfl

theorem occupiedCells_cons_of_blocking {r : Robot} (h : r.blocking = true) (rest : List Robot) :
    occupiedCells (r :: rest) = r.cell :: occupiedCells rest := by
  simp [occupiedCells, h]

theorem occupiedCells_cons_of_not_blocking {r : Robot} (h : r.blocking = false)
    (rest : List Robot) : occupiedCells (r :: rest) = occupiedCells rest := by
  simp [occupiedCells, h]

theorem occupiedCells_append (robots others : List Robot) :
    occupiedCells (robots ++ others) = occupiedCells robots ++ occupiedCells others := by
  simp [occupiedCells]

theorem mem_occupiedCells {robots : List Robot} {c : Cell} :
    c ∈ occupiedCells robots ↔ ∃ r ∈ robots, r.blocking = true ∧ r.cell = c := by
  simp [occupiedCells, and_assoc]

namespace Simulation

/-- Who still blocks when the exits have been looked at was not on an exit. -/
theorem markExit_blocking {grid : Grid} {exits : List Cell} {r : Robot}
    (h : (markExit grid exits r).blocking = true) : markExit grid exits r = r := by
  unfold markExit at h ⊢
  split
  · rename_i hx
    rw [if_pos hx] at h
    simp [Robot.blocking] at h
  · rfl

/-- Saving robots only takes cells away. -/
theorem occupiedCells_markExit (grid : Grid) (exits : List Cell) (robots : List Robot) :
    (occupiedCells (robots.map (markExit grid exits))).Sublist (occupiedCells robots) := by
  induction robots with
  | nil => exact .slnil
  | cons r rest ih =>
    rw [List.map_cons]
    cases hm : (markExit grid exits r).blocking with
    | true =>
      -- who still blocks has not been changed
      have hsame := markExit_blocking hm
      rw [hsame] at hm ⊢
      rw [occupiedCells_cons_of_blocking hm, occupiedCells_cons_of_blocking hm]
      exact ih.cons_cons _
    | false =>
      rw [occupiedCells_cons_of_not_blocking hm]
      refine ih.trans ?_
      exact (List.sublist_append_right (occupiedCells [r]) _).trans
        (by rw [← occupiedCells_append]; exact .refl _)

theorem exclusive_markExit {robots : List Robot} (h : Exclusive robots) (grid : Grid)
    (exits : List Cell) : Exclusive (robots.map (markExit grid exits)) :=
  h.sublist (occupiedCells_markExit grid exits robots)

/-! ## Entry -/

/-- A robot that enters finds its cell free, and nobody else moves. -/
theorem exclusive_spawn {s : State} {entry : Entry} (h : spawnPhase s = .ok entry)
    (hs : Exclusive s.robots) : Exclusive entry.robots := by
  rcases spawnPhase_cases h with ⟨-, rfl⟩ | ⟨index, r, hin, henter, rfl⟩
  · exact hs
  · obtain ⟨-, -, hfree⟩ := entering?_cases hin
    obtain ⟨heading, -, rfl⟩ := enter_cases henter
    show (occupiedCells (s.robots ++ _)).Nodup
    rw [occupiedCells_append, occupiedCells_cons_of_blocking rfl, occupiedCells_nil,
      List.nodup_append]
    refine ⟨hs, List.nodup_singleton _, fun c hc d hd => ?_⟩
    rintro rfl
    rw [List.mem_singleton] at hd
    rw [hd] at hc
    exact hfree hc

end Simulation

/-! ## The actions

  The robots act one after another on a list of occupied cells that each of them changes: it leaves its
  cell, looks whether the one ahead is occupied, and takes the cell where it ends up, if it still blocks.
-/

/-- An action moves a robot only forward, and only where it may go.  Turning, waiting and signals leave
the cell, and so does a step into what is blocked. -/
theorem Robot.apply_cell (grid : Grid) (blocked : Cell → Bool) (r : Robot) (action : Action) :
    (r.apply grid blocked action).cell = r.cell ∨
      (r.blocking = true ∧ action = .moveForward ∧ blocked (r.cell.step r.heading) = false ∧
        (r.apply grid blocked action).cell = r.cell.step r.heading) := by
  cases hb : r.blocking with
  | false => exact Or.inl (by rw [apply_of_not_blocking hb])
  | true =>
    cases action with
    | moveForward =>
      cases hc : blocked (r.cell.step r.heading) with
      | true => exact Or.inl (by simp [apply, hb, advance, hc])
      | false =>
        -- it goes there whether it lives or dies
        refine Or.inr ⟨rfl, rfl, rfl, ?_⟩
        simp only [apply, hb, if_true, advance, hc, Bool.false_eq_true, if_false]
        split
        · rfl
        · rfl
    | turnLeft => exact Or.inl (by simp [apply, hb])
    | turnRight => exact Or.inl (by simp [apply, hb])
    | wait => exact Or.inl (by simp [apply, hb])
    | signalOn => exact Or.inl (by simp [apply, hb])
    | signalOff => exact Or.inl (by simp [apply, hb])

namespace Simulation

/-- A robot that still blocks after its action blocked before it, and has stayed or has gone to a cell
that was not occupied. -/
theorem actOne_blocking {board : Board} {occupied : List Cell} {r : Robot} {action : Action}
    (h : (actOne board occupied r action).blocking = true) :
    r.blocking = true ∧ ((actOne board occupied r action).cell = r.cell ∨
      (actOne board occupied r action).cell ∉ occupied) := by
  have hsame : actOne board occupied r action = r.apply board.grid _ action := markExit_blocking h
  rw [hsame] at h ⊢
  cases hb : r.blocking with
  | false =>
    rw [Robot.apply_of_not_blocking hb, hb] at h
    cases h
  | true =>
    refine ⟨rfl, ?_⟩
    rcases r.apply_cell board.grid _ action with hc | ⟨-, -, hfree, hc⟩
    · exact Or.inl hc
    · refine Or.inr ?_
      rw [hc]
      rw [Bool.or_eq_false_iff] at hfree
      simpa using hfree.1

/-- The occupied cells when a robot has left its cell in order to act. -/
def vacated (occupied : List Cell) (r : Robot) : List Cell :=
  if r.blocking then occupied.filter (· ≠ r.cell) else occupied

/-- The robot that acts takes nobody else's cell away, as nobody else stands on its cell.  This is where
exclusiveness before the action is used. -/
theorem mem_vacated {taken occupied : List Cell} {r : Robot} {rest : List Robot}
    (hnodup : (taken ++ occupiedCells (r :: rest)).Nodup)
    (hsub : ∀ c ∈ taken ++ occupiedCells (r :: rest), c ∈ occupied) :
    ∀ c ∈ taken ++ occupiedCells rest, c ∈ vacated occupied r := by
  intro c hc
  cases hb : r.blocking with
  | true =>
    rw [occupiedCells_cons_of_blocking hb] at hnodup hsub
    have hne : c ≠ r.cell := by
      rintro rfl
      exact (List.nodup_cons.1 (List.nodup_middle.1 hnodup)).1 hc
    have hmem : c ∈ occupied := hsub c (List.perm_middle.mem_iff.2 (List.mem_cons_of_mem _ hc))
    simp only [vacated, hb, if_true, List.mem_filter, decide_eq_true_eq]
    exact ⟨hmem, hne⟩
  | false =>
    rw [occupiedCells_cons_of_not_blocking hb] at hsub
    simp only [vacated, hb, Bool.false_eq_true, if_false]
    exact hsub c hc

/-- The actions keep the robots apart.  `taken` are the cells of the robots that have acted; these and the
cells of the robots to come are distinct, and all of them are occupied.  The induction goes along the
robots; a robot that has acted hands its cell on to `taken`. -/
theorem exclusive_act (board : Board) :
    ∀ (robots : List Robot) (taken occupied : List Cell) (signal : Bool)
      (actions : List (Option Action)),
      (taken ++ occupiedCells robots).Nodup →
      (∀ c ∈ taken ++ occupiedCells robots, c ∈ occupied) →
      (taken ++ occupiedCells (actPhase board occupied signal robots actions).1).Nodup := by
  intro robots
  induction robots with
  | nil =>
    intro taken occupied signal actions hnodup _
    exact hnodup
  | cons r rest ih =>
    intro taken occupied signal actions hnodup hsub
    have hothers := mem_vacated hnodup hsub
    have hdrop : (taken ++ occupiedCells rest).Sublist (taken ++ occupiedCells (r :: rest)) := by
      rw [show r :: rest = [r] ++ rest from rfl, occupiedCells_append]
      exact (List.sublist_append_right _ _).append_left taken
    rw [actPhase]
    cases ha : actions.head?.join with
    | none =>
      -- the robot stays, and may be saved; its cell stays occupied in either case
      have hmark : (taken ++ occupiedCells [markExit board.grid board.exits r]
          ++ occupiedCells rest).Sublist (taken ++ occupiedCells (r :: rest)) := by
        rw [show r :: rest = [r] ++ rest from rfl, occupiedCells_append, List.append_assoc]
        exact ((occupiedCells_markExit board.grid board.exits [r]).append_right _).append_left taken
      have hacted := ih (taken ++ occupiedCells [markExit board.grid board.exits r]) occupied signal
        actions.tail (hnodup.sublist hmark) fun c hc => hsub c (hmark.subset hc)
      rwa [List.append_assoc, ← occupiedCells_append] at hacted
    | some action =>
      have hrest : (taken ++ occupiedCells rest).Nodup := hnodup.sublist hdrop
      -- what remains is the same for a robot that still blocks and for one that does not
      show (taken ++ occupiedCells (actOne board (vacated occupied r) r action ::
        (actPhase board (if (actOne board (vacated occupied r) r action).blocking then
          (actOne board (vacated occupied r) r action).cell :: vacated occupied r
          else vacated occupied r) (nextSignal signal action) rest actions.tail).1)).Nodup
      generalize hacted : actOne board (vacated occupied r) r action = acted
      cases hb : acted.blocking with
      | true =>
        subst hacted
        obtain ⟨hr, hcell⟩ := actOne_blocking hb
        have hnew : (actOne board (vacated occupied r) r action).cell
            ∉ taken ++ occupiedCells rest := by
          rcases hcell with hsame | hfree
          · rw [occupiedCells_cons_of_blocking hr] at hnodup
            rw [hsame]
            exact (List.nodup_cons.1 (List.nodup_middle.1 hnodup)).1
          · exact fun hmem => hfree (hothers _ hmem)
        have := ih (taken ++ [(actOne board (vacated occupied r) r action).cell])
          ((actOne board (vacated occupied r) r action).cell :: vacated occupied r)
          (nextSignal signal action) actions.tail ?_ ?_
        · rwa [List.append_assoc, List.singleton_append, ← occupiedCells_cons_of_blocking hb] at this
        · rw [List.append_assoc, List.singleton_append]
          exact List.nodup_middle.2 (List.nodup_cons.2 ⟨hnew, hrest⟩)
        · intro c hc
          rw [List.append_assoc, List.singleton_append] at hc
          rcases List.mem_cons.1 (List.perm_middle.mem_iff.1 hc) with rfl | hc
          · exact List.mem_cons_self
          · exact List.mem_cons_of_mem _ (hothers c hc)
      | false =>
        rw [occupiedCells_cons_of_not_blocking hb]
        exact ih taken (vacated occupied r) (nextSignal signal action) actions.tail hrest hothers

end Simulation

/-! ## The ferry step -/

/-- The robots of a harbour are apart, and no raft may sail to any of their cells. -/
structure Harbour.Apart (h : Harbour) : Prop where
  /-- no two robots block one cell -/
  nodup : Exclusive h.robots
  /-- and rafts know of all the cells they block -/
  occupied : ∀ c ∈ occupiedCells h.robots, c ∈ h.occupied

/-- Carrying robots moves the cells of those that block. -/
theorem occupiedCells_carry (h : Harbour) (here there : Cell) :
    occupiedCells (h.carry here there).robots
      = (occupiedCells h.robots).map fun c => if c = here then there else c := by
  obtain ⟨robots, occupied, changes⟩ := h
  show occupiedCells (robots.map _) = (occupiedCells robots).map _
  induction robots with
  | nil => rfl
  | cons r rest ih =>
    rw [List.map_cons]
    -- whoever is on the cell is taken along, but only those that block occupy one
    by_cases hc : r.cell = here
    · rw [if_pos hc]
      cases hb : r.blocking with
      | true =>
        rw [occupiedCells_cons_of_blocking (r := { r with cell := there }) hb, ih,
          occupiedCells_cons_of_blocking hb, List.map_cons, if_pos hc]
      | false =>
        rw [occupiedCells_cons_of_not_blocking (r := { r with cell := there }) hb, ih,
          occupiedCells_cons_of_not_blocking hb]
    · rw [if_neg hc]
      cases hb : r.blocking with
      | true =>
        rw [occupiedCells_cons_of_blocking hb, ih, occupiedCells_cons_of_blocking hb, List.map_cons,
          if_neg hc]
      | false =>
        rw [occupiedCells_cons_of_not_blocking hb, ih, occupiedCells_cons_of_not_blocking hb]

/-- A raft that sails leaves every cell occupied that was, but its own. -/
theorem mem_occupied_sail {jetties : List Cell} {h : Harbour} {here there c : Cell} :
    c ∈ (h.sail jetties here there).occupied ↔ c = there ∨ (c ∈ h.occupied ∧ c ≠ here) := by
  simp [Harbour.sail]

/-- A turn keeps the robots of a harbour apart.  Riders move together from the raft's cell to one that is
free, and nobody else is on either; a raft that goes home alone moves nobody. -/
theorem Raft.Turn.apart {jetties : List Cell} {h h' : Harbour} {raft raft' : Raft} (ha : h.Apart)
    (ht : raft.Turn jetties h h' raft') : h'.Apart := by
  cases ht with
  | stay => exact ha
  | @carry there _ _ _ hfree =>
    have hcells := occupiedCells_carry (h.sail jetties raft.cell there) raft.cell there
    constructor
    · -- the riders all leave one cell, and nobody stands on the other
      rw [Exclusive, hcells]
      refine List.Nodup.map_on (fun c hc d hd hcd => ?_) ha.nodup
      have habsent : ∀ e ∈ occupiedCells h.robots, e = there → there = raft.cell := by
        rintro e he rfl
        exact hfree.resolve_left fun hn => hn (ha.occupied e he)
      split at hcd
      · rename_i hch
        split at hcd
        · rename_i hdh
          rw [hch, hdh]
        · rw [hch, ← habsent d hd hcd.symm, hcd]
      · split at hcd
        · rename_i hdh
          rw [hdh, ← habsent c hc hcd, hcd]
        · exact hcd
    · intro c hc
      rw [hcells, List.mem_map] at hc
      obtain ⟨d, hd, rfl⟩ := hc
      show _ ∈ (h.sail jetties raft.cell there).occupied
      rw [mem_occupied_sail]
      split
      · exact Or.inl rfl
      · rename_i hne
        exact Or.inr ⟨ha.occupied d hd, hne⟩
  | home _ hrider _ _ _ _ =>
    refine ⟨ha.nodup, fun c hc => mem_occupied_sail.2 (Or.inr ⟨ha.occupied c hc, ?_⟩)⟩
    rintro rfl
    obtain ⟨r, hr, hb, hcell⟩ := mem_occupiedCells.1 hc
    have : h.hasRider raft.cell = true := List.any_eq_true.2 ⟨r, hr, by simp [hb, hcell]⟩
    rw [hrider] at this
    cases this

/-- So all turns together do. -/
theorem exclusive_ferry {grid grid' : Grid} {robots robots' : List Robot} {rafts rafts' : List Raft}
    {jetties : List Cell} (hf : ferry grid robots rafts jetties = .ok (grid', robots', rafts'))
    (hr : Exclusive robots) : Exclusive robots' := by
  obtain ⟨h, hall, -, rfl⟩ := ferry_cases hf
  have hstart : (Harbour.before robots).Apart := ⟨hr, fun c hc => hc⟩
  have hturn : ∀ {h h' : Harbour} {raft raft' : Raft}, h.Apart → True →
      raft.Turn jetties h h' raft' → h'.Apart ∧ True := fun ha _ ht => ⟨ht.apart ha, trivial⟩
  exact (Raft.ferryAll_invariant hturn hall hstart fun _ _ => trivial).1.nodup

namespace Simulation

/-! ## Runs

  Each phase has been shown to keep the robots apart, and a tick is its phases.  At the start they may not
  be apart: without an interval all robots enter at once, and then the invariant does not hold from the
  beginning. -/

/-- A tick keeps the robots apart: entry, actions, ferry step and the last look at the exits, in this
order. -/
theorem exclusive_tick {s t : State} {actions : List (Option Action)} (hs : Exclusive s.robots)
    (h : tick s actions = .ok t) : Exclusive t.robots := by
  rcases tick_cases h with ⟨-, rfl⟩ | ⟨-, entry, grid, ferried, rafts, hspawn, hferry, rfl⟩
  · exact hs
  · have hentry : Exclusive entry.robots := exclusive_spawn hspawn hs
    have hacted : Exclusive (actedRobots s entry actions).1 :=
      exclusive_act (boardOf s entry.robots) entry.robots [] (occupiedCells entry.robots)
        s.globalSignal actions hentry fun c hc => hc
    exact exclusive_markExit (exclusive_ferry hferry hacted) grid s.exits

/-- As many robots enter as are to enter. -/
theorem enterMany_length {spawner : Spawner} :
    ∀ {count first : Nat} {robots : List Robot}, enterMany spawner first count = .ok robots →
      robots.length = count := by
  intro count
  induction count with
  | zero =>
    intro first robots h
    cases h
    rfl
  | succ count ih =>
    intro first robots h
    obtain ⟨r, -, h⟩ := bind_eq_ok h
    obtain ⟨others, hothers, h⟩ := bind_eq_ok h
    cases h
    rw [List.length_cons, ih hothers]

/-- How many robots are there at the start: without an interval all that there are to be, and with one the
first of them. -/
theorem initialCount_bounds (spawner : Spawner) :
    min 1 (max spawner.count 0) ≤ (initialCount spawner : Int) ∧
      (initialCount spawner : Int) ≤ max spawner.count 0 ∧
      (0 < spawner.interval → initialCount spawner ≤ 1) := by
  unfold initialCount
  split
  · omega
  · split
    · omega
    · omega

/-- With an interval at most one robot is there at the start, and one robot is apart from itself. -/
theorem exclusive_start {grid : Grid} {spawner : Spawner} {exits : List Cell}
    {maxSteps requiredSaved : Int} {s : State}
    (h : start grid spawner exits maxSteps requiredSaved = .ok s) (hi : 0 < spawner.interval) :
    Exclusive s.robots := by
  obtain ⟨entered, hs⟩ := start_cases h
  have hone : entered.length ≤ 1 := by
    rw [enterMany_length hs.enter]
    exact (initialCount_bounds spawner).2.2 hi
  rw [hs.state]
  show (occupiedCells (entered.map (markExit grid exits))).Nodup
  match entered, hone with
  | [], _ => exact List.nodup_nil
  | [r], _ =>
    cases hb : (markExit grid exits r).blocking with
    | true => simp [occupiedCells, hb]
    | false => simp [occupiedCells, hb]

/-- **Occupancy is exclusive.**  If the blocking robots stand on pairwise distinct cells at the start, as
they do whenever there is an interval, they do so in every state reached by ticks. -/
theorem reaches_exclusive {grid : Grid} {spawner : Spawner} {exits : List Cell}
    {maxSteps requiredSaved : Int} {s : State}
    (h : start grid spawner exits maxSteps requiredSaved = .ok s) :
    (0 < spawner.interval → Exclusive s.robots) ∧
      (Exclusive s.robots → ∀ t, Reaches s t → Exclusive t.robots) :=
  ⟨exclusive_start h, fun hs _ ht =>
    ht.invariant (P := fun t => Exclusive t.robots) exclusive_tick hs⟩

/-- A robot on a raft, and a second one that enters one tick later. -/
theorem reaches_exclusive_ferry :
    ∃ s t u, start ⟨[[.empty, .raft, .jetty]]⟩ { pose := ⟨⟨0, 0⟩, 1⟩, count := 2, interval := 1 } []
        9 1 = .ok s ∧
      statesAfter s [[some .moveForward], [none, some .wait]] = .ok [t, u] ∧
      u.robots.map Robot.cell = [⟨1, 0⟩, ⟨0, 0⟩] ∧ Exclusive u.robots := by
  obtain ⟨s, t, u, hs, hrun, hcells⟩ : ∃ s t u,
      start ⟨[[.empty, .raft, .jetty]]⟩ { pose := ⟨⟨0, 0⟩, 1⟩, count := 2, interval := 1 } [] 9 1
        = .ok s ∧
      statesAfter s [[some .moveForward], [none, some .wait]] = .ok [t, u] ∧
      u.robots.map Robot.cell = [⟨1, 0⟩, ⟨0, 0⟩] := ⟨_, _, _, rfl, rfl, rfl⟩
  have hstart : Exclusive s.robots := (reaches_exclusive hs).1 (by decide)
  exact ⟨s, t, u, hs, hrun, hcells, (reaches_exclusive hs).2 hstart u (.of_statesAfter hrun (by simp))⟩

end Simulation

end RobotPuzzle
