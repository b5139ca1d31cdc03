/-
  Which moves are made, and lines of robots that move as one.

  1. **Held and occupied** — where the robots stand apart, the occupied cells on a turn are exactly the held
     ones (`held_iff_mem`).  The one exception would be the cell of a robot that is saved without acting;
     but before the last robot of the list nobody stands on an exit any more (`settled_entry`).
     So a robot goes forward unless the cell ahead is held or closed (`acted_forward`).
  2. **The move** — the law of moves speaks of the other robots, and of the tile ahead, and of nothing
     else (`Move`, `exists_move`).
  3. **The rest of the tick** — no tile becomes a goal or ceases to be one (`Charted.isExit_eq`), and the
     rafts leave those alone who stand elsewhere (`ferry_getElem?`).
  4. **Lines** — in a line each robot faces the cell of the one before it, and comes after it.  The cell is
     free when its turn comes; so by induction along the line all go forward (`line_advances`).

  The crux is the first point, since the law of moves has to be free of the order in which the robots act.
  The occupied cells on a turn are an outcome of that order; that they are the held ones is what makes the
  law say only who stands where.  A line then needs one thing more: a robot that has gone forward has left
  its cell, so the one behind it finds it free, provided that it acts later and nobody slips in between.

  The statement is in two parts that use the same words.  The first is the law of moves, robot by robot,
  as an equivalence; the second is about a line, and it uses the law for each robot of it in turn.  `Held`
  is the only thing that looks at the order of the robots: whoever comes later is looked at as it was, and
  whoever has acted as it is.
-/
import Mathlib.Data.List.Chain
import RobotPuzzle.Proofs.Terrain
import RobotPuzzle.Proofs.Turns
import RobotPuzzle.Proofs.Verdict

namespace RobotPuzzle

theorem Tile.lethal_iff {t : Tile} : t.lethal = true ↔ t = .hazard ∨ t = .water := by
  cases t <;> decide

namespace Simulation

/-! ## Held and occupied cells

  From held to occupied nothing is needed but that the robots stand apart.  For the other direction an
  occupied cell must not be a left-over, and the only left-over is the cell of a robot that is saved
  without acting; on a settled board such a robot can only be the one that has just entered, and it is the
  last of the list. -/

section Held

variable {board : Board} {signal : Bool} {robots acted : List Robot}
  {orders : List (Option Action)} {c : Cell} {i : Nat}

/-- A robot that is not on an exit and does not act stays as it is. -/
theorem acted_of_none {occupied : List Cell} {r : Robot}
    (hacted : acted = (actPhase board occupied signal robots orders).1) (hr : robots[i]? = some r)
    (hsaved : markExit board.grid board.exits r = r) (horder : orders[i]?.join.isSome = false) :
    acted[i]? = some r := by
  rw [Option.isSome_eq_false_iff, Option.isNone_iff_eq_none] at horder
  rw [hacted, acted_getElem? signal hr, horder]
  exact congrArg some hsaved

/-- Where the robots stand apart, and those before a robot have been saved if they are on an exit, the
cells that are occupied on its turn are those that another robot blocks.  Its own cell is left out, as it
has left it on its turn. -/
theorem held_iff_mem (hexclusive : Exclusive robots)
    (hacted : acted = (actPhase board (occupiedCells robots) signal robots orders).1)
    (hsaved : ∀ k r, k < i → robots[k]? = some r → markExit board.grid board.exits r = r)
    (hi : i ≤ robots.length) (hown : ¬ BlocksAt robots c i) :
    Held robots acted c i ↔ c ∈ occupiedAt board (occupiedCells robots) robots orders i := by
  refine ⟨fun h => h.mem_occupiedAt hexclusive hacted hi, fun hmem => ?_⟩
  by_contra hnot
  refine (notMem_occupiedAt_iff hacted hi).2 ?_ hmem
  have hnobody : ∀ j, j < i → ¬ BlocksAt acted c j := fun j hj hblocks => hnot (Or.inr ⟨j, hj, hblocks⟩)
  by_cases hfirst : c ∈ occupiedCells robots
  · -- who was there at first has acted before, and has left
    obtain ⟨k, hk⟩ := mem_occupiedCells_iff.1 hfirst
    have hki : k < i := by
      rcases Nat.lt_trichotomy k i with hlt | rfl | hgt
      · exact hlt
      · exact absurd hk hown
      · exact absurd (Or.inl ⟨k, hgt, hk⟩) hnot
    have horder : orders[k]?.join.isSome = true := by
      cases horder : orders[k]?.join.isSome with
      | true => rfl
      | false =>
        obtain ⟨r, hr, hb, hc⟩ := hk
        exact absurd ⟨r, acted_of_none hacted hr (hsaved k r hki hr) horder, hb, hc⟩ (hnobody k hki)
    exact Or.inl ⟨k, hki, ⟨horder, hk, hnobody k hki⟩, fun j _ hj htakes => hnobody j hj htakes.2⟩
  · exact Or.inr ⟨hfirst, fun j hj htakes => hnobody j hj htakes.2⟩

/-- Where the robots stand apart, one that is told to go forward does so unless the cell ahead is held or
closed. -/
theorem acted_forward (hexclusive : Exclusive robots)
    (hacted : acted = (actPhase board (occupiedCells robots) signal robots orders).1)
    (hsaved : ∀ k q, k + 1 < robots.length → robots[k]? = some q →
      markExit board.grid board.exits q = q)
    {r : Robot} (hr : robots[i]? = some r) (hb : r.blocking = true)
    (horder : orders[i]?.join = some .moveForward) :
    (Held robots acted (r.cell.step r.heading) i ∨ board.closed (r.cell.step r.heading) = true →
        acted[i]? = some (markExit board.grid board.exits r)) ∧
      (¬ (Held robots acted (r.cell.step r.heading) i ∨
          board.closed (r.cell.step r.heading) = true) →
        acted[i]? = some (stepAhead board r)) := by
  have hi : i < robots.length := (List.getElem?_eq_some_iff.1 hr).1
  have hown : ¬ BlocksAt robots (r.cell.step r.heading) i := fun hblocks =>
    Cell.step_ne r.cell r.heading ((blocksAt_iff hr).1 hblocks).2.symm
  rw [held_iff_mem hexclusive hacted (fun k q hk => hsaved k q (by omega)) (Nat.le_of_lt hi) hown,
    hacted, acted_getElem? signal hr, horder, turn_forward hb]
  exact ⟨fun hblocked => congrArg some (if_pos hblocked), fun hfree => congrArg some (if_neg hfree)⟩

end Held

/-- Not held: no later robot is there so far, and no earlier one is there now. -/
theorem not_held_iff {robots acted : List Robot} {c : Cell} {i : Nat} : ¬ Held robots acted c i ↔
    (∀ j, i < j → ¬ BlocksAt robots c j) ∧ ∀ j, j < i → ¬ BlocksAt acted c j := by
  simp only [Held, not_or, not_exists, not_and]

/-- Whoever is not the last robot after the entry has been there before, and is on no exit. -/
theorem settled_entry {t : State} {entry : Entry} (hs : Settled t) (hspawn : spawnPhase t = .ok entry)
    {k : Nat} {r : Robot} (hk : k + 1 < entry.robots.length) (hr : entry.robots[k]? = some r) :
    markExit t.grid t.exits r = r := by
  obtain ⟨entered, hrobots, -, -⟩ := spawnPhase_enters hspawn
  have hone : entered.toList.length ≤ 1 := by
    cases entered with
    | none => exact Nat.zero_le 1
    | some _ => exact Nat.le_refl 1
  rw [hrobots, List.length_append] at hk
  rw [hrobots, List.getElem?_append_left (by omega)] at hr
  exact hs.exits r (List.mem_of_getElem? hr)

/-! ## The move

  A robot that is told to go forward either stays where it is or goes ahead, and each of the two is shown
  to be a `Move`; the parts of `Move` are the questions one would ask of it. -/

/-- A cell is open if it is no wall, and no door unless doors are open. -/
theorem Board.closed_eq_false_iff (board : Board) (c : Cell) : board.closed c = false ↔
    board.grid.tile c ≠ .wall ∧ (board.grid.tile c = .door → board.doorOpen = true) := by
  simp only [Board.closed, Bool.or_eq_false_iff, beq_eq_false_iff_ne, Bool.and_eq_false_iff,
    Bool.not_eq_eq_eq_not, Bool.not_false]
  exact and_congr_right fun _ => ⟨fun h hdoor => h.resolve_left fun hne => hne hdoor,
    fun h => or_iff_not_imp_left.2 fun hdoor => h (not_not.1 hdoor)⟩

theorem markExit_keeps (grid : Grid) (exits : List Cell) (r : Robot) :
    (markExit grid exits r).heading = r.heading ∧ (markExit grid exits r).alive = r.alive := by
  unfold markExit
  split
  · exact ⟨rfl, rfl⟩
  · exact ⟨rfl, rfl⟩

/-- Who goes ahead dies on a lethal tile, and is saved on an exit otherwise. -/
theorem stepAhead_fate (board : Board) {r : Robot} (hb : r.blocking = true) :
    (stepAhead board r).heading = r.heading ∧
      ((stepAhead board r).alive = false ↔
        board.grid.tile (r.cell.step r.heading) = .hazard ∨
          board.grid.tile (r.cell.step r.heading) = .water) ∧
      ((stepAhead board r).alive = true →
        ((stepAhead board r).saved = true ↔
          isExit board.grid board.exits (r.cell.step r.heading) = true)) := by
  obtain ⟨halive, hsaved⟩ := Bool.and_eq_true_iff.1 hb
  rw [← Tile.lethal_iff]
  unfold stepAhead
  dsimp only
  cases hl : (board.grid.tile (r.cell.step r.heading)).lethal with
  | true =>
    rw [if_pos rfl]
    exact ⟨rfl, iff_of_true rfl rfl, fun h => Bool.noConfusion h⟩
  | false =>
    -- who is alive after the step still blocks, unless the exit takes it off the board
    have hgoes : ({ r with cell := r.cell.step r.heading } : Robot).blocking = true := hb
    rw [if_neg Bool.false_ne_true, markExit, hgoes, Bool.true_and]
    cases hx : isExit board.grid board.exits (r.cell.step r.heading) with
    | true =>
      rw [if_pos rfl]
      exact ⟨rfl, by simp [halive], fun _ => iff_of_true rfl rfl⟩
    | false =>
      rw [if_neg Bool.false_ne_true]
      exact ⟨rfl, by simp [halive], fun _ => by simpa using hsaved⟩

/-- Nothing happens to who goes to a harmless cell that is no exit. -/
theorem stepAhead_eq {board : Board} {r : Robot}
    (hl : (board.grid.tile (r.cell.step r.heading)).lethal = false)
    (hx : isExit board.grid board.exits (r.cell.step r.heading) = false) :
    stepAhead board r = { r with cell := r.cell.step r.heading } := by
  unfold stepAhead markExit
  dsimp only
  rw [hl, hx, Bool.and_false, if_neg Bool.false_ne_true, if_neg Bool.false_ne_true]

/-- A robot that blocks and is told to go forward, before the actions and after them. -/
structure Move (t : State) (robots acted : List Robot) (i : Nat) (r q : Robot) : Prop where
  /-- it goes unless there is wall, or a door that is not open, or a later robot where it has been so far,
  or an earlier one where it is now -/
  enters : q.cell = r.cell.step r.heading ↔
    t.grid.tile (r.cell.step r.heading) ≠ .wall ∧
      (t.grid.tile (r.cell.step r.heading) = .door →
        t.doorUnlocked = true ∨ platePressed t.grid robots = true) ∧
      (∀ j, i < j → ¬ BlocksAt robots (r.cell.step r.heading) j) ∧
      ∀ j, j < i → ¬ BlocksAt acted (r.cell.step r.heading) j
  /-- else it stays where it is and lives -/
  stays : q.cell ≠ r.cell.step r.heading → q.cell = r.cell ∧ q.alive = true
  /-- it does not turn -/
  heading : q.heading = r.heading
  /-- on the cell ahead it dies exactly of a hazard or of water -/
  dies : q.cell = r.cell.step r.heading →
    (q.alive = false ↔ t.grid.tile (r.cell.step r.heading) = .hazard ∨
      t.grid.tile (r.cell.step r.heading) = .water)
  /-- if it lives it is saved exactly on an exit -/
  saved : q.cell = r.cell.step r.heading → q.alive = true →
    (q.saved = true ↔ isExit t.grid t.exits (r.cell.step r.heading) = true)

section Moves

variable {t : State} {robots acted : List Robot} {i : Nat} {r : Robot}

/-- The same for the board that the robots of a tick see: the doors are open if they were unlocked, or if
a plate is held behind the entry. -/
theorem closed_boardOf_eq_false_iff (t : State) (robots : List Robot) (c : Cell) :
    (boardOf t robots).closed c = false ↔ t.grid.tile c ≠ .wall ∧
      (t.grid.tile c = .door → t.doorUnlocked = true ∨ platePressed t.grid robots = true) := by
  have hdoor : (boardOf t robots).doorOpen = true ↔
      t.doorUnlocked = true ∨ platePressed t.grid robots = true := Bool.or_eq_true_iff
  rw [← hdoor]
  exact (boardOf t robots).closed_eq_false_iff c

/-- The robot finds the cell ahead held or closed, and stays. -/
theorem move_of_blocked (hb : r.blocking = true)
    (hblocked : Held robots acted (r.cell.step r.heading) i ∨
      (boardOf t robots).closed (r.cell.step r.heading) = true) :
    Move t robots acted i r (markExit t.grid t.exits r) := by
  have hcell := markExit_cell t.grid t.exits r
  have hstays : (markExit t.grid t.exits r).cell ≠ r.cell.step r.heading := by
    rw [hcell]
    exact (Cell.step_ne r.cell r.heading).symm
  obtain ⟨hheading, halive⟩ := markExit_keeps t.grid t.exits r
  refine ⟨iff_of_false hstays ?_, fun _ => ⟨hcell, halive.trans (Bool.and_eq_true_iff.1 hb).1⟩, hheading,
    fun hgoes => absurd hgoes hstays, fun hgoes => absurd hgoes hstays⟩
  rintro ⟨hwall, hdoor, hnobody⟩
  rcases hblocked with hheld | hclosed
  · exact not_held_iff.2 hnobody hheld
  · rw [(closed_boardOf_eq_false_iff t robots _).2 ⟨hwall, hdoor⟩] at hclosed
    cases hclosed

/-- The robot finds the cell ahead free and open, and goes there. -/
theorem move_of_free (hb : r.blocking = true)
    (hfree : ¬ (Held robots acted (r.cell.step r.heading) i ∨
      (boardOf t robots).closed (r.cell.step r.heading) = true)) :
    Move t robots acted i r (stepAhead (boardOf t robots) r) := by
  obtain ⟨hnobody, hclosed⟩ := not_or.1 hfree
  obtain ⟨hwall, hdoor⟩ := (closed_boardOf_eq_false_iff t robots _).1 (Bool.eq_false_iff.2 hclosed)
  obtain ⟨hheading, hdies, hsaved⟩ := stepAhead_fate (boardOf t robots) hb
  have hgoes := stepAhead_cell (boardOf t robots) r
  exact ⟨iff_of_true hgoes ⟨hwall, hdoor, not_held_iff.1 hnobody⟩, fun hstays => absurd hgoes hstays,
    hheading, fun _ => hdies, fun _ => hsaved⟩

/-- What becomes of a robot that goes forward, whether it is blocked or not. -/
theorem exists_move {entry : Entry} {orders : List (Option Action)} (hexclusive : Exclusive t.robots)
    (hs : Settled t) (hspawn : spawnPhase t = .ok entry) (hr : entry.robots[i]? = some r)
    (hb : r.blocking = true) (horder : orders[i]?.join = some .moveForward) :
    ∃ q, (actedRobots t entry orders).1[i]? = some q ∧
      Move t entry.robots (actedRobots t entry orders).1 i r q := by
  have hacted : (actedRobots t entry orders).1 = (actPhase (boardOf t entry.robots)
      (occupiedCells entry.robots) t.globalSignal entry.robots orders).1 := rfl
  obtain ⟨hstays, hgoes⟩ := acted_forward (exclusive_spawn hspawn hexclusive) hacted
    (fun k q hk hq => settled_entry hs hspawn hk hq) hr hb horder
  by_cases hblocked : Held entry.robots (actedRobots t entry orders).1 (r.cell.step r.heading) i ∨
      (boardOf t entry.robots).closed (r.cell.step r.heading) = true
  · exact ⟨_, hstays hblocked, move_of_blocked hb hblocked⟩
  · exact ⟨_, hgoes hblocked, move_of_free hb hblocked⟩

end Moves

end Simulation

/-! ## The rest of the tick

  For a line to be seen in the next state, the ferry step and the last look at the exits must not move it.
  Robots that stand on no raft's cell are not carried; robots that are on no exit are not saved. -/

/-- Rafts and jetties come and go, but no goal does. -/
theorem Tile.Becomes.goal_iff {first t : Tile} (h : first.Becomes t) : t = .goal ↔ first = .goal := by
  cases first with
  | jetty => rcases h with rfl | rfl <;> decide
  | raft => rcases h with rfl | rfl <;> decide
  | _ =>
    obtain rfl : t = _ := h
    exact Iff.rfl

/-- A raft takes nobody along who stands elsewhere. -/
theorem Raft.Turn.getElem?_robots {jetties : List Cell} {h h' : Harbour} {raft raft' : Raft}
    (ht : raft.Turn jetties h h' raft') {i : Nat} {r : Robot} (hr : h.robots[i]? = some r)
    (hne : raft.cell ≠ r.cell) : h'.robots[i]? = some r := by
  cases ht with
  | stay => exact hr
  | @carry there _ _ _ _ =>
    show (h.robots.map fun q => if q.cell = raft.cell then { q with cell := there } else q)[i]? = some r
    rw [List.getElem?_map, hr, Option.map_some, if_neg hne.symm]
  | home _ _ _ _ _ _ => exact hr

/-- Nor do all rafts together, by induction along them. -/
theorem Raft.ferryAll_getElem?_robots {jetties : List Cell} {i : Nat} {r : Robot} :
    ∀ {rafts rafts' : List Raft} {h h' : Harbour},
      Raft.ferryAll jetties h rafts = .ok (h', rafts') → h.robots[i]? = some r →
      (∀ raft ∈ rafts, raft.cell ≠ r.cell) → h'.robots[i]? = some r := by
  intro rafts
  induction rafts with
  | nil =>
    intro rafts' h h' hf hr _
    cases hf
    exact hr
  | cons raft rest ih =>
    intro rafts' h h' hf hr hne
    obtain ⟨mid, raft', others, hone, hrest, rfl⟩ := Raft.ferryAll_cons_cases hf
    exact ih hrest (hone.getElem?_robots hr (hne raft List.mem_cons_self))
      fun other hother => hne other (List.mem_cons_of_mem _ hother)

/-- So a robot that stands on no raft's cell is behind the ferry step as it was before it. -/
theorem ferry_getElem? {grid grid' : Grid} {robots robots' : List Robot} {rafts rafts' : List Raft}
    {jetties : List Cell} (hf : ferry grid robots rafts jetties = .ok (grid', robots', rafts'))
    {i : Nat} {r : Robot} (hr : robots[i]? = some r) (hne : ∀ raft ∈ rafts, raft.cell ≠ r.cell) :
    robots'[i]? = some r := by
  obtain ⟨h, hall, -, rfl⟩ := ferry_cases hf
  exact Raft.ferryAll_getElem?_robots hall hr hne

namespace Simulation

/-- What is an exit now has been one on the first board. -/
theorem Charted.isExit_eq {first : Grid} {s : State} (h : Charted first s) (exits : List Cell) (c : Cell) :
    isExit s.grid exits c = isExit first exits c := by
  unfold isExit
  split
  · rw [Bool.eq_iff_iff, beq_iff_eq, beq_iff_eq]
    exact (h.terrain.tiles c).goal_iff
  · rfl

/-- Whom no raft takes along is after the tick as its action has left it, unless it is on an exit. -/
theorem tick_getElem? {first : Grid} {t u : State} {entry : Entry} {orders : List (Option Action)}
    (hc : Charted first t) (hrun : t.status = .running) (hspawn : spawnPhase t = .ok entry)
    (hu : tick t orders = .ok u) {i : Nat} {q : Robot}
    (hq : (actedRobots t entry orders).1[i]? = some q) (hx : isExit t.grid t.exits q.cell = false)
    (hne : ∀ raft ∈ t.rafts, raft.cell ≠ q.cell) : u.robots[i]? = some q := by
  have hcharted := charted_tick hc hu
  obtain ⟨entry', grid, ferried, rafts, hspawn', hferry, rfl⟩ := tick_eq_settle hrun hu
  cases hspawn.symm.trans hspawn'
  have hstays : isExit grid t.exits q.cell = false := by
    rw [hc.isExit_eq] at hx
    exact (hcharted.isExit_eq t.exits q.cell).trans hx
  show (ferried.map (markExit grid t.exits))[i]? = some q
  rw [List.getElem?_map, ferry_getElem? hferry hq hne, Option.map_some, markExit, hstays, Bool.and_false,
    if_neg Bool.false_ne_true]

/-! ## Lines

  The order in the line is the order of acting: a robot follows one with a smaller index.  Between the two
  turns somebody else might step onto the cell that becomes free, which is excluded by what `Follows` says
  of those in between. -/

/-- The second robot comes after the first one and faces its cell, and nobody who comes between them ends
up there. -/
def Follows (robots acted : List Robot) (i j : Nat) : Prop :=
  i < j ∧ ∃ p r, robots[i]? = some p ∧ robots[j]? = some r ∧ r.cell.step r.heading = p.cell ∧
    ∀ k, i < k → k < j → ¬ BlocksAt acted p.cell k

/-- The robot blocks, is told to go forward, and faces a cell that is open, harmless and no exit. -/
def Marches (board : Board) (robots : List Robot) (orders : List (Option Action)) (i : Nat)
    (r : Robot) : Prop :=
  robots[i]? = some r ∧ r.blocking = true ∧ orders[i]?.join = some .moveForward ∧
    board.closed (r.cell.step r.heading) = false ∧
    (board.grid.tile (r.cell.step r.heading)).lethal = false ∧
    isExit board.grid board.exits (r.cell.step r.heading) = false

section Lines

variable {board : Board} {signal : Bool} {robots acted : List Robot}
  {orders : List (Option Action)} {i j : Nat} {r : Robot}

/-- Where a robot that marches finds the cell ahead free, it goes there. -/
theorem Marches.acted_eq (h : Marches board robots orders i r) (hexclusive : Exclusive robots)
    (hacted : acted = (actPhase board (occupiedCells robots) signal robots orders).1)
    (hsaved : ∀ k q, k + 1 < robots.length → robots[k]? = some q →
      markExit board.grid board.exits q = q)
    (hfree : ¬ Held robots acted (r.cell.step r.heading) i) :
    acted[i]? = some { r with cell := r.cell.step r.heading } := by
  obtain ⟨hr, hb, horder, hopen, hl, hx⟩ := h
  obtain ⟨-, hgoes⟩ := acted_forward hexclusive hacted hsaved hr hb horder
  rw [hgoes (not_or.2 ⟨hfree, Bool.eq_false_iff.1 hopen⟩), stepAhead_eq hl hx]

/-- A robot that follows one that has gone forward finds its cell free.  No later robot is on it, as the
robots stand apart; of the earlier ones, those before the leader would have found it occupied, the leader
has left it, and those in between do not end up there. -/
theorem Follows.not_held (h : Follows robots acted i j) (hexclusive : Exclusive robots)
    (hacted : acted = (actPhase board (occupiedCells robots) signal robots orders).1) {p : Robot}
    (hp : robots[i]? = some p) (hb : p.blocking = true)
    (hgone : acted[i]? = some { p with cell := p.cell.step p.heading }) (hr : robots[j]? = some r) :
    ¬ Held robots acted (r.cell.step r.heading) j := by
  obtain ⟨hij, p', r', hp', hr', hfaces, hbetween⟩ := h
  cases hp.symm.trans hp'
  cases hr.symm.trans hr'
  rw [hfaces]
  have hfirst : BlocksAt robots p.cell i := ⟨p, hp, hb, rfl⟩
  rintro (⟨k, hk, hblocks⟩ | ⟨k, hk, hblocks⟩)
  · have hik : k = i := hexclusive.eq_of_blocksAt hblocks hfirst
    omega
  · rcases Nat.lt_trichotomy k i with hlt | rfl | hgt
    · -- whoever has come before the first one cannot have come to its cell
      have hnew : ¬ BlocksAt robots p.cell k := fun hbefore => by
        have hik : k = i := hexclusive.eq_of_blocksAt hbefore hfirst
        omega
      have hi : i < robots.length := (List.getElem?_eq_some_iff.1 hp).1
      have hheld : Held robots acted p.cell k := Or.inl ⟨i, hlt, hfirst⟩
      exact notMem_of_comes hacted hblocks hnew (hheld.mem_occupiedAt hexclusive hacted (by omega))
    · exact Cell.step_ne p.cell p.heading ((blocksAt_iff hgone).1 hblocks).2
    · exact hbetween k hgt hk hblocks

/-- **A line advances as a whole** if its leader finds the cell ahead free.  By induction along the line:
the one that has gone forward is the leader of the rest. -/
theorem line_advances (hexclusive : Exclusive robots)
    (hacted : acted = (actPhase board (occupiedCells robots) signal robots orders).1)
    (hsaved : ∀ k q, k + 1 < robots.length → robots[k]? = some q →
      markExit board.grid board.exits q = q) :
    ∀ {followers : List Nat} {leader : Nat},
      List.IsChain (Follows robots acted) (leader :: followers) →
      (∀ i ∈ leader :: followers, ∃ r, Marches board robots orders i r) →
      (∀ r, robots[leader]? = some r → ¬ Held robots acted (r.cell.step r.heading) leader) →
      ∀ i ∈ leader :: followers, ∃ r, robots[i]? = some r ∧
        acted[i]? = some { r with cell := r.cell.step r.heading } := by
  intro followers
  induction followers with
  | nil =>
    intro leader _ hmarches hfree i hi
    rw [List.mem_singleton] at hi
    -- a line of one is its leader
    subst hi
    obtain ⟨r, hr⟩ := hmarches i List.mem_cons_self
    exact ⟨r, hr.1, hr.acted_eq hexclusive hacted hsaved (hfree r hr.1)⟩
  | cons next rest ih =>
    intro leader hchain hmarches hfree i hi
    obtain ⟨hfollows, hrest⟩ := List.isChain_cons_cons.1 hchain
    obtain ⟨r, hr⟩ := hmarches leader List.mem_cons_self
    have hgone := hr.acted_eq hexclusive hacted hsaved (hfree r hr.1)
    rcases List.mem_cons.1 hi with rfl | hi
    · exact ⟨r, hr.1, hgone⟩
    · -- the leader has left the cell that the next one wants, so this one leads the rest
      exact ih hrest (fun j hj => hmarches j (List.mem_cons_of_mem _ hj))
        (fun q hq => hfollows.not_held hexclusive hacted hr.1 hr.2.1 hgone hq) i hi

end Lines

/-! ## Runs

  All that is needed holds in every state of every run but one: that the robots stand apart is asked of
  the state at hand. -/

/-- **The law of moves.**  Take a state of a run that is running, whose blocking robots stand on distinct
cells, and whatever actions.  A robot that blocks and is told to go forward enters the cell ahead exactly
if that is no wall and no door that is shut, no later robot blocks it so far, and no earlier one blocks it
now; what becomes of it depends on the tile alone (`Move`).  So in a line of any length, in which each
robot faces the cell of the one before it, all go forward in one tick if the leader finds the cell ahead
free; and after the tick that is where they are, unless a raft lies there. -/
theorem moves_resolved {grid : Grid} {spawner : Spawner} {exits : List Cell}
    {maxSteps requiredSaved : Int} {s t : State} {entry : Entry} (orders : List (Option Action))
    (h : start grid spawner exits maxSteps requiredSaved = .ok s) (ht : Reaches s t)
    (hrun : t.status = .running) (hexclusive : Exclusive t.robots)
    (hspawn : spawnPhase t = .ok entry) :
    (∀ i r, entry.robots[i]? = some r → r.blocking = true →
      orders[i]?.join = some .moveForward →
      ∃ q, (actedRobots t entry orders).1[i]? = some q ∧
        Move t entry.robots (actedRobots t entry orders).1 i r q) ∧
      ∃ u, tick t orders = .ok u ∧
        ∀ leader followers,
          List.IsChain (Follows entry.robots (actedRobots t entry orders).1) (leader :: followers) →
          (∀ i ∈ leader :: followers, ∃ r, Marches (boardOf t entry.robots) entry.robots orders i r) →
          (∀ r, entry.robots[leader]? = some r →
            ¬ Held entry.robots (actedRobots t entry orders).1 (r.cell.step r.heading) leader) →
          ∀ i ∈ leader :: followers, ∃ r, entry.robots[i]? = some r ∧
            (actedRobots t entry orders).1[i]? = some { r with cell := r.cell.step r.heading } ∧
            ((∀ raft ∈ t.rafts, raft.cell ≠ r.cell.step r.heading) →
              u.robots[i]? = some { r with cell := r.cell.step r.heading }) := by
  have hcharted : Charted grid t := ht.invariant (P := Charted grid) charted_tick (charted_start h)
  have hsettled : Settled t := ht.invariant (P := Settled) settled_tick (settled_start h)
  refine ⟨fun i r => exists_move hexclusive hsettled hspawn, ?_⟩
  obtain ⟨grid', ferried, rafts, hferry⟩ :=
    ferry_ok hcharted.afloat.sound (actedRobots t entry orders).1 t.jetties
  have hu := tick_of_phases hrun hspawn hferry
  refine ⟨_, hu, fun leader followers hchain hmarches hfree i hi => ?_⟩
  obtain ⟨r, hr, hgone⟩ := line_advances (exclusive_spawn hspawn hexclusive) rfl
    (fun k q hk hq => settled_entry hsettled hspawn hk hq) hchain hmarches hfree i hi
  obtain ⟨r', hr', -, -, -, -, hx⟩ := hmarches i hi
  cases hr.symm.trans hr'
  exact ⟨r, hr, hgone, fun hne => tick_getElem? hcharted hrun hspawn hu hgone hx hne⟩

/-- A line of three robots goes forward. -/
theorem moves_resolved_three :
    ∃ s entry u, start ⟨[[.empty, .empty, .empty, .empty, .empty]]⟩
        { pose := ⟨⟨0, 0⟩, 1⟩, count := 3, starts := [⟨⟨2, 0⟩, 1⟩, ⟨⟨1, 0⟩, 1⟩] } [] 9 1 = .ok s ∧
      s.status = .running ∧ Exclusive s.robots ∧ spawnPhase s = .ok entry ∧
      tick s [some .moveForward, some .moveForward, some .moveForward] = .ok u ∧
      (∃ r q, entry.robots[1]? = some r ∧ r.blocking = true ∧
        Move s entry.robots
          (actedRobots s entry [some .moveForward, some .moveForward, some .moveForward]).1 1 r q) ∧
      ∀ i ∈ [0, 1, 2], ∃ r, entry.robots[i]? = some r ∧
        u.robots[i]? = some { r with cell := r.cell.step r.heading } := by
  obtain ⟨s, entry, r₀, r₁, r₂, hs, hrun, hentry, hrafts, hr₀, hr₁, hr₂, hcells⟩ :
      ∃ s entry r₀ r₁ r₂, start ⟨[[.empty, .empty, .empty, .empty, .empty]]⟩
          { pose := ⟨⟨0, 0⟩, 1⟩, count := 3, starts := [⟨⟨2, 0⟩, 1⟩, ⟨⟨1, 0⟩, 1⟩] } [] 9 1 = .ok s ∧
        s.status = .running ∧ spawnPhase s = .ok entry ∧ s.rafts = [] ∧
        Marches (boardOf s entry.robots) entry.robots
          [some .moveForward, some .moveForward, some .moveForward] 0 r₀ ∧
        Marches (boardOf s entry.robots) entry.robots
          [some .moveForward, some .moveForward, some .moveForward] 1 r₁ ∧
        Marches (boardOf s entry.robots) entry.robots
          [some .moveForward, some .moveForward, some .moveForward] 2 r₂ ∧
        r₁.cell.step r₁.heading = r₀.cell ∧ r₂.cell.step r₂.heading = r₁.cell ∧
        occupiedCells s.robots = [⟨2, 0⟩, ⟨1, 0⟩, ⟨0, 0⟩] ∧ entry.robots = s.robots ∧
        r₀.cell.step r₀.heading = ⟨3, 0⟩ := by
    refine ⟨_, _, _, _, _, rfl, rfl, rfl, rfl, ⟨rfl, rfl, rfl, rfl, rfl, rfl⟩,
      ⟨rfl, rfl, rfl, rfl, rfl, rfl⟩, ⟨rfl, rfl, rfl, rfl, rfl, rfl⟩, rfl, rfl, rfl, rfl, rfl⟩
  -- each of the followers faces the one ahead of it, and the leader a cell with nobody on it
  obtain ⟨hfaces₁, hfaces₂, hoccupied, hsame, hahead⟩ := hcells
  have hexclusive : Exclusive s.robots := by
    rw [Exclusive, hoccupied]
    decide
  obtain ⟨hmoves, u, hu, hline⟩ := moves_resolved
    [some .moveForward, some .moveForward, some .moveForward] hs .here hrun hexclusive hentry
  obtain ⟨q, -, hmove⟩ := hmoves 1 r₁ hr₁.1 hr₁.2.1 rfl
  refine ⟨s, entry, u, hs, hrun, hexclusive, hentry, hu, ⟨r₁, q, hr₁.1, hr₁.2.1, hmove⟩, fun i hi => ?_⟩
  have hchain : List.IsChain (Follows entry.robots
      (actedRobots s entry [some .moveForward, some .moveForward, some .moveForward]).1) [0, 1, 2] :=
    .cons_cons ⟨by decide, r₀, r₁, hr₀.1, hr₁.1, hfaces₁, fun k hk hk' => by omega⟩
      (.cons_cons ⟨by decide, r₁, r₂, hr₁.1, hr₂.1, hfaces₂, fun k hk hk' => by omega⟩ (.singleton 2))
  have hmarches : ∀ j ∈ [0, 1, 2], ∃ r, Marches (boardOf s entry.robots) entry.robots
      [some .moveForward, some .moveForward, some .moveForward] j r := by
    intro j hj
    simp only [List.mem_cons, List.not_mem_nil, or_false] at hj
    rcases hj with rfl | rfl | rfl
    · exact ⟨r₀, hr₀⟩
    · exact ⟨r₁, hr₁⟩
    · exact ⟨r₂, hr₂⟩
  -- the cell ahead of the leader is free at the start of the tick, and nobody acts before the
  -- leader
  have hnobody : ∀ r, entry.robots[0]? = some r → ¬ Held entry.robots
      (actedRobots s entry [some .moveForward, some .moveForward, some .moveForward]).1
      (r.cell.step r.heading) 0 := by
    intro r hr
    cases hr.symm.trans hr₀.1
    rw [hahead]
    rintro (⟨j, -, hblocks⟩ | ⟨j, hj, -⟩)
    · have hmem := mem_occupiedCells_iff.2 ⟨j, hblocks⟩
      rw [hsame, hoccupied] at hmem
      exact absurd hmem (by decide)
    · exact absurd hj (Nat.not_lt_zero j)
  obtain ⟨r, hr, -, hgoes⟩ := hline 0 [1, 2] hchain hmarches hnobody i hi
  exact ⟨r, hr, hgoes fun raft hraft => by rw [hrafts] at hraft; cases hraft⟩

end Simulation

end RobotPuzzle
