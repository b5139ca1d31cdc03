/-
  What a robot sees of its way, and what comes of it when it goes.

  A robot looks before the entry of a tick and acts behind it, so the two may see different doors.

  1. **Looking** — a side is clear if its tile is neither wall nor lethal nor a door that is shut
     (`Sight.clear_iff`).  To look to a side is to turn there and look ahead (`Sight.sees_after_turn`).
  2. **Doors** — an entry shuts no door.  It opens them only if the robot that enters stands on a plate
     (`doorOpen_entry_iff`).
  3. **Going** — so a clear path is open and harmless when the robot acts, and a path that is not clear is
     closed or lethal then, but for a door that opens just in between (`clear_ahead_iff`).  What the robot
     sees foretells what a step forward makes of it (`Foretold`), in every state of every run
     (`sight_foretells`).

  The crux is the time in between.  A robot is asked before anybody enters in the tick, and it goes behind
  the entry; of all that the two moments may differ in, the cells of the board, the doors and the robots,
  only the doors matter to what it sees, and only an entry onto a plate opens them.  Who holds the cell
  ahead is no part of what a robot sees, so it stays as a condition.

  What a robot sees is asked at the start of a tick, before anybody enters, and its move is made after
  that; this is where the exception comes from, and `doorOpen_entry_iff` is exact about it.  Whether
  another robot holds the cell on its turn cannot be seen by a sensor, so that condition remains in the
  statement.
-/
import RobotPuzzle.Evaluation.Run
import RobotPuzzle.Proofs.Convoy

namespace RobotPuzzle

/-! ## Looking

  A robot sees tiles and doors, and no other robots.  Turning moves nobody, so the sight behind a turn is
  that of the same cell with another heading. -/

namespace Sight

theorem clear_iff (s : Sight) (side : Side) : s.clear side = true ↔
    s.tileAt side ≠ .wall ∧ (s.tileAt side).lethal = false ∧
      (s.tileAt side = .door → s.doorOpen = true) := by
  simp only [clear, Bool.and_eq_true, bne_iff_ne, Bool.not_eq_true', Bool.or_eq_true, and_assoc,
    ne_eq, ← imp_iff_not_or]

/-- What a robot sees to its left and to its right is what it would see ahead after the turn. -/
theorem sees_after_turn (s : Sight) (blocked : Cell → Bool) (hb : s.robot.blocking = true) :
    s.sees .leftClear =
        ({ s with robot := s.robot.apply s.grid blocked .turnLeft } : Sight).sees .pathAheadClear ∧
      s.sees .rightClear =
        ({ s with robot := s.robot.apply s.grid blocked .turnRight } : Sight).sees .pathAheadClear := by
  have hleft : s.robot.apply s.grid blocked .turnLeft
      = { s.robot with heading := s.robot.heading.left } := if_pos hb
  have hright : s.robot.apply s.grid blocked .turnRight
      = { s.robot with heading := s.robot.heading.right } := if_pos hb
  rw [hleft, hright]
  exact ⟨rfl, rfl⟩

end Sight

namespace Simulation

/-! ## Doors

  Doors are open when they have been unlocked, now or earlier, and a plate that is held unlocks them.  So
  an entry can open them and nothing can shut them. -/

/-- The robot that enters in this tick enters on a pressure plate. -/
def EntersOnPlate (t : State) (entry : Entry) : Prop :=
  ∃ p, entry.robots = t.robots ++ [p] ∧ t.grid.tile p.cell = .plate

section Going

variable {t : State} {entry : Entry} {r : Robot}

/-- The doors are open for the actions of a tick if they were before, or if somebody enters on a plate. -/
theorem doorOpen_entry_iff (hspawn : spawnPhase t = .ok entry) :
    (boardOf t entry.robots).doorOpen = true ↔ t.isDoorOpen = true ∨ EntersOnPlate t entry := by
  have hopen : (boardOf t entry.robots).doorOpen = true ↔
      t.doorUnlocked = true ∨ platePressed t.grid entry.robots = true := Bool.or_eq_true_iff
  have hwasOpen : t.isDoorOpen = true ↔
      t.doorUnlocked = true ∨ platePressed t.grid t.robots = true := Bool.or_eq_true_iff
  rw [hopen, hwasOpen, or_assoc]
  refine or_congr_right ?_
  rcases spawnPhase_cases hspawn with ⟨-, hentry⟩ | ⟨index, p, -, henter, hentry⟩
  · -- nobody enters, so the same plates are pressed
    have hrobots : entry.robots = t.robots := by rw [hentry]
    rw [hrobots]
    refine ⟨Or.inl, fun h => h.resolve_right ?_⟩
    rintro ⟨p, hp, -⟩
    have hlength : t.robots.length = t.robots.length + 1 :=
      (congrArg List.length (hrobots.symm.trans hp)).trans List.length_append
    omega
  · have hrobots : entry.robots = t.robots ++ [p] := by rw [hentry]
    obtain ⟨heading, -, hp⟩ := enter_cases henter
    have hb : p.blocking = true := by
      rw [hp]
      rfl
    -- one robot enters, and it presses a plate just if it stands on one
    have honPlate : platePressed t.grid [p] = true ↔ EntersOnPlate t entry := by
      rw [platePressed, List.any_cons, List.any_nil, Bool.or_false, hb, Bool.true_and, beq_iff_eq]
      refine ⟨fun hplate => ⟨p, hrobots, hplate⟩, ?_⟩
      rintro ⟨p', hp', hplate⟩
      cases List.append_cancel_left (hrobots.symm.trans hp')
      exact hplate
    rw [← honPlate, hrobots, platePressed, List.any_append, Bool.or_eq_true]
    rfl

/-! ## Going

  The law of moves tells who goes and what becomes of it; it remains to put closed and lethal tiles in
  terms of what was seen. -/

/-- The path ahead of a robot is clear exactly if the cell ahead is neither closed nor lethal when the
robots act, and is no door that only opens because somebody enters on a plate. -/
theorem clear_ahead_iff (hspawn : spawnPhase t = .ok entry) (r : Robot) :
    (t.sight r).sees .pathAheadClear = true ↔
      (boardOf t entry.robots).closed (r.cell.step r.heading) = false ∧
        (t.grid.tile (r.cell.step r.heading)).lethal = false ∧
        (t.grid.tile (r.cell.step r.heading) = .door → t.isDoorOpen = true) := by
  have hclear : (t.sight r).sees .pathAheadClear = true ↔ t.grid.tile (r.cell.step r.heading) ≠ .wall ∧
      (t.grid.tile (r.cell.step r.heading)).lethal = false ∧
      (t.grid.tile (r.cell.step r.heading) = .door → t.isDoorOpen = true) :=
    (t.sight r).clear_iff .ahead
  rw [hclear, (boardOf t entry.robots).closed_eq_false_iff, doorOpen_entry_iff hspawn]
  constructor
  · rintro ⟨hwall, hharmless, hdoor⟩
    exact ⟨⟨hwall, fun h => Or.inl (hdoor h)⟩, hharmless, hdoor⟩
  · rintro ⟨⟨hwall, -⟩, hharmless, hdoor⟩
    exact ⟨hwall, hharmless, hdoor⟩

/-- A path that is not clear is closed or lethal when the robots act, or leads through a door that opens
in between.  It is `clear_ahead_iff` read for a path that is not clear. -/
theorem unclear_cases (hspawn : spawnPhase t = .ok entry)
    (hunclear : (t.sight r).sees .pathAheadClear = false) :
    (boardOf t entry.robots).closed (r.cell.step r.heading) = true ∨
      (t.grid.tile (r.cell.step r.heading)).lethal = true ∨
      (t.grid.tile (r.cell.step r.heading) = .door ∧ EntersOnPlate t entry) := by
  cases hclosed : (boardOf t entry.robots).closed (r.cell.step r.heading) with
  | true => exact Or.inl rfl
  | false =>
    cases hlethal : (t.grid.tile (r.cell.step r.heading)).lethal with
    | true => exact Or.inr (Or.inl rfl)
    | false =>
      have hshut : ¬ (t.grid.tile (r.cell.step r.heading) = .door → t.isDoorOpen = true) := fun hdoor => by
        rw [(clear_ahead_iff hspawn r).2 ⟨hclosed, hlethal, hdoor⟩] at hunclear
        cases hunclear
      obtain ⟨hdoor, hwasShut⟩ := Classical.not_imp.1 hshut
      have hopens := (((boardOf t entry.robots).closed_eq_false_iff _).1 hclosed).2 hdoor
      exact Or.inr (Or.inr ⟨hdoor, ((doorOpen_entry_iff hspawn).1 hopens).resolve_left hwasShut⟩)

/-- What a robot that goes forward makes of itself, as far as it could see it before the tick. -/
structure Foretold (t : State) (entry : Entry) (acted : List Robot) (i : Nat) (r q : Robot) : Prop where
  /-- a clear path brings it ahead alive, unless another robot holds the cell on its turn -/
  clear : (t.sight r).sees .pathAheadClear = true →
    (q.cell = r.cell.step r.heading ∧ q.alive = true ↔
      ¬ Held entry.robots acted (r.cell.step r.heading) i)
  /-- a path that is not clear brings it ahead alive only through a door that opens because a robot enters
  on a plate -/
  unclear : (t.sight r).sees .pathAheadClear = false →
    (q.cell = r.cell.step r.heading ∧ q.alive = true ↔
      t.grid.tile (r.cell.step r.heading) = .door ∧ EntersOnPlate t entry ∧
        ¬ Held entry.robots acted (r.cell.step r.heading) i)
  /-- and who does not come ahead alive stays as it is, or dies -/
  otherwise : ¬ (q.cell = r.cell.step r.heading ∧ q.alive = true) → q = r ∨ q.alive = false

/-- **One step forward** in a settled state whose robots stand apart: it comes out as the robot could see.
By cases on whether the path is clear; where it is not, by whether the cell ahead is closed, lethal, or a
door that has opened since. -/
theorem exists_foretold {orders : List (Option Action)} {i : Nat} (hexclusive : Exclusive t.robots)
    (hs : Settled t) (hspawn : spawnPhase t = .ok entry) (hr : t.robots[i]? = some r)
    (hb : r.blocking = true) (horder : orders[i]?.join = some .moveForward) :
    ∃ q, (actedRobots t entry orders).1[i]? = some q ∧
      Foretold t entry (actedRobots t entry orders).1 i r q := by
  have hentered : entry.robots[i]? = some r := by
    obtain ⟨entered, hrobots, -, -⟩ := spawnPhase_enters hspawn
    rw [hrobots, List.getElem?_append_left (List.getElem?_eq_some_iff.1 hr).1]
    exact hr
  have hacted : (actedRobots t entry orders).1 = (actPhase (boardOf t entry.robots)
      (occupiedCells entry.robots) t.globalSignal entry.robots orders).1 := rfl
  obtain ⟨hstays, hgoes⟩ := acted_forward (exclusive_spawn hspawn hexclusive) hacted
    (fun k q hk hq => settled_entry hs hspawn hk hq) hentered hb horder
  by_cases hblocked : Held entry.robots (actedRobots t entry orders).1 (r.cell.step r.heading) i ∨
      (boardOf t entry.robots).closed (r.cell.step r.heading) = true
  · -- it stays where it was, which is no exit
    have hsame : markExit t.grid t.exits r = r := hs.exits r (List.mem_of_getElem? hr)
    have hnot : ¬ (r.cell = r.cell.step r.heading ∧ r.alive = true) :=
      fun h => Cell.step_ne r.cell r.heading h.1.symm
    refine ⟨r, (hstays hblocked).trans (congrArg some hsame), fun hclear => ?_, fun _ => ?_,
      fun _ => Or.inl rfl⟩
    · have hopen := ((clear_ahead_iff hspawn r).1 hclear).1
      refine iff_of_false hnot (not_not.2 (hblocked.resolve_right fun hclosed => ?_))
      rw [hopen] at hclosed
      cases hclosed
    · refine iff_of_false hnot fun ⟨hdoor, henters, hfree⟩ => ?_
      have hopen : (boardOf t entry.robots).closed (r.cell.step r.heading) = false := by
        refine ((boardOf t entry.robots).closed_eq_false_iff _).2 ⟨fun hwall => ?_, fun _ => ?_⟩
        · exact Tile.noConfusion (hdoor.symm.trans hwall)
        · exact (doorOpen_entry_iff hspawn).2 (Or.inr henters)
      rcases hblocked with hheld | hclosed
      · exact hfree hheld
      · rw [hopen] at hclosed
        cases hclosed
  · -- it goes ahead, and dies there if the tile is lethal
    obtain ⟨hfree, hclosed⟩ := not_or.1 hblocked
    obtain ⟨-, hdies, -⟩ := stepAhead_fate (boardOf t entry.robots) hb
    rw [← Tile.lethal_iff] at hdies
    have hcell := stepAhead_cell (boardOf t entry.robots) r
    refine ⟨_, hgoes hblocked, ?_⟩
    cases hlethal : (t.grid.tile (r.cell.step r.heading)).lethal with
    | true =>
      have hdead := hdies.2 hlethal
      have hnot : ¬ ((stepAhead (boardOf t entry.robots) r).cell = r.cell.step r.heading ∧
          (stepAhead (boardOf t entry.robots) r).alive = true) := fun h => by
        rw [hdead] at h
        cases h.2
      refine ⟨fun hclear => ?_, fun _ => iff_of_false hnot fun h => ?_, fun _ => Or.inr hdead⟩
      · rw [((clear_ahead_iff hspawn r).1 hclear).2.1] at hlethal
        cases hlethal
      · rw [h.1] at hlethal
        cases hlethal
    | false =>
      have halive : (stepAhead (boardOf t entry.robots) r).alive = true := by
        rw [← Bool.not_eq_false, hdies, Bool.not_eq_true]
        exact hlethal
      refine ⟨fun _ => iff_of_true ⟨hcell, halive⟩ hfree, fun hunclear => ?_,
        fun hnot => absurd ⟨hcell, halive⟩ hnot⟩
      rcases unclear_cases hspawn hunclear with hshut | hdeadly | ⟨hdoor, henters⟩
      · exact absurd hshut hclosed
      · rw [hlethal] at hdeadly
        cases hdeadly
      · exact iff_of_true ⟨hcell, halive⟩ ⟨hdoor, henters, hfree⟩

end Going

/-! ## Runs

  Every state of a run is settled, and a robot that is there before the entry has the same index behind
  it. -/

/-- **What a robot sees foretells its way.**  In any state of any run whose blocking robots stand apart, a
blocking robot that goes forward is ahead and alive behind the actions of the tick if it saw the path
clear, unless another robot holds the cell on its turn; if it did not see the path clear it stays or
dies, unless the cell ahead is a door and a robot enters onto a plate in this very tick.  What it sees
to a side is what it would see ahead after the turn to that side. -/
theorem sight_foretells {grid : Grid} {spawner : Spawner} {exits : List Cell}
    {maxSteps requiredSaved : Int} {s t : State} {entry : Entry} {i : Nat} {r : Robot}
    (h : start grid spawner exits maxSteps requiredSaved = .ok s) (ht : Reaches s t)
    (hexclusive : Exclusive t.robots) (hspawn : spawnPhase t = .ok entry)
    (hr : t.robots[i]? = some r) (hb : r.blocking = true) :
    (∀ orders : List (Option Action), orders[i]?.join = some .moveForward →
      ∃ q, (actedRobots t entry orders).1[i]? = some q ∧
        Foretold t entry (actedRobots t entry orders).1 i r q) ∧
      ∀ blocked : Cell → Bool,
        (t.sight r).sees .leftClear
          = (t.sight (r.apply t.grid blocked .turnLeft)).sees .pathAheadClear ∧
        (t.sight r).sees .rightClear
          = (t.sight (r.apply t.grid blocked .turnRight)).sees .pathAheadClear := by
  have hsettled : Settled t := ht.invariant (P := Settled) settled_tick (settled_start h)
  exact ⟨fun orders => exists_foretold hexclusive hsettled hspawn hr hb,
    fun blocked => (t.sight r).sees_after_turn blocked hb⟩

/-- A robot stands before a shut door when another one enters, onto a plate: it sees no clear path, and
goes through all the same. -/
theorem sight_foretells_plate :
    ∃ s t entry r q, start ⟨[[.empty, .door, .empty], [.plate, .empty, .empty]]⟩
        { pose := ⟨⟨0, 1⟩, 1⟩, count := 2, interval := 1, starts := [⟨⟨0, 0⟩, 1⟩] } [] 9 1 = .ok s ∧
      tick s [] = .ok t ∧ Exclusive t.robots ∧ spawnPhase t = .ok entry ∧ t.robots[0]? = some r ∧
      r.blocking = true ∧ (t.sight r).sees .pathAheadClear = false ∧
      (actedRobots t entry [some .moveForward]).1[0]? = some q ∧ EntersOnPlate t entry ∧
      q.cell = ⟨1, 0⟩ ∧ q.alive = true := by
  obtain ⟨s, t, entry, r, p, hs, ht, hexclusive, hentry, hr, hb, hunclear, hahead, hdoor, hone, htwo,
      hcell, hplate⟩ :
      ∃ s t entry r p, start ⟨[[.empty, .door, .empty], [.plate, .empty, .empty]]⟩
          { pose := ⟨⟨0, 1⟩, 1⟩, count := 2, interval := 1, starts := [⟨⟨0, 0⟩, 1⟩] } [] 9 1 = .ok s ∧
        tick s [] = .ok t ∧ Exclusive t.robots ∧ spawnPhase t = .ok entry ∧ t.robots[0]? = some r ∧
        r.blocking = true ∧ (t.sight r).sees .pathAheadClear = false ∧
        r.cell.step r.heading = ⟨1, 0⟩ ∧ t.grid.tile ⟨1, 0⟩ = .door ∧ t.robots = [r] ∧
        entry.robots = [r, p] ∧ p.cell = ⟨0, 1⟩ ∧ t.grid.tile p.cell = .plate :=
    ⟨_, _, _, _, _, rfl, rfl, by decide, rfl, rfl, rfl, rfl, rfl, rfl, rfl, rfl, rfl, rfl⟩
  obtain ⟨hgoes, -⟩ := sight_foretells hs (.tick .here ht) hexclusive hentry hr hb
  obtain ⟨q, hq, hfate⟩ := hgoes [some .moveForward] rfl
  have henters : EntersOnPlate t entry := ⟨p, by rw [hone, htwo]; rfl, hplate⟩
  -- the door is held by nobody: the other robot is on the plate
  have hfree : ¬ Held entry.robots (actedRobots t entry [some .moveForward]).1 ⟨1, 0⟩ 0 := by
    rintro (⟨j, -, hblocks⟩ | ⟨j, hj, -⟩)
    · have hmem := mem_occupiedCells_iff.2 ⟨j, hblocks⟩
      obtain ⟨other, hother, -, hthere⟩ := mem_occupiedCells.1 hmem
      rw [htwo, List.mem_cons, List.mem_singleton] at hother
      rcases hother with rfl | rfl
      · exact Cell.step_ne other.cell other.heading (hahead.trans hthere.symm)
      · rw [hcell] at hthere
        exact absurd hthere (by decide)
    · exact absurd hj (Nat.not_lt_zero j)
  rw [← hahead] at hfree hdoor
  obtain ⟨hthere, halive⟩ := (hfate.unclear hunclear).2 ⟨hdoor, henters, hfree⟩
  exact ⟨s, t, entry, r, q, hs, ht, hexclusive, hentry, hr, hb, hunclear, hq, henters,
    hthere.trans hahead, halive⟩

end Simulation

end RobotPuzzle
