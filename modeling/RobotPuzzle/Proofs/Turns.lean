/-
  The robots act one after the other.

  1. **A turn** — `turn` is what one robot makes of itself and of the occupied cells.  The actions of a
     tick are the turns of its robots, and `occupiedAt` are the cells that are occupied when the turn of
     a robot comes (`acted_getElem?`).
  2. **A step forward** — on its turn a robot goes to another cell exactly if it blocks, is told to go
     forward, and the cell ahead is neither occupied nor closed (`turn_enters_iff`).
  3. **Coming and going** — a cell is not occupied on a turn exactly if it is deserted, that is, somebody has
     left it and nobody has come since, or if it was free at first and nobody has come
     (`notMem_occupiedAt_iff`).
  4. **Held cells** — another robot may block a cell on a turn: one that is still to act, where it was, or
     one that has acted, where it is now (`Held`).  Where the robots stand apart, a held cell is occupied
     (`Held.mem_occupiedAt`).  Where some share a cell, the first one that leaves it takes it off the
     occupied cells for all of them; so it may be deserted and held at once.
  5. **Runs** — so a robot walks onto a held cell exactly if the cell is deserted (`walksOn_iff`).  It can
     happen (`not_kept_off_shared`).

  The crux is the third point.  Which cells are occupied on a turn is the outcome of all turns before it,
  and it is not what the robots stand on: robots that share a cell have it on the list once, so one that
  leaves it takes it away for the others as well.  Put as an equivalence for one more turn
  (`mem_occupiedAt_succ`), this gives by induction an exact account of the cells that are missing, and the
  whole of the matter follows from it.

  The occupied cells are an accumulator that each robot changes on its turn, and `Deserted` tells from
  outside what it has come to.  The theorem says exactly when a robot can walk onto another one, and then
  that it never does where the robots stand apart, as in any level with an interval.
-/
import RobotPuzzle.Proofs.Bystanders
import RobotPuzzle.Proofs.Footing

namespace RobotPuzzle

/-! ## Who blocks a cell

  Robots are told apart by their index, as two of them may be on one cell. -/

/-- The robot with that index blocks the cell. -/
def BlocksAt (robots : List Robot) (c : Cell) (i : Nat) : Prop :=
  ∃ r, robots[i]? = some r ∧ r.blocking = true ∧ r.cell = c

/-- Of a robot that is there: it blocks the cell if it blocks and stands on it. -/
theorem blocksAt_iff {robots : List Robot} {c : Cell} {i : Nat} {r : Robot} (hr : robots[i]? = some r) :
    BlocksAt robots c i ↔ r.blocking = true ∧ r.cell = c := by
  constructor
  · rintro ⟨q, hq, hb, hc⟩
    cases hr.symm.trans hq
    exact ⟨hb, hc⟩
  · rintro ⟨hb, hc⟩
    exact ⟨r, hr, hb, hc⟩

/-- A cell is occupied at first exactly if some robot blocks it. -/
theorem mem_occupiedCells_iff {robots : List Robot} {c : Cell} :
    c ∈ occupiedCells robots ↔ ∃ i, BlocksAt robots c i := by
  rw [mem_occupiedCells]
  constructor
  · rintro ⟨r, hr, hb, hc⟩
    obtain ⟨i, hi⟩ := List.mem_iff_getElem?.1 hr
    exact ⟨i, r, hi, hb, hc⟩
  · rintro ⟨i, r, hr, hb, hc⟩
    exact ⟨r, List.mem_of_getElem? hr, hb, hc⟩

/-- Robots that stand apart do not share a cell. -/
theorem Exclusive.eq_of_blocksAt {robots : List Robot} (h : Exclusive robots) {c : Cell} {i j : Nat}
    (hi : BlocksAt robots c i) (hj : BlocksAt robots c j) : i = j := by
  have happart : robots.Pairwise fun a b => a.blocking = true → b.blocking = true →
      a.cell ≠ b.cell := by
    have hcells := h
    rw [Exclusive, occupiedCells, List.Nodup, List.pairwise_map, List.pairwise_filter] at hcells
    exact hcells
  rw [List.pairwise_iff_getElem] at happart
  obtain ⟨q, hq, hqb, hqc⟩ := hi
  obtain ⟨r, hr, hrb, hrc⟩ := hj
  obtain ⟨hil, rfl⟩ := List.getElem?_eq_some_iff.1 hq
  obtain ⟨hjl, rfl⟩ := List.getElem?_eq_some_iff.1 hr
  rcases Nat.lt_trichotomy i j with hlt | heq | hgt
  · exact absurd (hqc.trans hrc.symm) (happart i j hil hjl hlt hqb hrb)
  · exact heq
  · exact absurd (hrc.trans hqc.symm) (happart j i hjl hil hgt hrb hqb)

namespace Simulation

/-! ## A turn

  The phase goes through robots, occupied cells, signal and orders in one recursion.  Here the turn of a
  single robot is cut out of it; the signal has no part in where robots go. -/

/-- What one robot makes of itself and of the occupied cells on its turn. -/
def turn (board : Board) (occupied : List Cell) (r : Robot) : Option Action → Robot × List Cell
  | none => (markExit board.grid board.exits r, occupied)
  | some action =>
    let acted := actOne board (vacated occupied r) r action
    (acted, if acted.blocking then acted.cell :: vacated occupied r else vacated occupied r)

/-- The cells that are occupied when the turn of the robot with that index comes. -/
def occupiedAt (board : Board) : List Cell → List Robot → List (Option Action) → Nat → List Cell
  | occupied, r :: rest, orders, i + 1 =>
    occupiedAt board (turn board occupied r orders.head?.join).2 rest orders.tail i
  | occupied, _, _, _ => occupied

section Turns

variable {board : Board} {occupied : List Cell} {signal : Bool} {robots : List Robot}
  {orders : List (Option Action)} {i : Nat} {r : Robot} {c : Cell}

/-- The actions of a tick are a turn and then those of the others. -/
theorem actPhase_cons (board : Board) (occupied : List Cell) (signal : Bool) (r : Robot)
    (rest : List Robot) (orders : List (Option Action)) :
    (actPhase board occupied signal (r :: rest) orders).1
      = (turn board occupied r orders.head?.join).1 ::
        (actPhase board (turn board occupied r orders.head?.join).2
          (heard signal orders.head?.join) rest orders.tail).1 := by
  rw [actPhase]
  cases orders.head?.join with
  | none => rfl
  | some action => rfl

/-- What becomes of a robot is what becomes of it on its turn, with the cells that are occupied then. -/
theorem acted_getElem? (signal : Bool) (hr : robots[i]? = some r) :
    (actPhase board occupied signal robots orders).1[i]?
      = some (turn board (occupiedAt board occupied robots orders i) r orders[i]?.join).1 := by
  induction robots generalizing occupied signal orders i with
  | nil => cases hr
  | cons q rest ih =>
    rw [actPhase_cons]
    cases i with
    | zero =>
      cases hr
      rw [List.getElem?_cons_zero, ← List.head?_eq_getElem?]
      rfl
    | succ i =>
      rw [List.getElem?_cons_succ, ih _ hr, List.getElem?_tail]
      rfl

/-- The cells that are occupied behind a turn are those which the turn leaves. -/
theorem occupiedAt_succ (hr : robots[i]? = some r) :
    occupiedAt board occupied robots orders (i + 1)
      = (turn board (occupiedAt board occupied robots orders i) r orders[i]?.join).2 := by
  induction robots generalizing occupied orders i with
  | nil => cases hr
  | cons q rest ih =>
    cases i with
    | zero =>
      cases hr
      rw [← List.head?_eq_getElem?]
      cases rest <;> rfl
    | succ i =>
      rw [occupiedAt, ih hr, List.getElem?_tail]
      rfl

/-- Leaving its cell takes a robot's own cell away, if it blocks, and no other one. -/
theorem mem_vacated_iff : c ∈ vacated occupied r ↔
    c ∈ occupied ∧ ¬ (r.blocking = true ∧ r.cell = c) := by
  unfold vacated
  cases r.blocking with
  | true =>
    rw [if_pos rfl, List.mem_filter, decide_eq_true_eq]
    exact and_congr_right fun _ => ⟨fun hne hc => hne hc.2.symm, fun hne hc => hne ⟨rfl, hc.symm⟩⟩
  | false =>
    rw [if_neg Bool.false_ne_true]
    exact ⟨fun h => ⟨h, fun hc => Bool.false_ne_true hc.1⟩, fun h => h.1⟩

/-- A turn makes a cell occupied if the robot ends it there, and frees it if the robot was there and does
not; without an order it does neither.  A robot that stays does both, so its cell is occupied afterwards.
-/
theorem mem_turn_iff (order : Option Action) : c ∈ (turn board occupied r order).2 ↔
    (order.isSome = true ∧ (turn board occupied r order).1.blocking = true ∧
        (turn board occupied r order).1.cell = c) ∨
      (c ∈ occupied ∧ ¬ (order.isSome = true ∧ r.blocking = true ∧ r.cell = c)) := by
  cases order with
  | none => simp [turn]
  | some action =>
    have hvacated : c ∈ vacated occupied r ↔ c ∈ occupied ∧ ¬ (r.blocking = true ∧ r.cell = c) :=
      mem_vacated_iff
    simp only [turn, Option.isSome_some, true_and]
    rw [← hvacated]
    split
    · rename_i hb
      rw [List.mem_cons, hb]
      simp [eq_comm]
    · rename_i hb
      simp [hb]

/-! ## A step forward

  Of all actions only going forward leads to another cell.  On its turn the robot has left its own cell,
  so that cell does not stand in its way. -/

/-- The robot goes to the cell ahead, where it may die or be saved. -/
def stepAhead (board : Board) (r : Robot) : Robot :=
  let ahead := r.cell.step r.heading
  if (board.grid.tile ahead).lethal then { r with cell := ahead, alive := false }
  else markExit board.grid board.exits { r with cell := ahead }

/-- Whatever becomes of the robot, it is on the cell ahead. -/
theorem stepAhead_cell (board : Board) (r : Robot) :
    (stepAhead board r).cell = r.cell.step r.heading := by
  unfold stepAhead markExit
  dsimp only
  split
  · rfl
  · split
    · rfl
    · rfl

/-- A robot that is told to go forward does so unless the cell ahead is occupied or closed. -/
theorem turn_forward (hb : r.blocking = true) :
    (turn board occupied r (some .moveForward)).1 =
      if r.cell.step r.heading ∈ occupied ∨ board.closed (r.cell.step r.heading) = true then
        markExit board.grid board.exits r
      else stepAhead board r := by
  have hahead : (vacated occupied r).contains (r.cell.step r.heading)
      = decide (r.cell.step r.heading ∈ occupied) := by
    rw [Bool.eq_iff_iff, List.contains_iff_mem, mem_vacated_iff, decide_eq_true_eq]
    exact ⟨fun h => h.1, fun h => ⟨h, fun hc => Cell.step_ne r.cell r.heading hc.2.symm⟩⟩
  simp only [turn, actOne, Robot.apply, hb, if_true, Robot.advance, hahead, Bool.or_eq_true,
    decide_eq_true_eq]
  split
  · rfl
  · -- the dead are not saved
    cases hl : (board.grid.tile (r.cell.step r.heading)).lethal with
    | true =>
      have hdead : ({ r with cell := r.cell.step r.heading, alive := false } : Robot).blocking = false :=
        rfl
      rw [stepAhead, hl, if_pos rfl, if_pos rfl, markExit_of_not_blocking hdead]
    | false => rw [stepAhead, hl, if_neg Bool.false_ne_true, if_neg Bool.false_ne_true]

/-- Only going forward takes a robot to another cell, and only where it is free to go.  From left to right
the other actions are ruled out one by one, as they leave the cell. -/
theorem turn_enters_iff {order : Option Action} :
    (turn board occupied r order).1.cell = c ∧ c ≠ r.cell ↔
      r.blocking = true ∧ order = some .moveForward ∧ c = r.cell.step r.heading ∧ c ∉ occupied ∧
        board.closed c = false := by
  constructor
  · rintro ⟨hcell, hne⟩
    cases order with
    | none =>
      -- no order: only the exit is looked at, and the cell stays
      have hstays : (turn board occupied r none).1.cell = r.cell :=
        markExit_cell board.grid board.exits r
      exact absurd (hcell.symm.trans hstays) hne
    | some action =>
      have hacts : (turn board occupied r (some action)).1.cell
          = (r.apply board.grid
              (fun c => (vacated occupied r).contains c || board.closed c) action).cell :=
        markExit_cell _ _ _
      rw [hcell] at hacts
      rcases r.apply_cell board.grid _ action with hsame | ⟨hb, hforward, hfree, hahead⟩
      · exact absurd (hacts.trans hsame) hne
      · rw [← hacts] at hahead
        rw [Bool.or_eq_false_iff, ← hahead] at hfree
        refine ⟨hb, congrArg some hforward, hahead, fun hmem => ?_, hfree.2⟩
        -- its own cell is given up, but no other one
        have hin : c ∈ vacated occupied r := mem_vacated_iff.2 ⟨hmem, fun hc => hne hc.2.symm⟩
        rw [List.contains_iff_mem.2 hin] at hfree
        cases hfree.1
  · rintro ⟨hb, rfl, rfl, hfree, hopen⟩
    refine ⟨?_, Cell.step_ne r.cell r.heading⟩
    -- the other way round, nothing is in the way
    have hgoes : ¬ (r.cell.step r.heading ∈ occupied ∨ board.closed (r.cell.step r.heading) = true) := by
      rintro (hmem | hclosed)
      · exact hfree hmem
      · rw [hopen] at hclosed
        cases hclosed
    rw [turn_forward hb, if_neg hgoes, stepAhead_cell]

/-- Whoever blocks after its turn blocked before it. -/
theorem blocking_of_turn {order : Option Action} (h : (turn board occupied r order).1.blocking = true) :
    r.blocking = true := by
  cases order with
  | none =>
    have hsame : markExit board.grid board.exits r = r := markExit_blocking h
    have hb : (markExit board.grid board.exits r).blocking = true := h
    rwa [hsame] at hb
  | some action => exact (actOne_blocking h).1

end Turns

/-! ## Coming and going

  A cell that somebody has left is deserted until somebody takes it.  Taking includes staying: a robot
  that acts and remains puts its cell back on the list. -/

/-- The robot with that index acts, and blocks the cell after it. -/
def Takes (acted : List Robot) (orders : List (Option Action)) (c : Cell) (i : Nat) : Prop :=
  orders[i]?.join.isSome = true ∧ BlocksAt acted c i

/-- The robot with that index acts, and blocks the cell no longer. -/
def Leaves (robots acted : List Robot) (orders : List (Option Action)) (c : Cell) (i : Nat) : Prop :=
  orders[i]?.join.isSome = true ∧ BlocksAt robots c i ∧ ¬ BlocksAt acted c i

/-- When the turn of the robot with that index comes, the cell has been left, and nobody has taken it
since. -/
def Deserted (robots acted : List Robot) (orders : List (Option Action)) (c : Cell) (i : Nat) : Prop :=
  ∃ k, k < i ∧ Leaves robots acted orders c k ∧ ∀ j, k < j → j < i → ¬ Takes acted orders c j

/-- Another robot blocks the cell when the turn of the robot with that index comes: a later one where it
has been so far, or an earlier one where it is now. -/
def Held (robots acted : List Robot) (c : Cell) (i : Nat) : Prop :=
  (∃ j, i < j ∧ BlocksAt robots c j) ∨ ∃ j, j < i ∧ BlocksAt acted c j

/-- A turn may end the desertion of a cell, or begin it. -/
theorem deserted_succ {robots acted : List Robot} {orders : List (Option Action)} {c : Cell} {i : Nat} :
    Deserted robots acted orders c (i + 1) ↔
      Leaves robots acted orders c i ∨
        (Deserted robots acted orders c i ∧ ¬ Takes acted orders c i) := by
  constructor
  · rintro ⟨k, hk, hleaves, hsince⟩
    rcases Nat.lt_succ_iff_lt_or_eq.1 hk with hlt | rfl
    · exact Or.inr ⟨⟨k, hlt, hleaves, fun j hkj hj => hsince j hkj (by omega)⟩,
        hsince i hlt (Nat.lt_succ_self i)⟩
    · exact Or.inl hleaves
  · rintro (hleaves | ⟨⟨k, hk, hleaves, hsince⟩, hnot⟩)
    · exact ⟨i, Nat.lt_succ_self i, hleaves, fun j hij hj => by omega⟩
    · refine ⟨k, by omega, hleaves, fun j hkj hj => ?_⟩
      rcases Nat.lt_succ_iff_lt_or_eq.1 hj with hlt | rfl
      · exact hsince j hkj hlt
      · exact hnot

section Actions

variable {board : Board} {signal : Bool} {robots acted : List Robot}
  {orders : List (Option Action)} {occupied : List Cell} {c : Cell} {i : Nat}

/-- The robot that acted is the robot after its turn. -/
theorem exists_turn (hacted : acted = (actPhase board occupied signal robots orders).1) {q : Robot}
    (hq : acted[i]? = some q) : ∃ r, robots[i]? = some r ∧
      q = (turn board (occupiedAt board occupied robots orders i) r orders[i]?.join).1 := by
  subst hacted
  have hlt := (List.getElem?_eq_some_iff.1 hq).1
  rw [actPhase_length] at hlt
  obtain ⟨r, hr⟩ : ∃ r, robots[i]? = some r := ⟨robots[i], List.getElem?_eq_getElem hlt⟩
  rw [acted_getElem? signal hr] at hq
  exact ⟨r, hr, (Option.some.inj hq).symm⟩

/-- Who blocks a cell without having acted has blocked it before: without an order a robot may only be
saved. -/
theorem blocksAt_of_acted (hacted : acted = (actPhase board occupied signal robots orders).1)
    (h : BlocksAt acted c i) (hrest : orders[i]?.join.isSome = false) : BlocksAt robots c i := by
  obtain ⟨q, hq, hb, hc⟩ := h
  obtain ⟨r, hr, rfl⟩ := exists_turn hacted hq
  rw [Option.isSome_eq_false_iff, Option.isNone_iff_eq_none] at hrest
  rw [hrest] at hb hc
  exact ⟨r, hr, blocking_of_turn hb, (markExit_cell board.grid board.exits r).symm.trans hc⟩

/-- Who comes to a cell finds it not occupied. -/
theorem notMem_of_comes (hacted : acted = (actPhase board occupied signal robots orders).1)
    (h : BlocksAt acted c i) (hnew : ¬ BlocksAt robots c i) :
    c ∉ occupiedAt board occupied robots orders i := by
  obtain ⟨q, hq, hb, hc⟩ := h
  obtain ⟨r, hr, rfl⟩ := exists_turn hacted hq
  have hmoves : c ≠ r.cell := by
    rintro rfl
    exact hnew ⟨r, hr, blocking_of_turn hb, rfl⟩
  obtain ⟨-, -, -, hfree, -⟩ := turn_enters_iff.1 ⟨hc, hmoves⟩
  exact hfree

/-- The cells occupied after a turn: the one that is taken, and of the others all but the one left.  It is
`mem_turn_iff` told by who blocks what, before and after. -/
theorem mem_occupiedAt_succ (hacted : acted = (actPhase board occupied signal robots orders).1)
    (hi : i < robots.length) :
    c ∈ occupiedAt board occupied robots orders (i + 1) ↔
      Takes acted orders c i ∨
        (c ∈ occupiedAt board occupied robots orders i ∧ ¬ Leaves robots acted orders c i) := by
  have hr : robots[i]? = some robots[i] := List.getElem?_eq_getElem hi
  have hq : acted[i]? = some (turn board (occupiedAt board occupied robots orders i) robots[i]
      orders[i]?.join).1 := hacted ▸ acted_getElem? signal hr
  rw [occupiedAt_succ hr, mem_turn_iff, ← blocksAt_iff hq, ← blocksAt_iff hr, Takes, Leaves]
  constructor
  · rintro (htakes | ⟨hmem, hnot⟩)
    · exact Or.inl htakes
    · exact Or.inr ⟨hmem, fun hleaves => hnot ⟨hleaves.1, hleaves.2.1⟩⟩
  · rintro (htakes | ⟨hmem, hnot⟩)
    · exact Or.inl htakes
    · by_cases htakes : orders[i]?.join.isSome = true ∧ BlocksAt acted c i
      · exact Or.inl htakes
      · exact Or.inr ⟨hmem, fun hwas => hnot ⟨hwas.1, hwas.2, fun his => htakes ⟨hwas.1, his⟩⟩⟩

/-- A cell is not occupied on a turn exactly if it is deserted, or if it was free at first and nobody has
taken it.  The induction is on the turns; one more turn may take the cell, leave it, or leave the matter
as it is. -/
theorem notMem_occupiedAt_iff (hacted : acted = (actPhase board occupied signal robots orders).1)
    (hi : i ≤ robots.length) :
    c ∉ occupiedAt board occupied robots orders i ↔
      Deserted robots acted orders c i ∨ (c ∉ occupied ∧ ∀ j, j < i → ¬ Takes acted orders c j) := by
  induction i with
  | zero =>
    -- before the first turn nobody has left or taken anything
    have hstart : occupiedAt board occupied robots orders 0 = occupied := by
      cases robots <;> rfl
    rw [hstart]
    constructor
    · intro hfree
      exact Or.inr ⟨hfree, fun j hj => absurd hj (Nat.not_lt_zero j)⟩
    · rintro (⟨k, hk, -⟩ | ⟨hfree, -⟩)
      · exact absurd hk (Nat.not_lt_zero k)
      · exact hfree
  | succ i ih =>
    have hnobody : (∀ j, j < i + 1 → ¬ Takes acted orders c j) ↔
        (∀ j, j < i → ¬ Takes acted orders c j) ∧ ¬ Takes acted orders c i :=
      Nat.forall_lt_succ_right
    -- who leaves the cell on this turn does not take it on the same turn
    have hleft : Leaves robots acted orders c i → ¬ Takes acted orders c i :=
      fun hleaves htakes => hleaves.2.2 htakes.2
    rw [mem_occupiedAt_succ hacted hi, deserted_succ, hnobody, not_or, not_and_or, not_not,
      ih (by omega)]
    constructor
    · rintro ⟨hnot, (hdeserted | ⟨hfree, hnobody⟩) | hleaves⟩
      · exact Or.inl (Or.inr ⟨hdeserted, hnot⟩)
      · exact Or.inr ⟨hfree, hnobody, hnot⟩
      · exact Or.inl (Or.inl hleaves)
    · rintro ((hleaves | ⟨hdeserted, hnot⟩) | ⟨hfree, hnobody, hnot⟩)
      · exact ⟨hleft hleaves, Or.inr hleaves⟩
      · exact ⟨hnot, Or.inl (Or.inl hdeserted)⟩
      · exact ⟨hnot, Or.inl (Or.inr ⟨hfree, hnobody⟩)⟩

/-! ## Held cells

  Being held is what a reader means by a cell that is in use; being occupied is what the robots go by.
  They differ in one direction only. -/

/-- A held cell is not occupied just if it is deserted.  It cannot have been free all the time, as the one
who holds it was there from the beginning or has taken it. -/
theorem Held.notMem_iff
    (hacted : acted = (actPhase board (occupiedCells robots) signal robots orders).1)
    (hi : i ≤ robots.length) (h : Held robots acted c i) :
    c ∉ occupiedAt board (occupiedCells robots) robots orders i ↔
      Deserted robots acted orders c i := by
  rw [notMem_occupiedAt_iff hacted hi]
  refine ⟨fun hor => hor.elim id ?_, Or.inl⟩
  -- who holds the cell has been there from the first, or has taken it
  rintro ⟨hfree, hnobody⟩
  rcases h with ⟨j, -, hj⟩ | ⟨j, hlt, hj⟩
  · exact absurd (mem_occupiedCells_iff.2 ⟨j, hj⟩) hfree
  · cases horder : orders[j]?.join.isSome with
    | true => exact absurd ⟨horder, hj⟩ (hnobody j hlt)
    | false => exact absurd (mem_occupiedCells_iff.2 ⟨j, blocksAt_of_acted hacted hj horder⟩) hfree

/-- **Robots that stand apart.**  Then a held cell is occupied.  Suppose it is deserted: somebody has left
it, and nobody has taken it since.  Whoever holds it is another one; if it is still to act it shared the
cell, and if it has acted it found the cell occupied when it came, by the induction on turns. -/
theorem Held.mem_occupiedAt (hexclusive : Exclusive robots)
    (hacted : acted = (actPhase board (occupiedCells robots) signal robots orders).1)
    (hi : i ≤ robots.length) (h : Held robots acted c i) :
    c ∈ occupiedAt board (occupiedCells robots) robots orders i := by
  induction i using Nat.strongRecOn with
  | _ i ih =>
    by_contra hfree
    obtain ⟨k, hk, hleaves, hsince⟩ := (h.notMem_iff hacted hi).1 hfree
    rcases h with ⟨j, hlt, hj⟩ | ⟨j, hlt, hj⟩
    · have hjk : j = k := hexclusive.eq_of_blocksAt hj hleaves.2.1
      omega
    · -- the holder is another robot than the one that has left, and has come before it left
      have hother : ¬ BlocksAt robots c j := fun hbefore => by
        obtain rfl : j = k := hexclusive.eq_of_blocksAt hbefore hleaves.2.1
        exact hleaves.2.2 hj
      have horder : orders[j]?.join.isSome = true := by
        cases horder : orders[j]?.join.isSome with
        | true => rfl
        | false => exact absurd (blocksAt_of_acted hacted hj horder) hother
      have hjk : j < k := by
        rcases Nat.lt_trichotomy j k with hjk | rfl | hjk
        · exact hjk
        · exact absurd hj hleaves.2.2
        · exact absurd ⟨horder, hj⟩ (hsince j hjk hlt)
      -- but then the cell was held when it came
      have hheld := ih j hlt (by omega) (Or.inl ⟨k, hjk, hleaves.2.1⟩)
      exact notMem_of_comes hacted hj hother hheld

/-- A robot walks onto a held cell exactly if that is where it is told to go, the cell is not closed, and it
is deserted. -/
theorem walksOn_acted_iff (c : Cell)
    (hacted : acted = (actPhase board (occupiedCells robots) signal robots orders).1) {r : Robot}
    (hr : robots[i]? = some r) :
    ∃ q, acted[i]? = some q ∧
      (q.cell = c ∧ c ≠ r.cell ∧ Held robots acted c i ↔
        r.blocking = true ∧ orders[i]?.join = some .moveForward ∧ c = r.cell.step r.heading ∧
          board.closed c = false ∧ Held robots acted c i ∧ Deserted robots acted orders c i) := by
  have hi : i < robots.length := (List.getElem?_eq_some_iff.1 hr).1
  refine ⟨_, hacted ▸ acted_getElem? signal hr, ?_⟩
  rw [← and_assoc, turn_enters_iff]
  constructor
  · rintro ⟨⟨hb, horder, hahead, hfree, hopen⟩, hheld⟩
    exact ⟨hb, horder, hahead, hopen, hheld, (hheld.notMem_iff hacted (by omega)).1 hfree⟩
  · rintro ⟨hb, horder, hahead, hopen, hheld, hdeserted⟩
    exact ⟨⟨hb, horder, hahead, (hheld.notMem_iff hacted (by omega)).2 hdeserted, hopen⟩, hheld⟩

end Actions

/-! ## Runs

  At the start of the actions the occupied cells are those of the robots behind the entry, and whether
  they stand apart is kept along a run. -/

/-- **Walking onto a held cell.**  In any state of any run, a robot walks onto a cell that another robot
blocks at that moment exactly if it is told to go there, the cell is not closed, and the cell is deserted:
a robot that shared it has left it on its turn, and nobody has acted there since.  Where the blocking
robots stand on distinct cells nobody does; so nobody ever does if the robots enter one after the other,
or stand apart at the start. -/
theorem walksOn_iff {grid : Grid} {spawner : Spawner} {exits : List Cell}
    {maxSteps requiredSaved : Int} {s t : State} {entry : Entry} (orders : List (Option Action))
    {i : Nat} {r : Robot} (h : start grid spawner exits maxSteps requiredSaved = .ok s)
    (ht : Reaches s t) (hspawn : spawnPhase t = .ok entry) (hr : entry.robots[i]? = some r) :
    ∃ q, (actedRobots t entry orders).1[i]? = some q ∧
      (q.cell ≠ r.cell ∧ Held entry.robots (actedRobots t entry orders).1 q.cell i ↔
        r.blocking = true ∧ orders[i]?.join = some .moveForward ∧
          (boardOf t entry.robots).closed (r.cell.step r.heading) = false ∧
          Held entry.robots (actedRobots t entry orders).1 (r.cell.step r.heading) i ∧
          Deserted entry.robots (actedRobots t entry orders).1 orders (r.cell.step r.heading) i) ∧
      (Exclusive t.robots → q.cell ≠ r.cell →
        ¬ Held entry.robots (actedRobots t entry orders).1 q.cell i) ∧
      (0 < spawner.interval ∨ Exclusive s.robots → q.cell ≠ r.cell →
        ¬ Held entry.robots (actedRobots t entry orders).1 q.cell i) := by
  have hlt : i < entry.robots.length := (List.getElem?_eq_some_iff.1 hr).1
  have hacted : (actedRobots t entry orders).1 = (actPhase (boardOf t entry.robots)
      (occupiedCells entry.robots) t.globalSignal entry.robots orders).1 := rfl
  have hwalks := fun c => walksOn_acted_iff c hacted hr
  obtain ⟨q, hq, -⟩ := hwalks r.cell
  -- the same for any cell `c`, with the robot that this one has become
  have hiff : ∀ c, q.cell = c ∧ c ≠ r.cell ∧ Held entry.robots (actedRobots t entry orders).1 c i ↔ _ :=
    fun c => by
      obtain ⟨q', hq', hiff⟩ := hwalks c
      cases hq.symm.trans hq'
      exact hiff
  -- with occupancy exclusive a held cell is occupied, and an occupied cell is not free to go to
  have hapart : Exclusive t.robots → q.cell ≠ r.cell →
      ¬ Held entry.robots (actedRobots t entry orders).1 q.cell i := by
    intro hexclusive hmoves hheld
    have hentered := exclusive_spawn hspawn hexclusive
    obtain ⟨-, -, -, -, hheld, hdeserted⟩ := (hiff q.cell).1 ⟨rfl, hmoves, hheld⟩
    exact (hheld.notMem_iff hacted (Nat.le_of_lt hlt)).2 hdeserted
      (hheld.mem_occupiedAt hentered hacted (Nat.le_of_lt hlt))
  refine ⟨q, hq, ⟨?_, ?_⟩, hapart, fun hstart => hapart ?_⟩
  · rintro ⟨hmoves, hheld⟩
    obtain ⟨hb, horder, hahead, hopen, hheld, hdeserted⟩ := (hiff q.cell).1 ⟨rfl, hmoves, hheld⟩
    rw [hahead] at hopen hheld hdeserted
    exact ⟨hb, horder, hopen, hheld, hdeserted⟩
  · rintro ⟨hb, horder, hopen, hheld, hdeserted⟩
    obtain ⟨hgoes, hmoves, hheld⟩ := (hiff _).2 ⟨hb, horder, rfl, hopen, hheld, hdeserted⟩
    rw [hgoes]
    exact ⟨hmoves, hheld⟩
  · obtain ⟨hinterval, hrun⟩ := reaches_exclusive h
    exact hrun (hstart.elim hinterval id) t ht

/-- Two robots share the cell ahead of a third one.  The first of them goes on, the second one waits there;
so the cell is not deserted, and the third one is kept off. -/
theorem walksOn_shared :
    ∃ s entry r q, start ⟨[[.empty, .empty, .empty]]⟩
        { pose := ⟨⟨1, 0⟩, 1⟩, count := 3, starts := [⟨⟨1, 0⟩, 1⟩, ⟨⟨1, 0⟩, 1⟩, ⟨⟨0, 0⟩, 1⟩] } [] 9 1
          = .ok s ∧
      s.status = .running ∧ spawnPhase s = .ok entry ∧ entry.robots[2]? = some r ∧
      (actedRobots s entry [some .moveForward, some .wait, some .moveForward]).1[2]? = some q ∧
      q.cell = r.cell ∧
      Held entry.robots
        (actedRobots s entry [some .moveForward, some .wait, some .moveForward]).1 ⟨1, 0⟩ 2 ∧
      ¬ Deserted entry.robots
        (actedRobots s entry [some .moveForward, some .wait, some .moveForward]).1
        [some .moveForward, some .wait, some .moveForward] ⟨1, 0⟩ 2 := by
  obtain ⟨s, entry, r, mate, q, hs, hrun, hentry, hr, hq, hstays, hb, hopen, hahead, hmate, hin⟩ :
      ∃ s entry r mate q, start ⟨[[.empty, .empty, .empty]]⟩
          { pose := ⟨⟨1, 0⟩, 1⟩, count := 3, starts := [⟨⟨1, 0⟩, 1⟩, ⟨⟨1, 0⟩, 1⟩, ⟨⟨0, 0⟩, 1⟩] } [] 9 1
            = .ok s ∧
        s.status = .running ∧ spawnPhase s = .ok entry ∧ entry.robots[2]? = some r ∧
        (actedRobots s entry [some .moveForward, some .wait, some .moveForward]).1[2]? = some q ∧
        q.cell = r.cell ∧ r.blocking = true ∧
        (boardOf s entry.robots).closed ⟨1, 0⟩ = false ∧ r.cell.step r.heading = ⟨1, 0⟩ ∧
        (actedRobots s entry [some .moveForward, some .wait, some .moveForward]).1[1]? = some mate ∧
        mate.blocking = true ∧ mate.cell = ⟨1, 0⟩ :=
    ⟨_, _, _, _, _, rfl, rfl, rfl, rfl, rfl, rfl, rfl, rfl, rfl, rfl, rfl, rfl⟩
  -- the second robot waits on the cell ahead
  have hheld : Held entry.robots
      (actedRobots s entry [some .moveForward, some .wait, some .moveForward]).1 ⟨1, 0⟩ 2 :=
    Or.inr ⟨1, by decide, mate, hmate, hin⟩
  obtain ⟨q', hq', hiff, -⟩ :=
    walksOn_iff [some .moveForward, some .wait, some .moveForward] hs .here hentry hr
  cases hq.symm.trans hq'
  refine ⟨s, entry, r, q, hs, hrun, hentry, hr, hq, hstays, hheld, fun hdeserted => ?_⟩
  rw [hahead] at hiff
  exact (hiff.2 ⟨hb, rfl, hopen, hheld, hdeserted⟩).1 hstays

/-- Two robots share the cell ahead of another one, which comes between them.  The first of them goes on,
and the one behind walks onto the cell where the second one still stands. -/
theorem not_kept_off_shared :
    ∃ s entry r q, start ⟨[[.empty, .empty, .empty]]⟩
        { pose := ⟨⟨0, 0⟩, 1⟩, count := 3, starts := [⟨⟨1, 0⟩, 1⟩, ⟨⟨0, 0⟩, 1⟩, ⟨⟨1, 0⟩, 1⟩] } [] 9 1
          = .ok s ∧
      s.status = .running ∧ spawnPhase s = .ok entry ∧ entry.robots[1]? = some r ∧
      (actedRobots s entry [some .moveForward, some .moveForward, some .wait]).1[1]? = some q ∧
      q.cell ≠ r.cell ∧
      Held entry.robots
        (actedRobots s entry [some .moveForward, some .moveForward, some .wait]).1 q.cell 1 := by
  refine ⟨_, _, _, _, rfl, rfl, rfl, rfl, rfl, by decide, Or.inl ⟨2, by decide, ?_⟩⟩
  exact ⟨_, rfl, rfl, rfl⟩

end Simulation

end RobotPuzzle
