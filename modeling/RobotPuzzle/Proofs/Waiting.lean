/-
  Waiting is doing nothing.

  1. **Plain orders** — an order to wait, no order and an order that is missing are one and the same
     (`plain`).  Two lists of orders are alike for `n` robots if they tell each of them the same
     (`Alike`).
  2. **A turn** — waiting makes of a robot what doing nothing makes of it (`turn_plain`).  It does not leave
     the occupied cells alone, though: a robot that waits takes its cell anew.  They matter only to a
     robot that goes forward, and only the cell ahead of it (`turn_congr`).
  3. **The actions** — where the robots stand apart, and nobody but the last can be saved without acting, the
     cells that are occupied on a turn are those that others hold.  Who holds a cell is read off the
     robots, and these are the same so far; so by induction all robots act alike (`acted_of_alike`).
     Where robots share a cell the argument fails: one that waits takes back what another has left.
  4. **A tick** — so lists that are alike for the robots of the tick make the same tick, whether they hold
     actions (`tick_of_alike`) or name them (`tickNamed_of_alike`).

  The crux is the third point, and the assumption that the robots stand apart.  Waiting is not nothing to
  the list of occupied cells, since a robot that waits puts its cell back on it; it is nothing only
  because a robot that stands alone has its cell on the list anyway.

  Orders can be given as actions and by their names, and for both it is said which lists come to the same.
  Names are read before the tick, so a list with a name that is none fails as a whole, unless the name
  stands behind the orders of the robots, where it is not read.
-/
import RobotPuzzle.Proofs.Convoy

namespace RobotPuzzle

namespace Simulation

/-! ## Plain orders

  Two orders are the same to a robot if they are the same up to waiting.  The lists need not have the same
  length: a robot behind the end of a list is told nothing. -/

/-- The order, with an order to wait as none. -/
def plain : Option Action → Option Action
  | some .wait => none
  | order => order

theorem plain_eq_none_iff {order : Option Action} :
    plain order = none ↔ order = none ∨ order = some .wait := by
  cases order with
  | none => simp [plain]
  | some action => cases action <;> simp [plain]

theorem heard_plain (signal : Bool) (order : Option Action) :
    heard signal (plain order) = heard signal order := by
  cases order with
  | none => rfl
  | some action => cases action <;> rfl

/-- The lists tell each of the first `n` robots the same. -/
def Alike (n : Nat) (a b : List (Option Action)) : Prop :=
  ∀ i < n, plain a[i]?.join = plain b[i]?.join

section Alike

variable {n : Nat} {a b rest more : List (Option Action)}

/-- Lists that tell the robots the same one by one are alike, for however many robots. -/
theorem alike_of_forall₂ (h : List.Forall₂ (fun order order' => plain order = plain order') a b) :
    Alike n a b := by
  intro i _
  rcases Nat.lt_or_ge i a.length with hi | hi
  · have hi' : i < b.length := h.length_eq ▸ hi
    rw [List.getElem?_eq_getElem hi, List.getElem?_eq_getElem hi']
    exact h.get hi hi'
  · rw [List.getElem?_eq_none hi, List.getElem?_eq_none (h.length_eq ▸ hi)]

/-- A list may be cut where nothing but waiting follows, and filled up with waiting. -/
theorem alike_append_rest (h : ∀ order ∈ rest, order = none ∨ order = some .wait) :
    Alike n (a ++ rest) a := by
  intro i _
  rcases Nat.lt_or_ge i a.length with hi | hi
  · rw [List.getElem?_append_left hi]
  · rw [List.getElem?_append_right hi, List.getElem?_eq_none hi]
    cases horder : rest[i - a.length]? with
    | none => rfl
    | some order => exact plain_eq_none_iff.2 (h order (List.mem_of_getElem? horder))

/-- Orders for nobody may be added and left away. -/
theorem alike_append_more (h : n ≤ a.length) : Alike n (a ++ more) a := by
  intro i hi
  rw [List.getElem?_append_left (by omega)]

end Alike

/-! ## A turn

  Of the three things that a turn reads — the order, the board and the occupied cells — the first two
  lemmas take one each. -/

end Simulation

/-- What may not be entered matters only to a robot that goes forward. -/
theorem Robot.apply_congr {grid : Grid} {blocked blocked' : Cell → Bool} {r : Robot} {action : Action}
    (h : r.blocking = true → action = .moveForward →
      blocked (r.cell.step r.heading) = blocked' (r.cell.step r.heading)) :
    r.apply grid blocked action = r.apply grid blocked' action := by
  unfold apply
  split
  · rename_i hb
    cases action with
    | moveForward => simp only [advance, h hb rfl]
    | turnLeft => rfl
    | turnRight => rfl
    | wait => rfl
    | signalOn => rfl
    | signalOff => rfl
  · rfl

namespace Simulation

section Turns

variable {board : Board} {occupied occupied' : List Cell} {r : Robot}

/-- Waiting makes of a robot what doing nothing makes of it. -/
theorem turn_plain (order : Option Action) :
    (turn board occupied r (plain order)).1 = (turn board occupied r order).1 := by
  by_cases hwait : order = some .wait
  · -- only the occupied cells differ, where the cell of the robot has come to the front
    have hstays : ∀ blocked, r.apply board.grid blocked .wait = r := fun blocked => ite_self r
    rw [hwait]
    simp only [plain, turn, actOne, hstays]
  · have hsame : plain order = order := by
      unfold plain
      split
      · exact absurd rfl hwait
      · rfl
    rw [hsame]

/-- What becomes of a robot on its turn depends on the cell ahead at most. -/
theorem turn_congr {order : Option Action} (hahead : r.blocking = true → order = some .moveForward →
      (r.cell.step r.heading ∈ occupied ↔ r.cell.step r.heading ∈ occupied')) :
    (turn board occupied r order).1 = (turn board occupied' r order).1 := by
  cases order with
  | none => rfl
  | some action =>
    refine congrArg (markExit board.grid board.exits) (Robot.apply_congr fun hb hforward => ?_)
    have hcells : (vacated occupied r).contains (r.cell.step r.heading)
        = (vacated occupied' r).contains (r.cell.step r.heading) := by
      rw [Bool.eq_iff_iff, List.contains_iff_mem, List.contains_iff_mem, mem_vacated_iff,
        mem_vacated_iff, hahead hb (congrArg some hforward)]
    rw [hcells]

end Turns

/-! ## The actions

  The occupied cells are no longer the same under both lists, so an induction along the turns would need a
  relation between them.  `Held` avoids that: by `Occupancy` it says which cells are occupied in terms of
  the robots alone. -/

/-- Who holds a cell is read off the robots that have acted so far. -/
theorem held_congr {robots acted acted' : List Robot} {i : Nat}
    (h : ∀ j, j < i → acted[j]? = acted'[j]?) (c : Cell) :
    Held robots acted c i ↔ Held robots acted' c i := by
  have hacted : ∀ j, j < i → (BlocksAt acted c j ↔ BlocksAt acted' c j) := fun j hj => by
    rw [BlocksAt, BlocksAt, h j hj]
  exact or_congr_right (exists_congr fun j => and_congr_right fun hj => hacted j hj)

/-- **Alike orders, alike actions**, where the robots stand apart and nobody but the last one is on an
exit. -/
theorem acted_of_alike {board : Board} {signal : Bool} {robots : List Robot}
    {a b : List (Option Action)} (hexclusive : Exclusive robots)
    (hsaved : ∀ k q, k + 1 < robots.length → robots[k]? = some q →
      markExit board.grid board.exits q = q)
    (h : Alike robots.length a b) :
    (actPhase board (occupiedCells robots) signal robots a).1
      = (actPhase board (occupiedCells robots) signal robots b).1 := by
  generalize hacted : (actPhase board (occupiedCells robots) signal robots a).1 = acted
  generalize hacted' : (actPhase board (occupiedCells robots) signal robots b).1 = acted'
  refine List.ext_getElem? fun i => ?_
  -- the induction is on the index, since a turn depends on what the robots before it have done
  induction i using Nat.strongRecOn with
  | _ i ih =>
    rcases Nat.lt_or_ge i robots.length with hi | hi
    · have hr : robots[i]? = some robots[i] := List.getElem?_eq_getElem hi
      have hown : ¬ BlocksAt robots (robots[i].cell.step robots[i].heading) i := fun hblocks =>
        Cell.step_ne _ _ ((blocksAt_iff hr).1 hblocks).2.symm
      have hbefore : ∀ k q, k < i → robots[k]? = some q → markExit board.grid board.exits q = q :=
        fun k q hk => hsaved k q (by omega)
      -- the cell ahead is held by the same robots under both lists
      have hahead := (held_iff_mem hexclusive hacted.symm hbefore (Nat.le_of_lt hi) hown).symm.trans
        ((held_congr ih _).trans
          (held_iff_mem hexclusive hacted'.symm hbefore (Nat.le_of_lt hi) hown))
      rw [← hacted, ← hacted', acted_getElem? signal hr, acted_getElem? signal hr, ← turn_plain,
        h i hi, turn_plain]
      exact congrArg some (turn_congr fun _ _ => hahead)
    · rw [List.getElem?_eq_none (by rw [← hacted, actPhase_length]; exact hi),
        List.getElem?_eq_none (by rw [← hacted', actPhase_length]; exact hi)]

/-! ## A tick

  The robots that act in a tick are those of the state and, it may be, one that enters. -/

section Ticks

variable {s : State} {a b : List (Option Action)}

/-- Robots and signal are the same behind the actions.  The one that enters is the last of them, so it may
stand on an exit without being saved yet. -/
theorem actedRobots_of_alike {entry : Entry} (hs : Settled s) (hexclusive : Exclusive s.robots)
    (hspawn : spawnPhase s = .ok entry) (h : Alike (crew s) a b) :
    actedRobots s entry a = actedRobots s entry b := by
  rw [← (spawnPhase_length hspawn).1] at h
  refine Prod.ext ?_ ?_
  · -- entering keeps the robots apart
    exact acted_of_alike (exclusive_spawn hspawn hexclusive)
      (fun k q hk hq => settled_entry hs hspawn hk hq) h
  · rw [actedRobots, actedRobots, actPhase_signal, actPhase_signal]
    -- waiting does not speak of the signal
    refine foldl_heard_congr _ _ _ _ fun i hi signal => ?_
    rw [← heard_plain, h i hi, heard_plain]

/-- **A tick** is the same under lists that are alike for its robots. -/
theorem tick_of_alike (hs : Settled s) (hexclusive : Exclusive s.robots) (h : Alike (crew s) a b) :
    tick s a = tick s b := by
  by_cases hr : s.status = .running
  · rw [tick, if_pos hr, tick, if_pos hr, tickRunning, tickRunning]
    cases hspawn : spawnPhase s with
    | error fault => rfl
    | ok entry =>
      dsimp only [bind, Except.bind]
      rw [actedRobots_of_alike hs hexclusive hspawn h]
  · rw [tick_of_not_running hr, tick_of_not_running hr]

end Ticks

/-! ## Actions by name

  A list of names is read up to the number of robots that act, and the first name that is none is
  reported.  So lists that name the same must also be wrong at the same place and in the same way. -/

/-- The plain orders for the first `n` robots. -/
def plains (n : Nat) (orders : List (Option Action)) : List (Option Action) :=
  (List.range n).map fun i => plain orders[i]?.join

theorem plains_succ (n : Nat) (orders : List (Option Action)) :
    plains (n + 1) orders = plain orders.head?.join :: plains n orders.tail := by
  rw [plains, List.range_succ_eq_map, List.map_cons, List.map_map, List.head?_eq_getElem?, plains]
  refine congrArg _ (List.map_congr_left fun i _ => ?_)
  rw [List.getElem?_tail]
  rfl

theorem plains_eq_iff {n : Nat} {a b : List (Option Action)} :
    plains n a = plains n b ↔ Alike n a b := by
  rw [plains, plains, List.map_inj_left]
  exact forall_congr' fun i => imp_congr_left List.mem_range

/-- The plain order that an entry names; one that is missing names none. -/
def readPlain : Option Json → Except OrderFault (Option Action)
  | none => .ok none
  | some .null => .ok none
  | some v =>
    match Action.ofJson? v with
    | some action => .ok (plain (some action))
    | none => .error (.unknownAction v)

/-- The plain orders that a list names for `n` robots. -/
def readPlains : Nat → List Json → Except OrderFault (List (Option Action))
  | 0, _ => .ok []
  | n + 1, names => do
    let order ← readPlain names.head?
    let others ← readPlains n names.tail
    pure (order :: others)

/-- The lists name the same for each of the first `n` robots, or are wrong about it in the same way. -/
def NamedAlike (n : Nat) (names names' : List Json) : Prop :=
  ∀ i < n, readPlain names[i]? = readPlain names'[i]?

theorem namedAlike_append_more {n : Nat} {names : List Json} (h : n ≤ names.length)
    (more : List Json) : NamedAlike n (names ++ more) names := by
  intro i hi
  rw [List.getElem?_append_left (by omega)]

/-- Lists that name the same are read to the same plain orders, or to the same fault. -/
theorem readPlains_congr :
    ∀ {n : Nat} {names names' : List Json}, NamedAlike n names names' →
      readPlains n names = readPlains n names' := by
  intro n
  induction n with
  | zero => intro _ _ _; rfl
  | succ n ih =>
    intro names names' h
    have htail : NamedAlike n names.tail names'.tail := fun i hi => by
      rw [List.getElem?_tail, List.getElem?_tail]
      exact h (i + 1) (Nat.succ_lt_succ hi)
    rw [readPlains, readPlains, List.head?_eq_getElem?, List.head?_eq_getElem?,
      h 0 (Nat.succ_pos n), ih htail]

/-- To read the orders of a tick is to read its plain orders, up to waiting. -/
theorem readActions_plains :
    ∀ (n : Nat) (names : List Json),
      (readActions (names.take n)).map (plains n) = readPlains n names := by
  intro n
  induction n with
  | zero => intro names; rfl
  | succ n ih =>
    intro names
    rw [readPlains, ← ih]
    cases names with
    | nil =>
      rw [List.tail_nil, List.take_nil, List.take_nil]
      exact congrArg Except.ok (plains_succ n [])
    | cons v rest =>
      rw [List.take_succ_cons, List.head?_cons, List.tail_cons]
      -- null is no order at all, and anything else has to be the name of an action
      by_cases hnull : v = .null
      · rw [hnull, readActions, readPlain]
        cases readActions (rest.take n) with
        | error fault => rfl
        | ok orders => exact congrArg Except.ok (plains_succ n (none :: orders))
      · rw [readActions, readPlain]
        · cases Action.ofJson? v with
          | none => rfl
          | some action =>
            cases readActions (rest.take n) with
            | error fault => rfl
            | ok orders => exact congrArg Except.ok (plains_succ n (some action :: orders))
        · exact hnull
        · exact hnull

/-- **A tick with named actions** is the same under lists that name the same. -/
theorem tickNamed_of_alike {s : State} {names names' : List Json} (hs : Settled s)
    (hexclusive : Exclusive s.robots) (h : NamedAlike (crew s) names names') :
    tickNamed s names = tickNamed s names' := by
  by_cases hr : s.status = .running
  · rw [tickNamed, if_pos hr, tickNamed, if_pos hr]
    cases hspawn : spawnPhase s with
    | error fault => rfl
    | ok entry =>
      -- both lists are read alike, up to waiting
      have hread : (readActions (names.take (crew s))).map (plains (crew s))
          = (readActions (names'.take (crew s))).map (plains (crew s)) := by
        rw [readActions_plains, readActions_plains, readPlains_congr h]
      dsimp only
      rw [(spawnPhase_length hspawn).1]
      cases ha : readActions (names.take (crew s)) with
      | error fault =>
        cases hb : readActions (names'.take (crew s)) with
        | error fault' =>
          rw [ha, hb] at hread
          cases hread
          rfl
        | ok b =>
          rw [ha, hb] at hread
          cases hread
      | ok a =>
        cases hb : readActions (names'.take (crew s)) with
        | error fault' =>
          rw [ha, hb] at hread
          cases hread
        | ok b =>
          rw [ha, hb] at hread
          -- both can be read, and what they say is alike
          have halike : Alike (crew s) a b := plains_eq_iff.1 (Except.ok.inj hread)
          dsimp only [bind, Except.bind]
          rw [tick_of_alike hs hexclusive halike]
  · rw [tickNamed, if_neg hr, tickNamed, if_neg hr]

/-- **Waiting is doing nothing.**  In any state of any run whose blocking robots stand apart, a tick is the
same under all lists of orders that are alike for the robots that act in it.  So it is whether robots
are told to wait or told nothing, whether a list is cut where nothing but waiting follows or filled up
with waiting, and whatever stands behind the orders of the robots, be it no order at all. -/
theorem waiting_is_nothing {grid : Grid} {spawner : Spawner} {exits : List Cell}
    {maxSteps requiredSaved : Int} {s t : State}
    (h : start grid spawner exits maxSteps requiredSaved = .ok s) (ht : Reaches s t)
    (hexclusive : Exclusive t.robots) :
    (∀ a b, Alike (crew t) a b → tick t a = tick t b) ∧
      (∀ a b, List.Forall₂ (fun order order' => plain order = plain order') a b →
        tick t a = tick t b) ∧
      (∀ a rest, (∀ order ∈ rest, order = none ∨ order = some .wait) →
        tick t (a ++ rest) = tick t a) ∧
      (∀ a more, crew t ≤ a.length → tick t (a ++ more) = tick t a) ∧
      (∀ names names', NamedAlike (crew t) names names' →
        tickNamed t names = tickNamed t names') ∧
      (∀ names more, crew t ≤ names.length →
        tickNamed t (names ++ more) = tickNamed t names) := by
  have hs : Settled t := ht.invariant (P := Settled) settled_tick (settled_start h)
  refine ⟨fun a b hab => tick_of_alike hs hexclusive hab, fun a b hab => ?_, fun a rest hrest => ?_,
    fun a more hmore => ?_, fun names names' hnames => tickNamed_of_alike hs hexclusive hnames,
    fun names more hmore => ?_⟩
  · exact tick_of_alike hs hexclusive (alike_of_forall₂ hab)
  · exact tick_of_alike hs hexclusive (alike_append_rest hrest)
  · exact tick_of_alike hs hexclusive (alike_append_more hmore)
  · exact tickNamed_of_alike hs hexclusive (namedAlike_append_more hmore more)

/-- A robot enters on the goal and is saved there, while the one before it goes forward.  It may be told to
wait, and there may be an order for a third robot, or something that is no order. -/
theorem waiting_is_nothing_entering :
    ∃ s t u, start ⟨[[.goal, .empty, .empty]]⟩
        { pose := ⟨⟨0, 0⟩, 1⟩, count := 3, interval := 1, starts := [⟨⟨1, 0⟩, 1⟩] } [] 9 3 = .ok s ∧
      tick s [] = .ok t ∧ t.status = .running ∧ Exclusive t.robots ∧ crew t = 2 ∧
      tick t [some .moveForward] = .ok u ∧
      u.robots.map (fun r => (r.cell.x, r.saved)) = [(2, false), (0, true)] ∧
      tick t ([some .moveForward, some .wait] ++ [some .signalOn]) = .ok u ∧
      tickNamed t ([.str "MOVE_FORWARD", .null] ++ [.bool true])
        = tickNamed t [.str "MOVE_FORWARD", .str "WAIT"] := by
  obtain ⟨s, t, u, hs, ht, hrun, hexclusive, hcrew, hu, hrobots⟩ : ∃ s t u,
      start ⟨[[.goal, .empty, .empty]]⟩
        { pose := ⟨⟨0, 0⟩, 1⟩, count := 3, interval := 1, starts := [⟨⟨1, 0⟩, 1⟩] } [] 9 3 = .ok s ∧
      tick s [] = .ok t ∧ t.status = .running ∧ Exclusive t.robots ∧ crew t = 2 ∧
      tick t [some .moveForward] = .ok u ∧
      u.robots.map (fun r => (r.cell.x, r.saved)) = [(2, false), (0, true)] :=
    ⟨_, _, _, rfl, rfl, rfl, by decide, rfl, rfl, rfl⟩
  obtain ⟨-, -, hrest, hmore, hnames, hnamesMore⟩ :=
    waiting_is_nothing hs (.tick .here ht) hexclusive
  refine ⟨s, t, u, hs, ht, hrun, hexclusive, hcrew, hu, hrobots, ?_, ?_⟩
  · rw [hmore [some .moveForward, some .wait] _ (Nat.le_of_eq hcrew), ← hu]
    exact hrest [some .moveForward] [some .wait] (by decide)
  · rw [hnamesMore [.str "MOVE_FORWARD", .null] _ (Nat.le_of_eq hcrew)]
    refine hnames _ _ fun i hi => ?_
    -- there are two robots, so two names matter
    rw [hcrew] at hi
    rcases i with _ | _ | _
    · rfl
    · rfl
    · omega

end Simulation

end RobotPuzzle
