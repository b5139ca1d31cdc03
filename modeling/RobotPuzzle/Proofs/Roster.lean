/-
  No robot is lost and none is counted twice.

  1. **One robot** — `Robot.Continues carried r r'` says what may become of a robot: its name stays, and
     of a robot that is dead or saved all stays but its cell, which is where `carried` takes it.
  2. **The phases** — after the actions, after the ferry step and after the last saving, the robots
     continue those before, one by one and in order.  Only the ferry step takes finished robots
     elsewhere: with every raft that leaves their cell with riders (`Raft.haul`).
  3. **A tick** — so after a tick the robots continue those before it and the one that has entered, if any
     (`tick_continues`).
  4. **The roster** — names by index, one robot for every entry, and everybody saved, dead, active or
     still to enter (`Roster`); every tick of every run keeps it (`reaches_roster`).

  The crux is to say what may become of a finished robot without saying why.  Nothing in a tick acts on a
  robot that is dead or saved but for the raft below it, which takes along whatever lies on its cell.  So
  `Continues` carries one function on cells, composed phase by phase; it is the identity everywhere but in
  the ferry step, and there it can be read off the rafts before and after.

  `Roster` is about one state and `Advances` about two, that before a tick and that after it.  Both are
  needed: the first says how many there are of each kind, the second that nobody changes places or comes
  back.  Names follow from places, since robots enter at the end of the list and never leave it.
-/
import Mathlib.Data.List.Forall2
import RobotPuzzle.Proofs.Idle
import RobotPuzzle.Proofs.Occupancy

namespace RobotPuzzle

/-! ## One robot

  Being dead and saved at once is not excluded by the type of a robot, so it is part of what is kept: a
  robot that is not so before a phase is not so behind it. -/

/-- What may become of a robot.  If it is dead or saved, only its cell may change, and `carried` tells
how. -/
structure Robot.Continues (carried : Cell → Cell) (r r' : Robot) : Prop where
  /-- a robot keeps its name -/
  name : r'.id = r.id
  /-- a dead or saved robot stays as it is, but for its cell -/
  finished : r.blocking = false → r' = { r with cell := carried r.cell }
  /-- who is not dead and saved at once does not become so -/
  single : (r.saved = true → r.alive = true) → r'.saved = true → r'.alive = true

/-- A robot that keeps its name, stays as it is once it is finished, and is alive if it is saved now.  All
phases but the ferry step are of this kind. -/
theorem Robot.Continues.here {r r' : Robot} (hname : r'.id = r.id)
    (hfinished : r.blocking = false → r' = r)
    (hsingle : r.blocking = true → r'.saved = true → r'.alive = true) :
    r.Continues (fun c => c) r' := by
  refine ⟨hname, hfinished, fun hr hs => ?_⟩
  cases hb : r.blocking with
  | true => exact hsingle hb hs
  | false =>
    rw [hfinished hb] at hs ⊢
    exact hr hs

namespace Robot.Continues

variable {r r' r'' : Robot} {carried further : Cell → Cell}

theorem refl (r : Robot) : r.Continues (fun c => c) r := ⟨rfl, fun _ => rfl, fun h => h⟩

/-- Two changes, one behind the other; cells are carried by the one and then by the other. -/
theorem trans (h : r.Continues carried r') (h' : r'.Continues further r'') :
    r.Continues (fun c => further (carried c)) r'' := by
  refine ⟨h'.name.trans h.name, fun hr => ?_, fun hs => h'.single (h.single hs)⟩
  have hsame := h.finished hr
  have hr' : r'.blocking = false := by
    rw [hsame]
    exact hr
  rw [h'.finished hr', hsame]

/-- Who is dead stays dead. -/
theorem dead (h : r.Continues carried r') (hr : r.alive = false) : r'.alive = false := by
  rw [h.finished (by simp [blocking, hr])]
  exact hr

/-- Who is saved stays saved. -/
theorem saved (h : r.Continues carried r') (hr : r.saved = true) : r'.saved = true := by
  rw [h.finished (by simp [blocking, hr])]
  exact hr

end Robot.Continues

/-- The robots continue the earlier ones, in order. -/
def Continue (carried : Cell → Cell) : List Robot → List Robot → Prop :=
  List.Forall₂ (Robot.Continues carried)

namespace Continue

variable {carried further : Cell → Cell} {robots robots' robots'' : List Robot}

theorem refl (robots : List Robot) : Continue (fun c => c) robots robots :=
  List.forall₂_same.2 fun r _ => .refl r

/-- Two phases, one behind the other, robot by robot. -/
theorem trans (h : Continue carried robots robots') (h' : Continue further robots' robots'') :
    Continue (fun c => further (carried c)) robots robots'' := by
  induction h generalizing robots'' with
  | nil =>
    cases h'
    exact .nil
  | cons hone _ ih =>
    cases h' with
    | cons hone' hrest' => exact .cons (hone.trans hone') (ih hrest')

/-- One and the same change for every robot. -/
theorem of_map {f : Robot → Robot} (h : ∀ r : Robot, r.Continues carried (f r)) (robots : List Robot) :
    Continue carried robots (robots.map f) :=
  List.forall₂_map_right_iff.2 (List.forall₂_same.2 fun r _ => h r)

theorem getElem? {i : Nat} {r : Robot} (h : Continue carried robots robots')
    (hr : robots[i]? = some r) : ∃ r', robots'[i]? = some r' ∧ r.Continues carried r' := by
  obtain ⟨hi, rfl⟩ := List.getElem?_eq_some_iff.1 hr
  have hi' : i < robots'.length := h.length_eq ▸ hi
  exact ⟨robots'[i], List.getElem?_eq_getElem hi', h.get hi hi'⟩

/-- The robots in front are continued in place. -/
theorem getElem?_append {i : Nat} {r : Robot} {others : List Robot}
    (h : Continue carried (robots ++ others) robots') (hr : robots[i]? = some r) :
    ∃ r', robots'[i]? = some r' ∧ r.Continues carried r' := by
  refine h.getElem? ?_
  rw [List.getElem?_append_left (List.getElem?_eq_some_iff.1 hr).1]
  exact hr

theorem names (h : Continue carried robots robots') :
    robots'.map Robot.id = robots.map Robot.id := by
  induction h with
  | nil => rfl
  | cons hone _ ih => rw [List.map_cons, List.map_cons, hone.name, ih]

/-- If nobody was dead and saved at once, nobody becomes so. -/
theorem single (h : Continue carried robots robots')
    (hr : ∀ r ∈ robots, r.saved = true → r.alive = true) :
    ∀ r ∈ robots', r.saved = true → r.alive = true := by
  induction h with
  | nil => exact hr
  | cons hone _ ih =>
    obtain ⟨hfirst, hrest⟩ := List.forall_mem_cons.1 hr
    exact List.forall_mem_cons.2 ⟨hone.single hfirst, ih hrest⟩

end Continue

/-! ## The actions

  Neither the look at the exits nor an action touches a finished robot. -/

namespace Simulation

/-- Only a robot that blocks is saved, so it is alive then. -/
theorem continues_markExit (grid : Grid) (exits : List Cell) (r : Robot) :
    r.Continues (fun c => c) (markExit grid exits r) := by
  refine .here ?_ (fun hb => markExit_of_not_blocking hb grid exits) fun hb _ => ?_
  · unfold markExit
    split
    · rfl
    · rfl
  · have halive : r.alive = true := (Bool.and_eq_true_iff.1 hb).1
    unfold markExit
    split
    · exact halive
    · exact halive

end Simulation

theorem Robot.continues_apply (grid : Grid) (blocked : Cell → Bool) (r : Robot) (action : Action) :
    r.Continues (fun c => c) (r.apply grid blocked action) := by
  refine .here (r.apply_id grid blocked action)
    (fun hb => apply_of_not_blocking hb grid blocked action) fun hb hs => ?_
  -- an action saves nobody, and who blocks is not yet saved
  rw [apply_saved] at hs
  simp [blocking, hs] at hb

namespace Simulation

/-- The robots after the actions continue those before, and finished ones stay where they are. -/
theorem continue_act (board : Board) :
    ∀ (robots : List Robot) (occupied : List Cell) (signal : Bool) (actions : List (Option Action)),
      Continue (fun c => c) robots (actPhase board occupied signal robots actions).1 := by
  intro robots
  induction robots with
  | nil => exact fun _ _ _ => .nil
  | cons r rest ih =>
    intro occupied signal actions
    rw [actPhase]
    cases actions.head?.join with
    | none => exact .cons (continues_markExit board.grid board.exits r) (ih _ _ _)
    | some action =>
      refine .cons ?_ (ih _ _ _)
      exact (r.continues_apply board.grid _ action).trans (continues_markExit board.grid board.exits _)

end Simulation

/-! ## The ferry step

  `Raft.haul` follows a cell through all turns: a raft that leaves a cell with riders takes it to the cell
  it sails to, where the next raft may take it further.  Whether a raft had riders is told by the stop
  that it remembers behind its turn. -/

/-- Where the rafts of a ferry step take what lies on a cell.  The second list has the rafts after the
step: one that has left with riders remembers a stop, and one that has gone home alone does not. -/
def Raft.haul : List Raft → List Raft → Cell → Cell
  | raft :: rest, raft' :: rest', c =>
    haul rest rest' (if raft.cell = c ∧ raft'.back.isSome = true then raft'.cell else c)
  | _, _, c => c

/-- Rafts that stay take nothing along. -/
theorem Raft.haul_self (rafts : List Raft) (c : Cell) : Raft.haul rafts rafts c = c := by
  induction rafts with
  | nil => rfl
  | cons raft rest ih =>
    rw [haul]
    split
    · rename_i hhere
      rw [hhere.1, ih]
    · exact ih

/-- Carrying moves whoever lies on the raft's cell, finished or not, and nobody else. -/
theorem Robot.continues_carry (here there : Cell) (r : Robot) :
    r.Continues (fun c => if c = here then there else c)
      (if r.cell = here then { r with cell := there } else r) := by
  by_cases hc : r.cell = here
  · rw [if_pos hc]
    refine ⟨rfl, fun _ => ?_, fun h => h⟩
    rw [if_pos hc]
  · rw [if_neg hc]
    refine ⟨rfl, fun _ => ?_, fun h => h⟩
    rw [if_neg hc]

/-- A turn takes along whatever is on the raft's cell, if the raft leaves with riders. -/
theorem Raft.Turn.continue_robots {jetties : List Cell} {h h' : Harbour} {raft raft' : Raft}
    (ht : raft.Turn jetties h h' raft') :
    Continue (fun c => if raft.cell = c ∧ raft'.back.isSome = true then raft'.cell else c)
      h.robots h'.robots := by
  cases ht with
  | stay =>
    have hsame : (fun c => if raft.cell = c ∧ raft.back.isSome = true then raft.cell else c)
        = fun c => c := by
      funext c
      split
      · -- a raft that stays takes its riders to where they are
        rename_i hhere
        exact hhere.1
      · rfl
    rw [hsame]
    exact .refl h.robots
  | @carry there _ _ _ _ =>
    have hcarry := Continue.of_map (Robot.continues_carry raft.cell there) h.robots
    have hsame : (fun c => if raft.cell = c ∧ (some raft.dock).isSome = true then there else c)
        = fun c => if c = raft.cell then there else c := by
      funext c
      simp [eq_comm]
    rw [hsame]
    exact hcarry
  | home _ _ _ _ _ _ =>
    have hsame : ∀ there : Cell,
        (fun c => if raft.cell = c ∧ (none : Option Int).isSome = true then there else c)
          = fun c => c := by
      -- a raft that comes home has no riders
      intro there
      funext c
      simp
    rw [hsame]
    exact .refl h.robots

/-- All turns together haul the robots, by induction along the rafts. -/
theorem Raft.ferryAll_continue {jetties : List Cell} :
    ∀ {rafts rafts' : List Raft} {h h' : Harbour},
      Raft.ferryAll jetties h rafts = .ok (h', rafts') →
      Continue (Raft.haul rafts rafts') h.robots h'.robots := by
  intro rafts
  induction rafts with
  | nil =>
    intro rafts' h h' hf
    cases hf
    exact .refl h.robots
  | cons raft rest ih =>
    intro rafts' h h' hf
    obtain ⟨mid, raft', others, hone, hrest, rfl⟩ := Raft.ferryAll_cons_cases hf
    exact hone.continue_robots.trans (ih hrest)

theorem ferry_continue {grid grid' : Grid} {robots robots' : List Robot} {rafts rafts' : List Raft}
    {jetties : List Cell} (hf : ferry grid robots rafts jetties = .ok (grid', robots', rafts')) :
    Continue (Raft.haul rafts rafts') robots robots' := by
  obtain ⟨h, hall, -, rfl⟩ := ferry_cases hf
  exact Raft.ferryAll_continue hall

namespace Simulation

/-! ## A tick -/

/-- The robot that is next to enter: there are entries left, and it has the next name. -/
structure EntersNext (s : State) (r : Robot) : Prop where
  /-- the count is not reached -/
  left : s.spawnedCount < s.spawner.count
  /-- names are numbered in the order of entry -/
  name : r.id = robotName s.spawnedCount.toNat
  /-- nobody enters dead -/
  alive : r.alive = true

/-- Behind the robots that are there at most one more enters, with the next name. -/
theorem spawnPhase_enters {s : State} {entry : Entry} (h : spawnPhase s = .ok entry) :
    ∃ entered : Option Robot, entry.robots = s.robots ++ entered.toList ∧
      entry.spawnedCount = s.spawnedCount + entered.toList.length ∧
      ∀ r ∈ entered, EntersNext s r := by
  rcases spawnPhase_cases h with ⟨-, rfl⟩ | ⟨index, r, hin, henter, rfl⟩
  · refine ⟨none, (List.append_nil _).symm, (Int.add_zero _).symm, fun r hr => ?_⟩
    cases hr
  · obtain ⟨rfl, hdue, -⟩ := entering?_cases hin
    obtain ⟨heading, -, rfl⟩ := enter_cases henter
    refine ⟨some _, rfl, rfl, fun r hr => ?_⟩
    cases hr
    exact ⟨lt_of_spawnDue hdue, rfl, rfl⟩

/-- The robots after a tick continue those after its entry.  Three phases are composed here, and only the
middle one carries anything. -/
theorem settle_continues {s : State} {entry : Entry} {actions : List (Option Action)} {grid : Grid}
    {ferried : List Robot} {rafts : List Raft}
    (hferry : ferry s.grid (actedRobots s entry actions).1 s.rafts s.jetties
      = .ok (grid, ferried, rafts)) :
    Continue (Raft.haul s.rafts rafts) entry.robots (ferried.map (markExit grid s.exits)) := by
  have hacted := continue_act (boardOf s entry.robots) entry.robots (occupiedCells entry.robots)
    s.globalSignal actions
  have hmarked := Continue.of_map (continues_markExit grid s.exits) ferried
  exact (hacted.trans (ferry_continue hferry)).trans hmarked

/-- **The robots after a tick** continue those before it and the one that has entered, if any. -/
theorem tick_continues {s t : State} {actions : List (Option Action)} (h : tick s actions = .ok t) :
    ∃ entered : Option Robot,
      Continue (Raft.haul s.rafts t.rafts) (s.robots ++ entered.toList) t.robots ∧
      t.spawnedCount = s.spawnedCount + entered.toList.length ∧ ∀ r ∈ entered, EntersNext s r := by
  rcases tick_cases h with ⟨-, rfl⟩ | ⟨-, entry, grid, ferried, rafts, hspawn, hferry, rfl⟩
  · refine ⟨none, ?_, (Int.add_zero _).symm, fun r hr => ?_⟩
    · rw [Option.toList_none, List.append_nil, funext (Raft.haul_self t.rafts)]
      exact .refl t.robots
    · cases hr
  · obtain ⟨entered, hrobots, hcount, hnext⟩ := spawnPhase_enters hspawn
    refine ⟨entered, ?_, hcount, hnext⟩
    rw [← hrobots]
    exact settle_continues hferry

/-! ## The roster

  The four counts of the roster add up to the number of robots that the spawner lets in.  Three of them
  are a partition of the robots that have entered, which is where nobody may be dead and saved at once
  (`counts_length`); the fourth is what is missing to the whole. -/

/-- The robots have names by index. -/
def Named (robots : List Robot) : Prop :=
  ∀ (i : Nat) (r : Robot), robots[i]? = some r → r.id = robotName i

/-- The books of a run on its robots. -/
structure Roster (s : State) : Prop where
  /-- the names are those of the places in the list -/
  names : Named s.robots
  /-- every robot that has entered is on the list -/
  entered : (s.robots.length : Int) = s.spawnedCount
  /-- nobody is dead and saved at once -/
  single : ∀ r ∈ s.robots, ¬ (r.alive = false ∧ r.saved = true)
  /-- every robot of the spawner is saved, dead, active or still to come -/
  total : s.savedCount + s.deadCount + s.activeCount + s.remainingSpawns = max s.spawner.count 0

/-- What a tick does to the robots and to the doors. -/
structure Advances (s t : State) : Prop where
  /-- every robot keeps its place and its name, and stays dead or saved -/
  old : ∀ (i : Nat) (r : Robot), s.robots[i]? = some r → ∃ r', t.robots[i]? = some r' ∧
    r'.id = r.id ∧ (r.alive = false → r'.alive = false) ∧ (r.saved = true → r'.saved = true)
  /-- at most one robot enters -/
  entered : t.robots.length = s.robots.length ∨ t.robots.length = s.robots.length + 1
  /-- an open door stays open -/
  doors : s.doorUnlocked = true → t.doorUnlocked = true
  /-- a robot alive on an exit is saved -/
  exits : ∀ r ∈ t.robots, r.alive = true → isExit t.grid t.exits r.cell = true → r.saved = true

/-- Names by index stay so, as each robot keeps its place and its name. -/
theorem Named.continue {carried : Cell → Cell} {robots robots' : List Robot} (h : Named robots)
    (hc : Continue carried robots robots') : Named robots' := by
  intro i r' hr'
  have hname : (robots.map Robot.id)[i]? = some r'.id := by
    rw [← hc.names, List.getElem?_map, hr']
    rfl
  rw [List.getElem?_map, Option.map_eq_some_iff] at hname
  obtain ⟨r, hr, hid⟩ := hname
  rw [← hid]
  exact h i r hr

/-- The robot that enters next has the name of the next index. -/
theorem Named.enter {robots : List Robot} (h : Named robots) {r : Robot}
    (hr : r.id = robotName robots.length) : Named (robots ++ [r]) := by
  intro i q hq
  rcases Nat.lt_or_ge i robots.length with hi | hi
  · rw [List.getElem?_append_left hi] at hq
    exact h i q hq
  · rw [List.getElem?_append_right hi, List.getElem?_singleton] at hq
    split at hq
    · rename_i hlast
      cases hq
      rw [hr, show i = robots.length by omega]
    · cases hq

/-- Robots that are not dead and saved at once are saved, or dead, or active. -/
theorem counts_length :
    ∀ {robots : List Robot}, (∀ r ∈ robots, ¬ (r.alive = false ∧ r.saved = true)) →
      robots.countP Robot.saved + robots.countP (fun r => !r.alive) + robots.countP Robot.blocking
        = robots.length := by
  intro robots
  induction robots with
  | nil => intro _; rfl
  | cons r rest ih =>
    intro h
    obtain ⟨hr, hrest⟩ := List.forall_mem_cons.1 h
    have hcount := ih hrest
    rw [List.countP_cons, List.countP_cons, List.countP_cons, List.length_cons]
    -- of the four kinds of robots one is excluded, and each of the others is counted once
    cases halive : r.alive with
    | true =>
      cases hsaved : r.saved with
      | true => simp [Robot.blocking, halive, hsaved]; omega
      | false => simp [Robot.blocking, halive, hsaved]; omega
    | false =>
      cases hsaved : r.saved with
      | true => exact absurd ⟨halive, hsaved⟩ hr
      | false => simp [Robot.blocking, halive, hsaved]; omega

/-- The total follows when no more robots have entered than are to enter. -/
theorem Roster.of_le {s : State} (names : Named s.robots)
    (entered : (s.robots.length : Int) = s.spawnedCount)
    (single : ∀ r ∈ s.robots, ¬ (r.alive = false ∧ r.saved = true))
    (hle : s.spawnedCount ≤ max s.spawner.count 0) : Roster s := by
  refine ⟨names, entered, single, ?_⟩
  have hcount := counts_length single
  unfold State.savedCount State.deadCount State.activeCount State.remainingSpawns
  omega

/-- No more robots have entered than are to enter, as the total says. -/
theorem Roster.entered_le {s : State} (h : Roster s) : s.spawnedCount ≤ max s.spawner.count 0 := by
  have hcount := counts_length h.single
  have htotal := h.total
  have hentered := h.entered
  unfold State.savedCount State.deadCount State.activeCount State.remainingSpawns at htotal
  omega

/-- The robots at the start have their names and are alive, by induction on how many are to enter. -/
theorem enterMany_roster {spawner : Spawner} :
    ∀ {count first : Nat} {robots : List Robot}, enterMany spawner first count = .ok robots →
      (∀ (i : Nat) (r : Robot), robots[i]? = some r → r.id = robotName (first + i)) ∧
        ∀ r ∈ robots, r.alive = true := by
  intro count
  induction count with
  | zero =>
    intro first robots h
    cases h
    exact ⟨fun i r hr => (nomatch hr), fun r hr => (nomatch hr)⟩
  | succ count ih =>
    intro first robots h
    obtain ⟨q, hq, h⟩ := bind_eq_ok h
    obtain ⟨others, hothers, h⟩ := bind_eq_ok h
    cases h
    obtain ⟨heading, -, rfl⟩ := enter_cases hq
    obtain ⟨hnames, halive⟩ := ih hothers
    refine ⟨fun i r hr => ?_, List.forall_mem_cons.2 ⟨rfl, halive⟩⟩
    -- the first one has the first name, and the others are counted on from it
    cases i with
    | zero =>
      cases hr
      rfl
    | succ i =>
      rw [hnames i r hr, show first + 1 + i = first + (i + 1) by omega]

/-- The books are right at the start, where robots on exits are saved already. -/
theorem roster_start {grid : Grid} {spawner : Spawner} {exits : List Cell}
    {maxSteps requiredSaved : Int} {s : State}
    (h : start grid spawner exits maxSteps requiredSaved = .ok s) : Roster s := by
  obtain ⟨entered, hs⟩ := start_cases h
  obtain ⟨hnames, halive⟩ := enterMany_roster hs.enter
  have hmarked := Continue.of_map (continues_markExit grid exits) entered
  rw [hs.state]
  refine Roster.of_le ?_ ?_ (fun r hr => ?_) ?_
  · refine Named.continue (fun i r hr => ?_) hmarked
    rw [hnames i r hr, Nat.zero_add]
  · rw [List.length_map, enterMany_length hs.enter]
  · have hone := hmarked.single (fun q hq _ => halive q hq) r hr
    rintro ⟨hdead, hsaved⟩
    rw [hone hsaved] at hdead
    cases hdead
  · exact (initialCount_bounds spawner).2.1

/-- A tick keeps the books: robots keep their names, the one that enters has the next name and was counted
as still to enter, and nobody becomes dead and saved at once. -/
theorem roster_tick {s t : State} {actions : List (Option Action)} (hs : Roster s)
    (h : tick s actions = .ok t) : Roster t := by
  obtain ⟨entered, hcontinue, hcount, hnext⟩ := tick_continues h
  have hspawner := (sameRules_tick h).spawner
  have hlen := hcontinue.length_eq
  have hentered := hs.entered
  have hle := hs.entered_le
  -- so many robots have entered as are on the board, so the next name is not in use
  have hindex : s.spawnedCount.toNat = s.robots.length := by omega
  have halive : ∀ r ∈ s.robots ++ entered.toList, r.saved = true → r.alive = true := by
    intro r hr hsaved
    rcases List.mem_append.1 hr with hr | hr
    · cases ha : r.alive with
      | true => rfl
      | false => exact absurd ⟨ha, hsaved⟩ (hs.single r hr)
    · exact (hnext r (Option.mem_toList.1 hr)).alive
  refine Roster.of_le ?_ ?_ (fun r hr => ?_) ?_
  · refine Named.continue ?_ hcontinue
    cases entered with
    | none =>
      rw [Option.toList_none, List.append_nil]
      exact hs.names
    | some r =>
      refine hs.names.enter ?_
      rw [(hnext r rfl).name, hindex]
  · rw [List.length_append] at hlen
    omega
  · rintro ⟨hdead, hsaved⟩
    rw [hcontinue.single halive r hr hsaved] at hdead
    cases hdead
  · rw [hspawner]
    cases entered with
    | none =>
      rw [Option.toList_none, List.length_nil] at hcount
      omega
    | some r =>
      -- there was one left to enter
      have hleft := (hnext r rfl).left
      rw [Option.toList_some, List.length_singleton] at hcount
      omega

/-- What a tick does to the robots and to the doors.  That whoever lives on an exit is saved needs the
exits to have been looked at before the tick as well, since a tick of a run that is over looks at nothing.
-/
theorem advances_tick {s t : State} {actions : List (Option Action)} (hs : Settled s)
    (h : tick s actions = .ok t) : Advances s t := by
  obtain ⟨entered, hcontinue, -, -⟩ := tick_continues h
  refine ⟨fun i r hr => ?_, ?_, ?_, fun r hr halive hexit => ?_⟩
  · obtain ⟨r', hr', hcont⟩ := hcontinue.getElem?_append hr
    exact ⟨r', hr', hcont.name, hcont.dead, hcont.saved⟩
  · have hlen := hcontinue.length_eq
    rw [List.length_append] at hlen
    cases entered with
    | none => exact Or.inl hlen.symm
    | some r => exact Or.inr hlen.symm
  · intro hopen
    rcases tick_cases h with ⟨-, rfl⟩ | ⟨-, entry, grid, ferried, rafts, -, -, rfl⟩
    · exact hopen
    · show (s.doorUnlocked || platePressed s.grid entry.robots || _) = true
      rw [hopen]
      rfl
  · -- the tick has already saved whoever it could
    cases hsaved : r.saved with
    | true => rfl
    | false =>
      have hmark := (settled_tick hs h).exits r hr
      unfold markExit at hmark
      rw [if_pos (by simp [Robot.blocking, halive, hsaved, hexit])] at hmark
      rw [← hmark] at hsaved
      cases hsaved

/-- **No robot is lost.**  In every state of every run the robots have names by index, there is one for
every entry, nobody is dead and saved at once, and the saved, the dead, the active and those still to
enter are together as many as the spawner lets in.  Every tick from there keeps the robots in place
and adds at most one behind them; dead robots stay dead, saved ones saved and unlocked doors unlocked,
and whoever lives on an exit after it is saved. -/
theorem reaches_roster {grid : Grid} {spawner : Spawner} {exits : List Cell}
    {maxSteps requiredSaved : Int} {s : State}
    (h : start grid spawner exits maxSteps requiredSaved = .ok s) :
    ∀ t, Reaches s t → t.spawner = spawner ∧ Roster t ∧
      ∀ actions u, tick t actions = .ok u → Advances t u := by
  intro t ht
  have hspawner : s.spawner = spawner := by
    obtain ⟨entered, hs⟩ := start_cases h
    rw [hs.state]
  refine ⟨ht.sameRules.spawner.trans hspawner, ?_, fun actions u hu => ?_⟩
  · exact ht.invariant (P := Roster) roster_tick (roster_start h)
  · exact advances_tick (ht.invariant (P := Settled) settled_tick (settled_start h)) hu

/-- The first robot sails to the jetty and steps onto the goal, the second walks into the water that the
raft has left, and a third is still to enter. -/
theorem reaches_roster_crossing :
    ∃ s t u, start ⟨[[.empty, .raft, .jetty, .goal]]⟩
        { pose := ⟨⟨0, 0⟩, 1⟩, count := 3, interval := 1 } [] 9 3 = .ok s ∧
      tick s [some .moveForward] = .ok t ∧
      tick t [some .moveForward, some .moveForward] = .ok u ∧
      (u.savedCount, u.deadCount, u.activeCount, u.remainingSpawns) = (1, 1, 0, 1) ∧
      Roster u ∧ Advances t u := by
  obtain ⟨s, t, u, hs, ht, hu, hcounts⟩ : ∃ s t u,
      start ⟨[[.empty, .raft, .jetty, .goal]]⟩
        { pose := ⟨⟨0, 0⟩, 1⟩, count := 3, interval := 1 } [] 9 3 = .ok s ∧
      tick s [some .moveForward] = .ok t ∧
      tick t [some .moveForward, some .moveForward] = .ok u ∧
      (u.savedCount, u.deadCount, u.activeCount, u.remainingSpawns) = (1, 1, 0, 1) :=
    ⟨_, _, _, rfl, rfl, rfl, rfl⟩
  have hone : Reaches s t := .tick .here ht
  exact ⟨s, t, u, hs, ht, hu, hcounts, (reaches_roster hs u (.tick hone hu)).2.1,
    (reaches_roster hs t hone).2.2 _ u hu⟩

end Simulation

end RobotPuzzle
