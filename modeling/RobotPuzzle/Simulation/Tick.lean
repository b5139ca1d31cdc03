/-
  One tick of a run.

  1. **Entry** (`spawnPhase`) — the robot that is due enters, unless a robot stands in the way.
  2. **Action** (`actPhase`) — the robots act in order.  A robot leaves the occupied cells before it
     acts and joins them again if it still blocks, so a queue of robots advances as a whole.
  3. **Ferry** (`ferry`) — the rafts sail.
  4. **Verdict** (`verdict`) — won on quota, lost on the step limit, or when nobody is left to act or
     to enter.

  A plate held at the start of the actions opens the doors during them; a plate held then or after the
  ferry unlocks them for the rest of the run.  A run that is not running stays as it is
  (`tick_of_not_running`), and a tick that goes through counts one step (`tick_stepCount`).
-/
import RobotPuzzle.Json.Shown
import RobotPuzzle.Simulation.Start

namespace RobotPuzzle

namespace Simulation

/-! ## Entry -/

/-- A robot is due: some are left, an interval is set, and its tick has come. -/
def spawnDue (s : State) : Bool :=
  s.spawnedCount < s.spawner.count && 0 < s.spawner.interval &&
    match s.nextSpawnTick with
    | some tick => tick ≤ s.stepCount
    | none => false

/-- The index of the robot that enters in this tick. -/
def entering? (s : State) : Option Nat :=
  let index := s.spawnedCount.toNat
  if spawnDue s && !(occupiedCells s.robots).contains (s.spawner.poseOf index).cell then some index
  else none

/-- What is on the board, and scheduled, after the entry. -/
structure Entry where
  /-- the new one is behind the others -/
  robots : List Robot
  /-- with the new one -/
  spawnedCount : Int
  /-- the tick of the entry after this one -/
  nextSpawnTick : Option Int
deriving Repr

/-- The entry of a tick. -/
def spawnPhase (s : State) : Except Fault Entry :=
  match entering? s with
  | none => .ok ⟨s.robots, s.spawnedCount, s.nextSpawnTick⟩
  | some index => do
    let r ← enter s.spawner index
    pure ⟨s.robots ++ [r], s.spawnedCount + 1, s.nextSpawnTick.map (· + s.spawner.interval)⟩

/-! ## Action -/

/-- What all robots of a tick see alike. -/
structure Board where
  /-- the tiles before the rafts sail -/
  grid : Grid
  /-- cells that save besides the exit tiles -/
  exits : List Cell
  /-- a plate is pressed, now or earlier -/
  doorOpen : Bool
deriving Repr

/-- Walls are closed to robots, and doors that are not open. -/
def Board.closed (board : Board) (c : Cell) : Bool :=
  let tile := board.grid.tile c
  tile == .wall || (tile == .door && !board.doorOpen)

/-- The signal after an action. -/
def nextSignal (signal : Bool) : Action → Bool
  | .signalOn => true
  | .signalOff => false
  | _ => signal

/-- What one robot does, given the cells that others occupy. -/
def actOne (board : Board) (occupied : List Cell) (r : Robot) (action : Action) : Robot :=
  let closed (c : Cell) : Bool := occupied.contains c || board.closed c
  markExit board.grid board.exits (r.apply board.grid closed action)

/-- The robots act in order, each seeing what the ones before it left; then the signal. -/
def actPhase (board : Board) :
    List Cell → Bool → List Robot → List (Option Action) → List Robot × Bool
  | _, signal, [], _ => ([], signal)
  | occupied, signal, r :: rest, actions =>
    match actions.head?.join with
    | none =>
      let (others, signal) := actPhase board occupied signal rest actions.tail
      (markExit board.grid board.exits r :: others, signal)
    | some action =>
      let vacated := if r.blocking then occupied.filter (· ≠ r.cell) else occupied
      let acted := actOne board vacated r action
      let retaken := if acted.blocking then acted.cell :: vacated else vacated
      let (others, signal) := actPhase board retaken (nextSignal signal action) rest actions.tail
      (acted :: others, signal)

theorem actPhase_length (board : Board) (occupied : List Cell) (signal : Bool) (robots : List Robot)
    (actions : List (Option Action)) :
    (actPhase board occupied signal robots actions).1.length = robots.length := by
  induction robots generalizing occupied signal actions with
  | nil => rfl
  | cons r rest ih => unfold actPhase; split <;> simp [ih]

/-! ## Verdict -/

/-- The status after a tick. -/
def verdict (saved required steps maxSteps : Int) (active remaining : Bool) : Status :=
  if required ≤ saved then .won
  else if maxSteps ≤ steps then .lost
  else if !active && !remaining then .lost
  else .running

/-- Only a run below its step limit goes on. -/
theorem lt_of_verdict_running {saved required steps maxSteps : Int} {active remaining : Bool}
    (h : verdict saved required steps maxSteps active remaining = .running) : steps < maxSteps := by
  simp only [verdict] at h
  split at h
  · simp at h
  · split at h
    · simp at h
    · omega

/-! ## The tick -/

/-- The board that the robots of a tick see, after the entry. -/
def boardOf (s : State) (robots : List Robot) : Board :=
  { grid := s.grid, exits := s.exits, doorOpen := s.doorUnlocked || platePressed s.grid robots }

/-- The actions of a tick, after the entry. -/
def actedRobots (s : State) (entry : Entry) (actions : List (Option Action)) : List Robot × Bool :=
  actPhase (boardOf s entry.robots) (occupiedCells entry.robots) s.globalSignal entry.robots actions

/-- The state after the ferry step: who is saved, what is unlocked, how the run stands. -/
def settle (s : State) (entry : Entry) (signal : Bool) (grid : Grid) (ferried : List Robot)
    (rafts : List Raft) : State :=
  let robots := ferried.map (markExit grid s.exits)
  let steps := s.stepCount + 1
  { s with
    grid, robots, rafts
    status := verdict (robots.countP Robot.saved) s.requiredSaved steps s.maxSteps
      (robots.any Robot.blocking) (entry.spawnedCount < s.spawner.count)
    stepCount := steps
    spawnedCount := entry.spawnedCount
    nextSpawnTick := entry.nextSpawnTick
    doorUnlocked := s.doorUnlocked || platePressed s.grid entry.robots || platePressed grid robots
    globalSignal := signal }

/-- The tick of a run that is running. -/
def tickRunning (s : State) (actions : List (Option Action)) : Except Fault State := do
  let entry ← spawnPhase s
  let (acted, signal) := actedRobots s entry actions
  match ferry s.grid acted s.rafts s.jetties with
  | .ok (grid, ferried, rafts) => pure (settle s entry signal grid ferried rafts)
  | .error fault => throw (.ferry fault)

/-- One tick.  The actions belong to the robots after the entry, in order; a robot without one does
nothing. -/
def tick (s : State) (actions : List (Option Action)) : Except Fault State :=
  if s.status = .running then tickRunning s actions else .ok s

theorem tick_of_not_running {s : State} (h : s.status ≠ .running) (actions : List (Option Action)) :
    tick s actions = .ok s := by
  simp [tick, h]

/-- A tick of a running state is its four phases. -/
theorem tick_eq_settle {s t : State} {actions : List (Option Action)} (h : s.status = .running)
    (ht : tick s actions = .ok t) :
    ∃ entry grid ferried rafts,
      spawnPhase s = .ok entry ∧
      ferry s.grid (actedRobots s entry actions).1 s.rafts s.jetties = .ok (grid, ferried, rafts) ∧
      t = settle s entry (actedRobots s entry actions).2 grid ferried rafts := by
  rw [tick, if_pos h] at ht
  unfold tickRunning at ht
  cases he : spawnPhase s with
  | error e => simp [he, bind, Except.bind] at ht
  | ok entry =>
    simp only [he, bind, Except.bind] at ht
    split at ht
    · rename_i grid ferried rafts hf
      refine ⟨entry, grid, ferried, rafts, rfl, hf, ?_⟩
      simpa [pure, Except.pure] using ht.symm
    · simp [throw, throwThe, MonadExceptOf.throw] at ht

theorem tick_stepCount {s t : State} {actions : List (Option Action)} (h : s.status = .running)
    (ht : tick s actions = .ok t) : t.stepCount = s.stepCount + 1 := by
  obtain ⟨entry, grid, ferried, rafts, -, -, rfl⟩ := tick_eq_settle h ht
  rfl

theorem tick_maxSteps {s t : State} {actions : List (Option Action)} (ht : tick s actions = .ok t) :
    t.maxSteps = s.maxSteps := by
  by_cases h : s.status = .running
  · obtain ⟨entry, grid, ferried, rafts, -, -, rfl⟩ := tick_eq_settle h ht
    rfl
  · rw [tick_of_not_running h] at ht
    injection ht with ht
    rw [ht]

/-- A run that still runs after a tick is below its step limit. -/
theorem tick_running_lt {s t : State} {actions : List (Option Action)} (h : s.status = .running)
    (ht : tick s actions = .ok t) (hr : t.status = .running) : t.stepCount < t.maxSteps := by
  obtain ⟨entry, grid, ferried, rafts, -, -, rfl⟩ := tick_eq_settle h ht
  exact lt_of_verdict_running hr

/-! ## Actions by name -/

/-- Why a tick with named actions is refused. -/
inductive OrderFault where
  /-- no action has that name -/
  | unknownAction (value : Json)
  /-- the tick itself fails -/
  | run (fault : Fault)

def OrderFault.message : OrderFault → String
  | .unknownAction value => value.shown ++ " is not a valid Action"
  | .run fault => fault.message

/-- Named actions; `null` is none. -/
def readActions : List Json → Except OrderFault (List (Option Action))
  | [] => .ok []
  | .null :: rest => return none :: (← readActions rest)
  | v :: rest =>
    match Action.ofJson? v with
    | some action => return some action :: (← readActions rest)
    | none => .error (.unknownAction v)

/-- One tick with named actions.  Only the names that belong to a robot are looked at. -/
def tickNamed (s : State) (names : List Json) : Except OrderFault State :=
  if s.status = .running then
    match spawnPhase s with
    | .error fault => .error (.run fault)
    | .ok entry => do
      let actions ← readActions (names.take entry.robots.length)
      match tick s actions with
      | .ok t => pure t
      | .error fault => throw (.run fault)
  else .ok s

end Simulation

end RobotPuzzle
