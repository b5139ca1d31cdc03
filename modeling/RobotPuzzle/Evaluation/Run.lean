/-
  A run in which every robot follows the same program.

  1. **Machines** — every robot has a machine of its own, made when the robot is first seen and kept
     as long as the run lasts.  Robots keep their places, so the machines form a list beside them.
  2. **A round** (`Run.advance`) — every blocking robot's machine is asked for one action, all in the
     state before the tick; then the tick is made.
  3. **Idle** (`isIdle`) — with no action, nobody left to enter and no raft that can still sail, nothing
     can change any more, and the run is given up as lost.
  4. **The end** (`Run.history`) — a round that leaves the run running uses up one of the ticks that are
     left (`Run.advance_ticksLeft`), so every run ends.
-/
import RobotPuzzle.Machine
import RobotPuzzle.Sensor
import RobotPuzzle.Simulation.Tick

namespace RobotPuzzle

namespace Simulation

/-- What a robot sees in a state. -/
def State.sight (s : State) (r : Robot) : Sight :=
  { grid := s.grid, robot := r, exits := s.exits, doorOpen := s.isDoorOpen
    globalSignal := s.globalSignal }

/-- A raft can still sail by itself: it has a rider, or a stop to return to. -/
def raftMoves (robots : List Robot) (raft : Raft) : Bool :=
  2 ≤ raft.route.length &&
    (raft.pending.isSome || robots.any fun r => r.blocking && r.cell == raft.cell)

/-- Nothing can happen any more. -/
def isIdle (s : State) (actions : List (Option Action)) : Bool :=
  actions.all Option.isNone && s.remainingSpawns ≤ 0 && !s.rafts.any (raftMoves s.robots)

/-- The state after a round with these actions: given up if it is idle, else one tick on. -/
def tickOrGiveUp (s : State) (actions : List (Option Action)) : Except Fault State :=
  if isIdle s actions then .ok { s with status := .lost } else tick s actions

end Simulation

/-- A run: the state, and the machines of the robots seen so far. -/
structure Run where
  /-- the board, the robots and the schedule -/
  state : Simulation.State
  /-- in the order of the robots; who has just entered gets one in the next round -/
  machines : List Machine := []
deriving Inhabited

namespace Run

/-- What every robot's machine is started with. -/
structure Setup where
  /-- the program all robots run -/
  program : Program
  /-- the limit of each machine -/
  maxSteps : Int

/-- Asks one machine on behalf of its robot; only a blocking robot is asked. -/
def askOne (s : Simulation.State) (r : Robot) (m : Machine) : Machine × Option Action :=
  if r.blocking then m.call (s.sight r).holds else (m, none)

/-- Asks all machines, in the order of the robots; a robot seen for the first time gets one. -/
def ask (setup : Setup) (s : Simulation.State) :
    List Robot → List Machine → List (Machine × Option Action)
  | [], _ => []
  | r :: robots, machines =>
    let m := machines.head?.getD (Machine.create setup.program setup.maxSteps)
    askOne s r m :: ask setup s robots machines.tail

theorem ask_length (setup : Setup) (s : Simulation.State) (robots : List Robot)
    (machines : List Machine) : (ask setup s robots machines).length = robots.length := by
  induction robots generalizing machines with
  | nil => rfl
  | cons r rest ih => simp [ask, ih]

/-- One round. -/
def advance (setup : Setup) (run : Run) : Except Simulation.Fault Run := do
  let asked := ask setup run.state run.state.robots run.machines
  let actions := asked.map Prod.snd
  let state ← Simulation.tickOrGiveUp run.state actions
  pure { state, machines := asked.map Prod.fst }

/-- A bound for the rounds that are left. -/
def ticksLeft (run : Run) : Nat :=
  if run.state.status = .running then (run.state.maxSteps - run.state.stepCount).toNat + 1 else 0

theorem advance_state {setup : Setup} {run next : Run} (h : run.advance setup = .ok next) :
    next.state = { run.state with status := .lost } ∨
      ∃ actions, Simulation.tick run.state actions = .ok next.state := by
  simp only [advance, bind, Except.bind] at h
  split at h
  · simp at h
  · rename_i s hs
    simp only [pure, Except.pure, Except.ok.injEq] at h
    subst h
    unfold Simulation.tickOrGiveUp at hs
    split at hs
    · left; simpa using hs.symm
    · right; exact ⟨_, hs⟩

/-- A round uses up at least one of the ticks that are left. -/
theorem advance_ticksLeft {setup : Setup} {run next : Run} (hr : run.state.status = .running)
    (h : run.advance setup = .ok next) : next.ticksLeft < run.ticksLeft := by
  rcases advance_state h with hs | ⟨actions, ht⟩
  · simp [ticksLeft, hs, hr]
  · simp only [ticksLeft, hr, if_true]
    split
    · rename_i hn
      have hlt := Simulation.tick_running_lt hr ht hn
      have hc := Simulation.tick_stepCount hr ht
      have hm := Simulation.tick_maxSteps ht
      omega
    · omega

/-- The run from here to its end, round by round. -/
def history (setup : Setup) (run : Run) : Except Simulation.Fault (List Run) :=
  if hr : run.state.status = .running then
    match ha : run.advance setup with
    | .error fault => .error fault
    | .ok next =>
      have : next.ticksLeft < run.ticksLeft := advance_ticksLeft hr ha
      (history setup next).map (run :: ·)
  else .ok [run]
termination_by run.ticksLeft

/-- Some machine of the run has used up its steps. -/
def stepLimitHit (run : Run) : Bool := run.machines.any (·.status == .stepLimit)

end Run

end RobotPuzzle
