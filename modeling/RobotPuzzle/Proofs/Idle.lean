/-
  A run that is idle stays as it is.

  1. **Settled states** — after a tick nobody who still blocks stands on an exit, a plate that is held has
     unlocked the doors, and a run that goes on has not met its quota (`Settled`).  This is what a tick
     without actions would otherwise still have to do.
  2. **An idle tick** — with no action, nobody left to enter and no raft that can still sail, a tick of a
     settled state counts one step and gives its verdict, and does nothing else (`tick_idle`).
  3. **Machines** — a machine that has given no action is through, and asking it again changes nothing
     (`ask_again`).
  4. **The run that never gives up** — `Run.fullHistory` is `Run.history` with a tick in every round.  The two
     part only in an idle round (`advance_of_not_idle`, `advance_of_idle`).

  The crux is the first point.  A tick of an idle state is not obviously without effect: it looks for
  robots on exits, for plates that are held and for the quota, all of which have nothing to do with
  actions.  It is without effect because the tick before has just done the same on the same robots.  So
  the statement is about settled states, and the start has to be settled too.

  `Settled` is the property of states behind this: robots on exits are saved, a pressed plate has unlocked
  the doors, and a run that goes on has not met its quota.  A tick leaves such a state whatever it has
  done, so only the start has to be looked at.  The lemmas are used wherever a tick without actions is
  compared with no tick at all.
-/
import RobotPuzzle.Evaluation.Run
import RobotPuzzle.Proofs.Reach

namespace RobotPuzzle

namespace Simulation

/-! ## Settled states

  The three fields are the three things that a tick does to a state when nobody acts: it saves, it
  unlocks, it looks at the quota.  The last is asked of running states only, since the others are never
  looked at again. -/

/-- What a tick has seen to when it is over. -/
structure Settled (s : State) : Prop where
  /-- who lives on an exit is saved -/
  exits : ∀ r ∈ s.robots, markExit s.grid s.exits r = r
  /-- a pressed plate has unlocked the doors -/
  doors : platePressed s.grid s.robots = true → s.doorUnlocked = true
  /-- while the run goes on the quota is not met -/
  quota : s.status = .running → (s.savedCount : Int) < s.requiredSaved

/-- Saving twice is saving once: who has been saved does not block, and only who blocks is saved. -/
theorem markExit_markExit (grid : Grid) (exits : List Cell) (r : Robot) :
    markExit grid exits (markExit grid exits r) = markExit grid exits r := by
  by_cases h : (r.blocking && isExit grid exits r.cell) = true
  · have hm : markExit grid exits r = { r with saved := true } := if_pos h
    rw [hm]
    exact markExit_of_not_blocking (by simp [Robot.blocking]) grid exits
  · have hm : markExit grid exits r = r := if_neg h
    rw [hm, hm]

/-- The start looks at exits, plates and the quota as a tick does. -/
theorem settled_start {grid : Grid} {spawner : Spawner} {exits : List Cell}
    {maxSteps requiredSaved : Int} {s : State}
    (h : start grid spawner exits maxSteps requiredSaved = .ok s) : Settled s := by
  obtain ⟨entered, hs⟩ := start_cases h
  rw [hs.state]
  refine ⟨fun r hr => ?_, fun hp => hp, fun hr => ?_⟩
  · obtain ⟨q, -, rfl⟩ := List.mem_map.1 hr
    exact markExit_markExit grid exits q
  · by_cases hq : requiredSaved ≤ (entered.map (markExit grid exits)).countP Robot.saved
    · simp only [hq, if_true] at hr
      cases hr
    · exact Int.not_le.1 hq

/-- A tick leaves a settled state, whatever it did before the end. -/
theorem settled_tick {s t : State} {actions : List (Option Action)} (hs : Settled s)
    (h : tick s actions = .ok t) : Settled t := by
  rcases tick_cases h with ⟨-, rfl⟩ | ⟨-, entry, grid, ferried, rafts, -, -, rfl⟩
  · exact hs
  · refine ⟨fun r hr => ?_, fun hp => ?_, fun hr => ?_⟩
    · obtain ⟨q, -, rfl⟩ := List.mem_map.1 hr
      exact markExit_markExit grid s.exits q
    · show (s.doorUnlocked || platePressed s.grid entry.robots || _) = true
      -- a plate that is pressed now has unlocked the doors in the same tick
      rw [Bool.or_eq_true]
      exact Or.inr hp
    · by_cases hq : s.requiredSaved ≤ (ferried.map (markExit grid s.exits)).countP Robot.saved
      · -- a quota that is reached would have won the run
        have hwon : verdict ((ferried.map (markExit grid s.exits)).countP Robot.saved)
            s.requiredSaved (s.stepCount + 1) s.maxSteps
            ((ferried.map (markExit grid s.exits)).any Robot.blocking)
            (entry.spawnedCount < s.spawner.count) = .won := if_pos hq
        have hrun : verdict _ _ _ _ _ _ = .running := hr
        rw [hwon] at hrun
        cases hrun
      · exact Int.not_le.1 hq

end Simulation

/-! ## An idle tick -/

/-- Rafts that cannot sail stay, and change no tile. -/
theorem Raft.ferryAll_of_still {jetties : List Cell} {h : Harbour} :
    ∀ {rafts : List Raft}, (∀ raft ∈ rafts, Simulation.raftMoves h.robots raft = false) →
      Raft.ferryAll jetties h rafts = .ok (h, rafts) := by
  intro rafts
  induction rafts with
  | nil => intro _; rfl
  | cons raft rest ih =>
    intro hstill
    -- the raft has no rider and nowhere to go back to, or no route at all
    have hone : raft.ferryOne jetties h = .ok (h, raft) := by
      have hraft := hstill raft List.mem_cons_self
      unfold Raft.ferryOne
      split
      · rfl
      · rename_i hlen
        rw [Simulation.raftMoves, decide_eq_true (by omega : 2 ≤ raft.route.length), Bool.true_and,
          Bool.or_eq_false_iff, Option.isSome_eq_false_iff, Option.isNone_iff_eq_none] at hraft
        obtain ⟨hpending, hrider⟩ := hraft
        have hnobody : h.hasRider raft.cell = false := hrider
        rw [hnobody, hpending]
        rfl
    rw [Raft.ferryAll, hone]
    show (Raft.ferryAll jetties h rest >>= _) = _
    rw [ih fun r hr => hstill r (List.mem_cons_of_mem _ hr)]
    rfl

/-- So the ferry step leaves board, robots and rafts as they are. -/
theorem ferry_of_still {grid : Grid} {robots : List Robot} {rafts : List Raft} {jetties : List Cell}
    (hstill : rafts.any (Simulation.raftMoves robots) = false) :
    ferry grid robots rafts jetties = .ok (grid, robots, rafts) := by
  have hall : Raft.ferryAll jetties (.before robots) rafts = .ok (.before robots, rafts) := by
    refine Raft.ferryAll_of_still fun raft hr => ?_
    rw [List.any_eq_false] at hstill
    exact Bool.eq_false_iff.2 (hstill raft hr)
  unfold ferry
  show (Raft.ferryAll jetties (.before robots) rafts >>= _) = _
  rw [hall]
  rfl

namespace Simulation

/-- Robots without actions stay; those on an exit are saved. -/
theorem actPhase_of_none (board : Board) (occupied : List Cell) (signal : Bool) :
    ∀ (robots : List Robot) (actions : List (Option Action)), actions.all Option.isNone = true →
      actPhase board occupied signal robots actions
        = (robots.map (markExit board.grid board.exits), signal) := by
  intro robots
  induction robots with
  | nil => intro actions _; rfl
  | cons r rest ih =>
    intro actions hnone
    -- a list with no orders begins with no order
    have hhead : actions.head?.join = none := by
      cases actions with
      | nil => rfl
      | cons a others =>
        rw [List.all_cons, Bool.and_eq_true, Option.isNone_iff_eq_none] at hnone
        rw [hnone.1]
        rfl
    have htail : actions.tail.all Option.isNone = true :=
      List.all_eq_true.2 fun a ha => List.all_eq_true.1 hnone a (List.mem_of_mem_tail ha)
    rw [actPhase, hhead, ih actions.tail htail]
    rfl

/-- The verdict of a tick that nobody enters and nobody is saved in. -/
def idleVerdict (s : State) : Status :=
  verdict s.savedCount s.requiredSaved (s.stepCount + 1) s.maxSteps (s.robots.any Robot.blocking) false

/-- The quota has not been met before an idle tick, and nobody is saved in it. -/
theorem idleVerdict_ne_won {s : State} (hs : Settled s) (hr : s.status = .running) :
    idleVerdict s ≠ .won := by
  have hq := hs.quota hr
  unfold idleVerdict verdict
  rw [if_neg (by omega)]
  split
  · exact Status.noConfusion
  · split
    · exact Status.noConfusion
    · exact Status.noConfusion

/-- What idle means, as three separate facts: no action, nobody left to enter, no raft that can sail. -/
theorem isIdle_iff {s : State} {actions : List (Option Action)} :
    isIdle s actions = true ↔ actions.all Option.isNone = true ∧ s.spawner.count ≤ s.spawnedCount ∧
      s.rafts.any (raftMoves s.robots) = false := by
  have hspawns : s.remainingSpawns ≤ 0 ↔ s.spawner.count ≤ s.spawnedCount := by
    unfold State.remainingSpawns
    omega
  unfold isIdle
  rw [Bool.and_eq_true, Bool.and_eq_true, decide_eq_true_eq, Bool.not_eq_true', hspawns, and_assoc]

/-- A tick whose phases all go through goes through. -/
theorem tick_of_phases {s : State} {actions : List (Option Action)} {entry : Entry} {grid : Grid}
    {ferried : List Robot} {rafts : List Raft} (hr : s.status = .running)
    (hspawn : spawnPhase s = .ok entry)
    (hferry : ferry s.grid (actedRobots s entry actions).1 s.rafts s.jetties
      = .ok (grid, ferried, rafts)) :
    tick s actions = .ok (settle s entry (actedRobots s entry actions).2 grid ferried rafts) := by
  have hrunning : tick s actions = tickRunning s actions := if_pos hr
  rw [hrunning, tickRunning, hspawn]
  simp only [bind, Except.bind, hferry]
  rfl

/-- When all robots have entered, nobody enters. -/
theorem spawnPhase_of_complete {s : State} (h : s.spawner.count ≤ s.spawnedCount) :
    spawnPhase s = .ok ⟨s.robots, s.spawnedCount, s.nextSpawnTick⟩ := by
  have hdue : entering? s = none := by
    unfold entering? spawnDue
    rw [decide_eq_false (Int.not_lt.2 h)]
    rfl
  rw [spawnPhase, hdue]

/-- **An idle tick** counts one step and gives its verdict, and does nothing else.  Each phase is shown to
return what it was given: nobody enters, the actions are none, the rafts are still, and the last look at
the exits finds everybody as the tick before has left them. -/
theorem tick_idle {s : State} {actions : List (Option Action)} (hs : Settled s)
    (hr : s.status = .running) (hidle : isIdle s actions = true) :
    tick s actions = .ok { s with stepCount := s.stepCount + 1, status := idleVerdict s } := by
  obtain ⟨hnone, hspawned, hstill⟩ := isIdle_iff.1 hidle
  -- nobody enters, and nobody will
  have hlater : decide (s.spawnedCount < s.spawner.count) = false := decide_eq_false (by omega)
  have hspawn := spawnPhase_of_complete hspawned
  -- nobody is saved, neither without an action nor after the ferry step
  have hsame : s.robots.map (markExit s.grid s.exits) = s.robots :=
    (List.map_congr_left hs.exits).trans (List.map_id _)
  have hacted : actedRobots s ⟨s.robots, s.spawnedCount, s.nextSpawnTick⟩ actions
      = (s.robots, s.globalSignal) := by
    rw [actedRobots, actPhase_of_none _ _ _ _ _ hnone]
    show (s.robots.map (markExit s.grid s.exits), _) = _
    rw [hsame]
  -- a plate that is held has unlocked the doors before
  have hdoor : (s.doorUnlocked || platePressed s.grid s.robots || platePressed s.grid s.robots)
      = s.doorUnlocked := by
    cases hp : platePressed s.grid s.robots with
    | true => rw [hs.doors hp]; rfl
    | false => rw [Bool.or_false, Bool.or_false]
  have hferry : ferry s.grid
      (actedRobots s ⟨s.robots, s.spawnedCount, s.nextSpawnTick⟩ actions).1 s.rafts s.jetties
        = .ok (s.grid, s.robots, s.rafts) := by
    rw [hacted]
    exact ferry_of_still hstill
  rw [tick_of_phases hr hspawn hferry, hacted, settle]
  dsimp only
  rw [hsame, hdoor, hlater]
  rfl

end Simulation

namespace Run

/-! ## Machines that are through

  A machine can give no action for two reasons, that its robot is finished or that the machine has
  stopped, and neither changes any more.  So a round without actions is the last one in which the machines
  do anything. -/

/-- The machines after a round, each with the action it gives in it. -/
def asked (setup : Setup) (run : Run) : List (Machine × Option Action) :=
  ask setup run.state run.state.robots run.machines

/-- The actions of a round. -/
def orders (setup : Setup) (run : Run) : List (Option Action) := (run.asked setup).map Prod.snd

/-- Nothing can happen any more from this round on. -/
def idle (setup : Setup) (run : Run) : Bool := Simulation.isIdle run.state (run.orders setup)

/-- The machines give no action any more and stay as they are, whatever their robots see. -/
def Spent (setup : Setup) (robots : List Robot) (machines : List Machine) : Prop :=
  ∀ s, ask setup s robots machines = machines.map fun m => (m, none)

/-- A machine that has given no action gives none again, whatever its robot sees. -/
theorem askOne_again {s : Simulation.State} {r : Robot} {m : Machine}
    (h : (askOne s r m).2 = none) (s' : Simulation.State) :
    askOne s' r (askOne s r m).1 = ((askOne s r m).1, none) := by
  unfold askOne at h ⊢
  split
  · rename_i hb
    rw [if_pos hb] at h
    -- a machine that still runs would have given an action
    refine Machine.call_of_not_running (fun hrunning => ?_) _
    have hsome := Machine.call_running hrunning
    rw [h] at hsome
    cases hsome
  · rfl

/-- Machines that have all given no action are spent, one by one. -/
theorem ask_again {setup : Setup} {s : Simulation.State} :
    ∀ {robots : List Robot} {machines : List Machine},
      ((ask setup s robots machines).map Prod.snd).all Option.isNone = true →
      Spent setup robots ((ask setup s robots machines).map Prod.fst) := by
  intro robots
  induction robots with
  | nil => intro machines _ s'; rfl
  | cons r rest ih =>
    intro machines h s'
    rw [ask, List.map_cons, List.all_cons, Bool.and_eq_true, Option.isNone_iff_eq_none] at h
    have hone := askOne_again h.1 s'
    have hothers := ih h.2 s'
    show askOne s' r (askOne s r _).1
      :: ask setup s' rest ((ask setup s rest machines.tail).map Prod.fst) = _
    rw [hone, hothers]
    rfl

/-! ## The run that never gives up

  It is defined only to be compared with the run that does.  Both are made by the same recursion, on the
  ticks that are left, and have the same equations. -/

/-- One round, with a tick in any case. -/
def advanceFully (setup : Setup) (run : Run) : Except Simulation.Fault Run := do
  let state ← Simulation.tick run.state (run.orders setup)
  pure { state, machines := (run.asked setup).map Prod.fst }

theorem advanceFully_cases {setup : Setup} {run next : Run} (h : run.advanceFully setup = .ok next) :
    Simulation.tick run.state (run.orders setup) = .ok next.state ∧
      next.machines = (run.asked setup).map Prod.fst := by
  obtain ⟨state, htick, h⟩ := bind_eq_ok h
  cases h
  exact ⟨htick, rfl⟩

/-- Where a round is not idle the two runs do the same. -/
theorem advance_of_not_idle {setup : Setup} {run : Run} (h : run.idle setup = false) :
    run.advance setup = run.advanceFully setup := by
  have hgo : Simulation.tickOrGiveUp run.state (run.orders setup)
      = Simulation.tick run.state (run.orders setup) := by
    rw [Simulation.tickOrGiveUp, if_neg]
    exact Bool.eq_false_iff.1 h
  show (Simulation.tickOrGiveUp run.state (run.orders setup) >>= _) = _
  rw [hgo]
  rfl

/-- Where it is, the run that gives up is lost at once, without a tick. -/
theorem advance_of_idle {setup : Setup} {run : Run} (h : run.idle setup = true) :
    run.advance setup
      = .ok ⟨{ run.state with status := .lost }, (run.asked setup).map Prod.fst⟩ := by
  have hgive : Simulation.tickOrGiveUp run.state (run.orders setup)
      = .ok { run.state with status := .lost } := by
    rw [Simulation.tickOrGiveUp, if_pos]
    exact h
  show (Simulation.tickOrGiveUp run.state (run.orders setup) >>= _) = _
  rw [hgive]
  rfl

/-- A tick in any case takes one of the ticks that are left, so this run ends as well. -/
theorem advanceFully_ticksLeft {setup : Setup} {run next : Run} (hr : run.state.status = .running)
    (h : run.advanceFully setup = .ok next) : next.ticksLeft < run.ticksLeft := by
  have ht := (advanceFully_cases h).1
  have hc := Simulation.tick_stepCount hr ht
  have hm := Simulation.tick_maxSteps ht
  unfold ticksLeft
  rw [if_pos hr]
  split
  · rename_i hn
    have hlt := Simulation.tick_running_lt hr ht hn
    omega
  · omega

/-- The run from here to its end, round by round, without ever giving up. -/
def fullHistory (setup : Setup) (run : Run) : Except Simulation.Fault (List Run) :=
  if hr : run.state.status = .running then
    match ha : run.advanceFully setup with
    | .error fault => .error fault
    | .ok next =>
      have : next.ticksLeft < run.ticksLeft := advanceFully_ticksLeft hr ha
      (fullHistory setup next).map (run :: ·)
  else .ok [run]
termination_by run.ticksLeft

section Equations

variable {setup : Setup} {run : Run}

/-- A run that is over is its only round. -/
theorem history_of_over (hr : run.state.status ≠ .running) : history setup run = .ok [run] := by
  rw [history, dif_neg hr]

/-- A run that is running goes on with its next round.  The equation is free of the proof that the
recursion carries. -/
theorem history_of_running (hr : run.state.status = .running) :
    history setup run = run.advance setup >>= fun next => (history setup next).map (run :: ·) := by
  rw [history, dif_pos hr]
  split
  · rename_i fault ha
    rw [ha]
    rfl
  · rename_i next ha
    show (history setup next).map (run :: ·) = _
    rw [ha]
    rfl

/-- A round that is running comes before the run from the next round on. -/
theorem history_cons {next : Run} {rounds : List Run} (hr : run.state.status = .running)
    (hnext : run.advance setup = .ok next) (hrounds : history setup next = .ok rounds) :
    history setup run = .ok (run :: rounds) := by
  rw [history_of_running hr, hnext]
  show (history setup next).map (run :: ·) = _
  rw [hrounds]
  rfl

/-- The same for the run that never gives up. -/
theorem fullHistory_of_over (hr : run.state.status ≠ .running) :
    fullHistory setup run = .ok [run] := by
  rw [fullHistory, dif_neg hr]

/-- And the same where it is running. -/
theorem fullHistory_of_running (hr : run.state.status = .running) :
    fullHistory setup run
      = run.advanceFully setup >>= fun next => (fullHistory setup next).map (run :: ·) := by
  rw [fullHistory, dif_pos hr]
  split
  · rename_i fault ha
    rw [ha]
    rfl
  · rename_i next ha
    show (fullHistory setup next).map (run :: ·) = _
    rw [ha]
    rfl

/-- A round that is running comes before the run from the next round on. -/
theorem fullHistory_cons {next : Run} {rounds : List Run} (hr : run.state.status = .running)
    (hnext : run.advanceFully setup = .ok next) (hrounds : fullHistory setup next = .ok rounds) :
    fullHistory setup run = .ok (run :: rounds) := by
  rw [fullHistory_of_running hr, hnext]
  show (fullHistory setup next).map (run :: ·) = _
  rw [hrounds]
  rfl

/-- A run begins with its first round; behind it comes a run again. -/
theorem history_cases {rounds : List Run} (h : history setup run = .ok rounds) :
    (run.state.status ≠ .running ∧ rounds = [run]) ∨
      (run.state.status = .running ∧ ∃ next rest, run.advance setup = .ok next ∧
        history setup next = .ok rest ∧ rounds = run :: rest) := by
  by_cases hr : run.state.status = .running
  · rw [history_of_running hr] at h
    obtain ⟨next, hnext, h⟩ := bind_eq_ok h
    cases hrest : history setup next with
    | error fault =>
      rw [hrest] at h
      cases h
    | ok rest =>
      rw [hrest] at h
      cases h
      exact Or.inr ⟨hr, next, rest, hnext, hrest, rfl⟩
  · rw [history_of_over hr] at h
    cases h
    exact Or.inl ⟨hr, rfl⟩

/-- A run that never gives up begins with its first round; behind it comes such a run again. -/
theorem fullHistory_cases {rounds : List Run} (h : fullHistory setup run = .ok rounds) :
    (run.state.status ≠ .running ∧ rounds = [run]) ∨
      (run.state.status = .running ∧ ∃ next rest, run.advanceFully setup = .ok next ∧
        fullHistory setup next = .ok rest ∧ rounds = run :: rest) := by
  by_cases hr : run.state.status = .running
  · rw [fullHistory_of_running hr] at h
    obtain ⟨next, hnext, h⟩ := bind_eq_ok h
    cases hrest : fullHistory setup next with
    | error fault =>
      rw [hrest] at h
      cases h
    | ok rest =>
      rw [hrest] at h
      cases h
      exact Or.inr ⟨hr, next, rest, hnext, hrest, rfl⟩
  · rw [fullHistory_of_over hr] at h
    cases h
    exact Or.inl ⟨hr, rfl⟩

end Equations

end Run

end RobotPuzzle
