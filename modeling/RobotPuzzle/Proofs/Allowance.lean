/-
  The limit of the machines, and the tick limit.

  1. **A round** — robot number `i` is asked through machine number `i`, which is new if the robot has not
     been seen before (`asked_getElem?`); machines are never more than robots.
  2. **The tally** — in every round the machine of a robot has counted the actions that the robot was
     handed out in the rounds before (`Tallied`).  A robot is handed out at most one action in a round, and
     none unless it blocks and a tick is made (`handedOut_le`).
  3. **The allowance** — a round that is running comes after fewer rounds than the tick limit, so a
     machine that is allowed as many actions as there are ticks is never cut off (`Unspent`).
  4. **Evaluation** — so the limit of the machines is never hit unless it was set below the tick limit
     (`tickLimit_suffices`).

  The crux is that a machine counts only what it hands out, so its count can be read off the rounds.
  Rounds are bounded by the tick limit, and machines by their own limit; where the second is not smaller,
  the first comes in time.

  What is stated has two halves.  The first needs its two assumptions: with no tick at all a machine could
  still be asked, and a limit below the tick limit is what a machine can hit.  The second half holds in
  every evaluation and is the reason for the first; it counts, machine by machine, what was handed out and
  in how many rounds the robot was blocking.  In the example at the end the allowance is used up to the
  last action.
-/
import RobotPuzzle.Proofs.Limits
import RobotPuzzle.Proofs.Report
import RobotPuzzle.Proofs.Roster

namespace RobotPuzzle

namespace Machine

/-- A machine below its limit is not cut off. -/
theorem call_status_ne_stepLimit {m : Machine} (hm : m.status ≠ .stepLimit)
    (hlt : (m.steps : Int) < m.maxSteps) (see : Condition → Bool) :
    (m.call see).1.status ≠ .stepLimit := by
  rcases call_outcomes m see with
    ⟨-, h⟩ | ⟨-, -, h⟩ | ⟨hr, stack, leaf, -, ⟨-, h⟩ | ⟨hle, -⟩⟩
  · rw [h]
    exact hm
  · rw [h]
    exact Status.noConfusion
  · rw [h]
    exact hm
  · omega

end Machine

namespace Run

/-! ## A round

  In each round robots and machines are gone through together, and machines are made for robots that have
  entered since. -/

section Round

variable {s : Simulation.State} {r : Robot} {m : Machine}

theorem askOne_maxSteps (s : Simulation.State) (r : Robot) (m : Machine) :
    (askOne s r m).1.maxSteps = m.maxSteps := by
  unfold askOne
  split
  · exact Machine.call_maxSteps m _
  · rfl

/-- A machine counts the action that its robot is handed out, and a robot that is not asked has none to
count. -/
theorem askOne_steps (s : Simulation.State) (r : Robot) (m : Machine) :
    (askOne s r m).1.steps = m.steps + (askOne s r m).2.toList.length := by
  unfold askOne
  split
  · exact Machine.call_steps m _
  · rfl

theorem askOne_status_ne_stepLimit (hm : m.status ≠ .stepLimit)
    (hlt : (m.steps : Int) < m.maxSteps) : (askOne s r m).1.status ≠ .stepLimit := by
  unfold askOne
  split
  · exact Machine.call_status_ne_stepLimit hm hlt _
  · exact hm

/-- Only a blocking robot is handed out an action. -/
theorem blocking_of_askOne {action : Action} (h : (askOne s r m).2 = some action) :
    r.blocking = true := by
  unfold askOne at h
  split at h
  · assumption
  · cases h

end Round

/-- The robot at a place is asked through the machine at that place, or through a new one. -/
theorem ask_getElem? (setup : Setup) (s : Simulation.State) :
    ∀ (robots : List Robot) (machines : List Machine) (i : Nat),
      (ask setup s robots machines)[i]? = robots[i]?.map fun r =>
        askOne s r (machines[i]?.getD (Machine.create setup.program setup.maxSteps)) := by
  intro robots
  induction robots with
  | nil => intro machines i; rfl
  | cons r rest ih =>
    intro machines i
    cases i with
    | zero =>
      rw [ask, List.head?_eq_getElem?]
      rfl
    | succ i => rw [ask, List.getElem?_cons_succ, ih, List.getElem?_tail, List.getElem?_cons_succ]

/-- The machine of robot number `i` when it is asked: its own, or a new one. -/
def machineOf (setup : Setup) (run : Run) (i : Nat) : Machine :=
  run.machines[i]?.getD (Machine.create setup.program setup.maxSteps)

theorem asked_getElem? (setup : Setup) (run : Run) (i : Nat) :
    (run.asked setup)[i]? = run.state.robots[i]?.map fun r =>
      askOne run.state r (run.machineOf setup i) :=
  ask_getElem? setup run.state run.state.robots run.machines i

/-- The machines after a round are those that were asked in it. -/
theorem advance_machines {setup : Setup} {run next : Run} (h : run.advance setup = .ok next) :
    next.machines = (run.asked setup).map Prod.fst := by
  cases hidle : run.idle setup with
  | true =>
    rw [advance_of_idle hidle] at h
    cases h
    rfl
  | false =>
    rw [advance_of_not_idle hidle] at h
    exact (advanceFully_cases h).2

theorem robots_length_le_advance {setup : Setup} {run next : Run} (h : run.advance setup = .ok next) :
    run.state.robots.length ≤ next.state.robots.length := by
  rcases advance_state h with hgiven | ⟨actions, htick⟩
  · rw [hgiven]
  · obtain ⟨entered, hcontinue, -⟩ := Simulation.tick_continues htick
    rw [← hcontinue.length_eq, List.length_append]
    exact Nat.le_add_right _ _

/-! ## The tally

  The list of machines grows with the robots, so `machineOf` speaks of a machine for every robot, be it
  there or not.  That makes the tally one statement for all robots and all rounds, the rounds before they
  entered included. -/

/-- What robot number `i` is handed out in a round. -/
def order (setup : Setup) (i : Nat) (run : Run) : Option Action := (run.orders setup)[i]?.join

/-- The actions that robot number `i` is handed out in these rounds. -/
def handedOut (setup : Setup) (i : Nat) (rounds : List Run) : List Action :=
  rounds.filterMap (order setup i)

/-- A tick is made in the round, and robot number `i` blocks when it begins. -/
def blocksIn (setup : Setup) (i : Nat) (run : Run) : Bool :=
  !run.idle setup && run.state.robots[i]?.any Robot.blocking

theorem order_eq (setup : Setup) (i : Nat) (run : Run) :
    run.order setup i
      = run.state.robots[i]?.bind fun r => (askOne run.state r (run.machineOf setup i)).2 := by
  rw [order, orders, List.getElem?_map, asked_getElem?]
  cases run.state.robots[i]? with
  | none => rfl
  | some r => rfl

/-- Who is handed out an action blocks, and the round is not idle. -/
theorem blocksIn_of_order {setup : Setup} {i : Nat} {run : Run}
    (h : (order setup i run).isSome = true) : blocksIn setup i run = true := by
  obtain ⟨action, haction⟩ := Option.isSome_iff_exists.1 h
  have hidle : run.idle setup = false := by
    refine Bool.eq_false_iff.2 fun hidle => ?_
    obtain ⟨hnone, -, -⟩ := Simulation.isIdle_iff.1 hidle
    have hmem : some action ∈ run.orders setup :=
      List.mem_of_getElem? (Option.join_eq_some_iff.1 haction)
    cases List.all_eq_true.1 hnone _ hmem
  rw [order_eq] at haction
  obtain ⟨r, hr, hone⟩ := Option.bind_eq_some_iff.1 haction
  rw [blocksIn, hidle, hr]
  exact blocking_of_askOne hone

/-- **At most one action in a tick**, and only to a robot that blocks. -/
theorem handedOut_le (setup : Setup) (i : Nat) (rounds : List Run) :
    (handedOut setup i rounds).length ≤ rounds.countP (blocksIn setup i) := by
  rw [handedOut, List.length_filterMap_eq_countP]
  exact List.countP_mono_left fun run _ h => blocksIn_of_order h

theorem handedOut_concat (setup : Setup) (i : Nat) (before : List Run) (run : Run) :
    (handedOut setup i (before ++ [run])).length
      = (handedOut setup i before).length + (order setup i run).toList.length := by
  rw [handedOut, List.filterMap_append, List.length_append, ← handedOut]
  cases h : order setup i run with
  | none => rw [List.filterMap_cons_none h]; rfl
  | some action => rw [List.filterMap_cons_some h]; rfl

/-- The machines after those rounds: each has the limit of the run, and has counted what its robot was
handed out; who has no machine yet was handed out nothing. -/
structure Tallied (setup : Setup) (before : List Run) (run : Run) : Prop where
  /-- a machine for a robot at most -/
  entered : run.machines.length ≤ run.state.robots.length
  /-- each machine has the limit of the run -/
  limit : ∀ i, (run.machineOf setup i).maxSteps = setup.maxSteps
  /-- and has counted what its robot was handed out -/
  steps : ∀ i, (run.machineOf setup i).steps = (handedOut setup i before).length

/-- After a round the machine of a robot is the one that was asked in it, or still a new one. -/
theorem machineOf_advance {setup : Setup} {run next : Run}
    (hentered : run.machines.length ≤ run.state.robots.length)
    (hnext : run.advance setup = .ok next) (i : Nat) :
    next.machineOf setup i
      = (run.state.robots[i]?.map fun r => (askOne run.state r (run.machineOf setup i)).1).getD
          (run.machineOf setup i) := by
  rw [machineOf, advance_machines hnext, List.getElem?_map, asked_getElem?, Option.map_map]
  cases hr : run.state.robots[i]? with
  | none =>
    -- who is not on the board has no machine either
    have hlate := List.getElem?_eq_none_iff.1 hr
    rw [machineOf, List.getElem?_eq_none (Nat.le_trans hentered hlate)]
    rfl
  | some r => rfl

/-- **One round** keeps the tally: the machine of a robot counts what it hands out, and that is what the
round adds. -/
theorem tallied_advance {setup : Setup} {before : List Run} {run next : Run}
    (h : Tallied setup before run) (hnext : run.advance setup = .ok next) :
    Tallied setup (before ++ [run]) next := by
  have hlength : next.machines.length = run.state.robots.length := by
    rw [advance_machines hnext, List.length_map]
    exact ask_length setup run.state run.state.robots run.machines
  have hmore := robots_length_le_advance hnext
  refine ⟨by omega, fun i => ?_, fun i => ?_⟩
  · rw [machineOf_advance h.entered hnext]
    -- a place with no robot asks nothing, so its machine stays as it is
    cases run.state.robots[i]? with
    | none => exact h.limit i
    | some r => exact (askOne_maxSteps run.state r _).trans (h.limit i)
  · rw [machineOf_advance h.entered hnext, handedOut_concat, order_eq]
    cases run.state.robots[i]? with
    | none => exact h.steps i
    | some r =>
      rw [← h.steps i]
      exact askOne_steps run.state r _

/-- After the start nothing has been handed out, and nobody has a machine. -/
theorem tallied_start (setup : Setup) (s : Simulation.State) : Tallied setup [] { state := s } :=
  ⟨Nat.zero_le _, fun _ => rfl, fun _ => rfl⟩

/-! ## The allowance

  `Counted` says that the ticks made so far are as many as the rounds, and fewer than the limit while the
  run goes on. -/

/-- The machines after those rounds are within their limit, and it allows as many actions as there are
ticks. -/
structure Unspent (setup : Setup) (limit : Int) (before : List Run) (run : Run) : Prop where
  /-- the tally so far -/
  tallied : Tallied setup before run
  /-- the rounds are counted, and below the tick limit while the run goes on -/
  counted : Counted limit before run
  /-- no machine has been cut off -/
  uncut : ∀ i, (run.machineOf setup i).status ≠ .stepLimit

theorem unspent_start (setup : Setup) {s : Simulation.State} (hnew : s.stepCount = 0) :
    Unspent setup s.maxSteps [] { state := s } :=
  ⟨tallied_start setup s, ⟨rfl, fun _ => hnew, fun _ => Or.inl rfl⟩, fun _ => Machine.Status.noConfusion⟩

/-- **One round** leaves the machines within their limit. -/
theorem unspent_advance {setup : Setup} {limit : Int} (hpos : 1 ≤ limit) (hle : limit ≤ setup.maxSteps)
    {before : List Run} {run next : Run} (h : Unspent setup limit before run)
    (hr : run.state.status = .running) (hnext : run.advance setup = .ok next) :
    Unspent setup limit (before ++ [run]) next := by
  refine ⟨tallied_advance h.tallied hnext, counted_advance h.counted hr hnext, fun i => ?_⟩
  -- fewer rounds than the limit lie behind, and at most one action was handed out in each
  have hrounds : (before.length : Int) < setup.maxSteps := by
    rcases h.counted.below hr with rfl | hbelow
    · rw [List.length_nil]
      omega
    · omega
  have hfew : ((run.machineOf setup i).steps : Int) < (run.machineOf setup i).maxSteps := by
    have hgiven := Nat.le_trans (handedOut_le setup i before) List.countP_le_length
    rw [h.tallied.limit, h.tallied.steps]
    omega
  rw [machineOf_advance h.tallied.entered hnext]
  cases run.state.robots[i]? with
  | none => exact h.uncut i
  | some r => exact askOne_status_ne_stepLimit (h.uncut i) hfew

theorem stepLimitHit_of_uncut {setup : Setup} {run : Run}
    (h : ∀ i, (run.machineOf setup i).status ≠ .stepLimit) : run.stepLimitHit = false := by
  refine List.any_eq_false.2 fun m hm hcut => ?_
  obtain ⟨i, hi⟩ := List.mem_iff_getElem?.1 hm
  have hmachine : run.machineOf setup i = m := by rw [machineOf, hi, Option.getD_some]
  exact h i (hmachine ▸ beq_iff_eq.1 hcut)

end Run

namespace Evaluation

/-! ## Evaluation

  Without a limit of their own machines are given the tick limit of the level, and then the allowance is
  exact. -/

/-- The limit of the machines is not below the tick limit. -/
def Options.Allows (options : Options) (limit : Int) : Prop :=
  ∀ steps, options.maxMachineSteps = some steps → limit ≤ steps

/-- The machines of the evaluation are allowed as many actions as there are ticks. -/
theorem Options.Allows.le_maxSteps {options : Options} {state : Simulation.State}
    (h : options.Allows state.maxSteps) (program : Program) :
    state.maxSteps ≤ (setupOf program options state).maxSteps := by
  show state.maxSteps ≤ options.maxMachineSteps.getD state.maxSteps
  cases hsteps : options.maxMachineSteps with
  | none => exact Int.le_refl _
  | some steps => exact h steps hsteps

/-- **The tick limit suffices the machines.**  Where there is at least one tick, and the machines are not
limited to fewer actions than there are ticks, an evaluation hits no limit of a machine; where robots have
headings it goes through if the level can be started.  In any evaluation, whatever its limits, the
machine of a robot has handed out as many actions as it has counted, and no more than the ticks in which
the robot was blocking. -/
theorem tickLimit_suffices (program : Program) (level : Level) (options : Options) :
    (1 ≤ options.tickLimit level → options.Allows (options.tickLimit level) →
      (∀ r, evaluate program level options = .ok r → r.stepLimitHit = false) ∧
      (Simulation.Headed level.spawner → ∀ state,
        level.start (options.maxTicks.getD Simulation.defaultMaxSteps) = .ok state →
        ∃ r, evaluate program level options = .ok r ∧ r.stepLimitHit = false)) ∧
    ∀ state before run after,
      level.start (options.maxTicks.getD Simulation.defaultMaxSteps) = .ok state →
      Run.history (setupOf program options state) { state } = .ok (before ++ run :: after) →
      ∀ i m, run.machines[i]? = some m →
        m.steps = (Run.handedOut (setupOf program options state) i before).length ∧
        m.steps ≤ before.countP (Run.blocksIn (setupOf program options state) i) := by
  refine ⟨fun hpos hallows => ?_, fun state before run after _ hhistory i m hm => ?_⟩
  · have hnever : ∀ r, evaluate program level options = .ok r → r.stepLimitHit = false := by
      intro r hr
      obtain ⟨state, before, last, hstart, hhistory, rfl⟩ := exists_rounds hr
      obtain ⟨hlimit, hnew⟩ := counters_of_start hstart
      rw [← hlimit] at hpos hallows
      -- the tally is kept round by round, so no machine ever asks for more than there are ticks
      have hunspent : Run.Unspent (setupOf program options state) state.maxSteps ([] ++ before) last :=
        Run.history_traces (Run.unspent_advance hpos (hallows.le_maxSteps program)) hhistory
          (Run.unspent_start _ hnew)
      exact Run.stepLimitHit_of_uncut hunspent.uncut
    refine ⟨hnever, fun hheaded state hstart => ?_⟩
    -- with headings in order an evaluation fails only with the level itself, which has been started
    -- here
    cases hr : evaluate program level options with
    | error fault =>
      rw [(evaluate_error_iff hheaded program options fault).1 hr] at hstart
      cases hstart
    | ok r => exact ⟨r, rfl, hnever r hr⟩
  · -- what holds of one round holds at any place of a history
    have htallied : Run.Tallied (setupOf program options state) ([] ++ before) run :=
      Run.history_traces (fun h _ hnext => Run.tallied_advance h hnext) hhistory
        (Run.tallied_start _ state)
    have hsteps := htallied.steps i
    rw [Run.machineOf, hm, Option.getD_some, List.nil_append] at hsteps
    rw [hsteps]
    exact ⟨rfl, Run.handedOut_le _ i before⟩

/-- Waits for longer than a short level lasts. -/
def longWait : Program := [.loop 9 [.act .wait] .null]

/-- As many actions as the level has ticks, three: all are handed out, and none is one too many. -/
theorem tickLimit_suffices_doorstep :
    1 ≤ Options.tickLimit { maxMachineSteps := some 3 } doorstep ∧
    Options.Allows { maxMachineSteps := some 3 } 3 ∧ Simulation.Headed doorstep.spawner ∧
    ∃ (r : Result) (state : Simulation.State) (before : List Run) (last : Run),
      evaluate longWait doorstep { maxMachineSteps := some 3 } = .ok r ∧ r.stepLimitHit = false ∧
      Run.history ⟨longWait, 3⟩ { state } = .ok (before ++ [last]) ∧
      (Run.handedOut ⟨longWait, 3⟩ 0 before).length = 3 ∧
      3 ≤ before.countP (Run.blocksIn ⟨longWait, 3⟩ 0) := by
  have hpos : 1 ≤ Options.tickLimit { maxMachineSteps := some 3 } doorstep := by decide
  have hallows : Options.Allows { maxMachineSteps := some 3 } 3 := by
    intro steps hsteps
    cases hsteps
    exact Int.le_refl 3
  have hheaded : Simulation.Headed doorstep.spawner := by decide
  -- the run itself is evaluated, down to the counter of its last machine
  obtain ⟨state, rounds, hstart, hhistory, hthree⟩ := exists_history_of_eq
    (show ((doorstep.start 200).bind fun state =>
      ((Run.history ⟨longWait, 3⟩ { state }).map fun rounds =>
        rounds.getLast?.bind fun last => last.machines[0]?.map Machine.steps).mapError
          Level.StartFault.run).toOption = some (some 3) by decide +kernel)
  obtain ⟨before, last, rfl, -, -⟩ := Run.history_ends hhistory
  obtain ⟨hsuffices, htally⟩ := tickLimit_suffices longWait doorstep { maxMachineSteps := some 3 }
  obtain ⟨r, hr, hnever⟩ := (hsuffices hpos hallows).2 hheaded state hstart
  rw [List.getLast?_concat] at hthree
  obtain ⟨m, hm, hsteps⟩ := Option.map_eq_some_iff.1 hthree
  have hmachine := htally state before last [] hstart hhistory 0 m hm
  rw [hsteps] at hmachine
  exact ⟨hpos, hallows, hheaded, r, state, before, last, hr, hnever, hhistory, hmachine.1.symm,
    hmachine.2⟩

/-- One action less than there are ticks is too few. -/
example : ((evaluate longWait doorstep { maxMachineSteps := some 2 }).map
    Result.stepLimitHit).toOption = some true := by decide +kernel

end Evaluation

end RobotPuzzle
