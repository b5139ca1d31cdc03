/-
  Giving up an idle run early changes nothing but the number of ticks.

  1. **Echoes** — from the first idle round on, a run that never gives up goes through states that differ
     from that of the idle round in the number of steps and in the status only, and it is lost in the
     end (`fullHistory_of_frozen`).
  2. **Two runs** — the run that gives up and the run that never does go through the same rounds up to the
     first idle one, or both fail with the same fault (`histories`).
  3. **The climb** — the score of an echo is the score of its original, and it adds no milestone.  So the
     peak of a run does not depend on how many echoes follow (`Prolongs.climb`).
  4. **Evaluation** — `evaluateFully` never gives up; it has the same peak, milestones and end as `evaluate`
     (`evaluateFully_agrees`).

  The crux is that an idle state can be followed by many more states, whose number depends on the step
  limit, and that none of them may add anything to the result.  They are compared with one fixed state,
  that of the first idle round, and not each with the one before: an echo of the idle state stays an echo
  after one more idle tick, since such a tick changes nothing but what echoes may differ in.

  The other evaluation is a definition of its own, which goes on ticking until the run is over.  So that
  giving up is sound is not an observation about one program but a comparison of two, with every field of
  the result named in `SameButTicks`.  What a tick of an idle run does is stated too, since it is what
  makes the comparison true: it counts a step and changes nothing else before the last.
-/
import RobotPuzzle.Evaluation.Result
import RobotPuzzle.Proofs.Idle
import RobotPuzzle.Proofs.Levels

namespace RobotPuzzle

namespace Run

/-! ## Echoes

  `Frozen` is what is known of the first idle round, `Echo` what is known of those behind it.  An echo may
  be lost, but it is never won: the quota was open when the run became idle, and nobody is saved any more.
-/

/-- A round that differs from a state in the number of steps and in the status only. -/
structure Echo (s : Simulation.State) (machines : List Machine) (run : Run) : Prop where
  /-- the state, but for steps and status -/
  state : run.state = { s with stepCount := run.state.stepCount, status := run.state.status }
  /-- the machines are the same -/
  machines : run.machines = machines
  /-- it is not won -/
  notWon : run.state.status ≠ .won

/-- To give up is an echo as well. -/
theorem echo_given_up (s : Simulation.State) (machines : List Machine) :
    Echo s machines ⟨{ s with status := .lost }, machines⟩ :=
  ⟨rfl, rfl, Simulation.Status.noConfusion⟩

/-- A running state in which nothing can happen any more, with the machines beside it. -/
structure Frozen (setup : Setup) (s : Simulation.State) (machines : List Machine) : Prop where
  /-- the last tick has seen to everything -/
  settled : Simulation.Settled s
  /-- the run is not over -/
  running : s.status = .running
  /-- nobody is still to enter -/
  spawned : s.spawner.count ≤ s.spawnedCount
  /-- no raft can sail -/
  still : s.rafts.any (Simulation.raftMoves s.robots) = false
  /-- and every program has come to its end -/
  spent : Spent setup s.robots machines

section Frozen

variable {setup : Setup} {s : Simulation.State} {machines : List Machine} {run : Run}

/-- An idle round freezes its state, with the machines it leaves. -/
theorem frozen_of_idle (hs : Simulation.Settled run.state) (hr : run.state.status = .running)
    (hidle : run.idle setup = true) :
    Frozen setup run.state ((run.asked setup).map Prod.fst) := by
  obtain ⟨hnone, hspawned, hstill⟩ := Simulation.isIdle_iff.1 hidle
  exact ⟨hs, hr, hspawned, hstill, ask_again hnone⟩

/-- The round that follows an idle one is an echo of it: it is an idle tick of a settled state. -/
theorem advanceFully_of_idle (hs : Simulation.Settled run.state) (hr : run.state.status = .running)
    (hidle : run.idle setup = true) : ∃ next, run.advanceFully setup = .ok next ∧
      Echo run.state ((run.asked setup).map Prod.fst) next := by
  let state : Simulation.State :=
    { run.state with
      stepCount := run.state.stepCount + 1, status := Simulation.idleVerdict run.state }
  have htick : Simulation.tick run.state (run.orders setup) = .ok state :=
    Simulation.tick_idle hs hr hidle
  refine ⟨⟨state, (run.asked setup).map Prod.fst⟩, ?_, rfl, rfl, ?_⟩
  · show (Simulation.tick run.state (run.orders setup) >>= _) = _
    rw [htick]
    rfl
  · exact Simulation.idleVerdict_ne_won hs hr

/-- An echo of a frozen state is settled, its round is idle, and its machines stay. -/
theorem Echo.idle_of_frozen (hf : Frozen setup s machines) (he : Echo s machines run) :
    Simulation.Settled run.state ∧ run.idle setup = true ∧
      (run.asked setup).map Prod.fst = machines := by
  have hasked : run.asked setup = machines.map fun m => (m, none) := by
    rw [asked, he.machines, he.state]
    exact hf.spent _
  refine ⟨?_, ?_, ?_⟩
  · rw [he.state]
    exact ⟨hf.settled.exits, hf.settled.doors, fun _ => hf.settled.quota hf.running⟩
  · rw [idle, orders, hasked, Simulation.isIdle_iff, he.state]
    exact ⟨by simp, hf.spawned, hf.still⟩
  · rw [hasked, List.map_map]
    exact List.map_id _

/-- The run that never gives up goes through echoes only, and is lost in the end.  It has to end, since
every tick takes one of those that are left, and it cannot end won. -/
theorem fullHistory_of_frozen (hf : Frozen setup s machines) :
    ∀ {run : Run}, Echo s machines run → ∃ rounds, fullHistory setup run = .ok rounds ∧
      (∀ r ∈ rounds, Echo s machines r) ∧
      ∃ last, rounds.getLast? = some last ∧ last.state.status = .lost := by
  intro run
  -- on the ticks that are left, since nothing else of an echo gets less
  induction hn : run.ticksLeft using Nat.strongRecOn generalizing run with
  | ind n ih =>
    intro he
    by_cases hr : run.state.status = .running
    · obtain ⟨hs, hidle, hmachines⟩ := he.idle_of_frozen hf
      obtain ⟨next, hnext, hecho⟩ := advanceFully_of_idle hs hr hidle
      have hecho' : Echo s machines next := by
        refine ⟨?_, hecho.machines.trans hmachines, hecho.notWon⟩
        rw [hecho.state, he.state]
      have hless : next.ticksLeft < n := hn ▸ advanceFully_ticksLeft hr hnext
      obtain ⟨rounds, hrounds, hall, last, hlast, hlost⟩ := ih _ hless rfl hecho'
      refine ⟨run :: rounds, fullHistory_cons hr hnext hrounds, List.forall_mem_cons.2 ⟨he, hall⟩,
        last, ?_, hlost⟩
      rw [List.getLast?_cons, hlast]
      rfl
    · have hlost : run.state.status = .lost := by
        cases hstatus : run.state.status with
        | running => exact absurd hstatus hr
        | won => exact absurd hstatus he.notWon
        | lost => rfl
      exact ⟨[run], fullHistory_of_over hr, List.forall_mem_singleton.2 he, run, rfl, hlost⟩

end Frozen

/-! ## Two runs

  `Prolongs` puts the two lists of rounds side by side.  It has a rule for the end of both, one for a
  round that both make, and one for the point at which they part; there the one list has one state more
  and the other a whole series of echoes. -/

/-- How the run that gives up goes on after a round, and the run that never does. -/
inductive Prolongs : Run → List Run → List Run → Prop
  /-- the round was the last one -/
  | ended {run} : Prolongs run [] []
  /-- the round was idle: the one run is given up, the other goes through echoes and is lost -/
  | idle {run machines rounds last} (running : run.state.status = .running)
      (echoes : ∀ r ∈ rounds, Echo run.state machines r) (ends : rounds.getLast? = some last)
      (lost : last.state.status = .lost) :
      Prolongs run [⟨{ run.state with status := .lost }, machines⟩] rounds
  /-- both go through the same next round -/
  | round {run next given rounds} (rest : Prolongs next given rounds) :
      Prolongs run (next :: given) (next :: rounds)

theorem settled_advanceFully {setup : Setup} {run next : Run} (hs : Simulation.Settled run.state)
    (h : run.advanceFully setup = .ok next) : Simulation.Settled next.state :=
  Simulation.settled_tick hs (advanceFully_cases h).1

/-- **The two runs** fail with the same fault, or one prolongs the other.  By induction on the ticks that
are left: an idle round parts them for good, any other round is the same for both. -/
theorem histories {setup : Setup} : ∀ {run : Run}, Simulation.Settled run.state →
    (∃ fault, history setup run = .error fault ∧ fullHistory setup run = .error fault) ∨
      ∃ given rounds, history setup run = .ok (run :: given) ∧
        fullHistory setup run = .ok (run :: rounds) ∧ Prolongs run given rounds := by
  intro run
  induction hn : run.ticksLeft using Nat.strongRecOn generalizing run with
  | ind n ih =>
    intro hs
    by_cases hr : run.state.status = .running
    · cases hidle : run.idle setup with
      | true =>
        -- the one run is given up, the other goes through echoes
        obtain ⟨next, hnext, hecho⟩ := advanceFully_of_idle hs hr hidle
        obtain ⟨rounds, hrounds, hall, last, hlast, hlost⟩ :=
          fullHistory_of_frozen (frozen_of_idle hs hr hidle) hecho
        have hgiven := history_cons hr (advance_of_idle hidle)
          (history_of_over Simulation.Status.noConfusion)
        exact Or.inr ⟨_, rounds, hgiven, fullHistory_cons hr hnext hrounds,
          .idle hr hall hlast hlost⟩
      | false =>
        -- both runs make the same round
        have hsame := advance_of_not_idle hidle
        cases hnext : run.advanceFully setup with
        | error fault =>
          rw [history_of_running hr, fullHistory_of_running hr, hsame, hnext]
          exact Or.inl ⟨fault, rfl, rfl⟩
        | ok next =>
          have hless : next.ticksLeft < n := hn ▸ advanceFully_ticksLeft hr hnext
          rcases ih _ hless rfl (settled_advanceFully hs hnext) with
            ⟨fault, hgiven, hfull⟩ | ⟨given, rounds, hgiven, hfull, hrest⟩
          · rw [history_of_running hr, fullHistory_of_running hr, hsame, hnext]
            show (∃ fault, (history setup next).map (run :: ·) = .error fault ∧
              (fullHistory setup next).map (run :: ·) = .error fault) ∨ _
            rw [hgiven, hfull]
            exact Or.inl ⟨fault, rfl, rfl⟩
          · exact Or.inr ⟨next :: given, next :: rounds, history_cons hr (hsame.trans hnext) hgiven,
              fullHistory_cons hr hnext hfull, .round hrest⟩
    · rw [history_of_over hr, fullHistory_of_over hr]
      exact Or.inr ⟨[], [], rfl, rfl, .ended⟩

/-- What the run that never gives up goes through from a round on is such a run itself. -/
theorem fullHistory_suffix {setup : Setup} {r : Run} {after : List Run} :
    ∀ {before : List Run} {run : Run}, Simulation.Settled run.state →
      fullHistory setup run = .ok (before ++ r :: after) →
      Simulation.Settled r.state ∧ fullHistory setup r = .ok (r :: after) := by
  intro before
  induction before with
  | nil =>
    intro run hs h
    rcases fullHistory_cases h with ⟨-, hone⟩ | ⟨-, next, rest, -, -, hmore⟩
    · cases hone
      exact ⟨hs, h⟩
    · cases hmore
      exact ⟨hs, h⟩
  | cons first others ih =>
    intro run hs h
    rcases fullHistory_cases h with ⟨-, hone⟩ | ⟨-, next, rest, hnext, hrest, hmore⟩
    · -- a run of one round has no later one
      cases others with
      | nil => cases hone
      | cons _ _ => cases hone
    · cases hmore
      exact ih (settled_advanceFully hs hnext) hrest

/-- All rounds behind an idle one are echoes of it. -/
theorem echoes_of_idle {setup : Setup} {run : Run} {after : List Run}
    (hs : Simulation.Settled run.state) (h : fullHistory setup run = .ok (run :: after))
    (hidle : run.idle setup = true) : ∀ later ∈ after, run.state.status = .running ∧
      Echo run.state ((run.asked setup).map Prod.fst) later := by
  rcases fullHistory_cases h with ⟨-, hone⟩ | ⟨hr, next, rest, hnext, hrest, hmore⟩
  · cases hone
    intro later hlater
    cases hlater
  · cases hmore
    obtain ⟨echo, hadvance, hecho⟩ := advanceFully_of_idle hs hr hidle
    -- the round that follows is the same one in both statements
    rw [hnext] at hadvance
    cases hadvance
    obtain ⟨rounds, hrounds, hall, -⟩ := fullHistory_of_frozen (frozen_of_idle hs hr hidle) hecho
    rw [hrest] at hrounds
    cases hrounds
    exact fun later hlater => ⟨hr, hall later hlater⟩

/-- Both runs end alike, but for the number of steps. -/
theorem Prolongs.ends {run : Run} {given rounds : List Run} (h : Prolongs run given rounds) :
    ∃ a b, (run :: given).getLast? = some a ∧ (run :: rounds).getLast? = some b ∧
      b.state = { a.state with stepCount := b.state.stepCount } ∧ b.machines = a.machines := by
  induction h with
  | @ended run => exact ⟨run, run, rfl, rfl, rfl, rfl⟩
  | @idle run machines rounds last _ echoes ends lost =>
    -- the last of the further rounds repeats the idle one and is lost in the end
    have hlast := echoes last (List.mem_of_getLast? ends)
    refine ⟨⟨{ run.state with status := .lost }, machines⟩, last, rfl, ?_, ?_, hlast.machines⟩
    · rw [List.getLast?_cons, ends]
      rfl
    · rw [hlast.state, lost]
  | @round run next given rounds rest ih =>
    obtain ⟨a, b, ha, hb, hstate, hmachines⟩ := ih
    refine ⟨a, b, ?_, ?_, hstate, hmachines⟩
    · rw [List.getLast?_cons, ha]
      rfl
    · rw [List.getLast?_cons, hb]
      rfl

end Run

namespace Evaluation

open Run

/-! ## The climb

  The peak is the first highest score along the states.  `climbFrom` is the climb with what was collected
  before it, milestones and peak, so that it can be compared from any round on. -/

theorem merge_merge (m : Milestones) (s : Simulation.State) :
    (m.merge s).merge s = m.merge s := by
  simp [Milestones.merge, Milestones.union]

/-- An echo shows no milestone that its original does not. -/
theorem merge_echo {s : Simulation.State} {machines : List Machine} {run : Run} {m : Milestones}
    (he : Echo s machines run) : m.merge run.state = m.merge s := by
  rw [he.state]
  rfl

/-- An echo has the score of its original. -/
theorem score_echo {s : Simulation.State} {machines : List Machine} {run : Run}
    (hs : s.status ≠ .won) (he : Echo s machines run) (m : Milestones) :
    score run.state m = score s m := by
  have hrun := he.notWon
  unfold score
  rw [if_neg hs, if_neg hrun, he.state]
  rfl

/-- The peak after more states, given the milestones and the peak before them. -/
def climbFrom (m : Milestones) (peak : Peak) (states : List Simulation.State) : Peak :=
  ((List.zipWith score states (milestonesAlong m states)).zip states).foldl Peak.climb peak

/-- A state first adds its milestones and then is scored with them. -/
theorem climbFrom_cons (m : Milestones) (peak : Peak) (s : Simulation.State)
    (rest : List Simulation.State) : climbFrom m peak (s :: rest)
      = climbFrom (m.merge s) (peak.climb (score s (m.merge s), s)) rest := rfl

theorem climb_of_le {peak : Peak} {n : Nat} {s : Simulation.State} (h : n ≤ peak.score) :
    peak.climb (n, s) = peak := if_neg (Nat.not_lt.2 h)

theorem le_climb (peak : Peak) (n : Nat) (s : Simulation.State) :
    n ≤ (peak.climb (n, s)).score := by
  unfold Peak.climb
  split
  · exact Nat.le_refl n
  · omega

/-- Echoes raise neither the milestones nor the peak: each has the milestones and the score of the state
it echoes, and that one is among the states already. -/
theorem climbFrom_echoes {s : Simulation.State} {machines : List Machine} {m : Milestones}
    {peak : Peak} (hs : s.status ≠ .won) (hm : m.merge s = m) (hp : score s m ≤ peak.score) :
    ∀ {rounds : List Run}, (∀ r ∈ rounds, Echo s machines r) →
      climbFrom m peak (rounds.map Run.state) = peak ∧
        (rounds.map Run.state).foldl Milestones.merge m = m := by
  intro rounds
  induction rounds with
  | nil => intro _; exact ⟨rfl, rfl⟩
  | cons r rest ih =>
    intro hall
    obtain ⟨hr, hrest⟩ := List.forall_mem_cons.1 hall
    have hmerge : m.merge r.state = m := (merge_echo hr).trans hm
    have hclimb : peak.climb (score r.state m, r.state) = peak := by
      refine climb_of_le ?_
      rw [score_echo hs hr]
      exact hp
    rw [List.map_cons, climbFrom_cons, List.foldl_cons, hmerge, hclimb]
    exact ih hrest

/-- A run that prolongs another has the same peak and the same milestones. -/
theorem climbFrom_prolongs {run : Run} {given rounds : List Run} (h : Prolongs run given rounds) :
    ∀ {m : Milestones} {peak : Peak}, m.merge run.state = m → score run.state m ≤ peak.score →
      climbFrom m peak (rounds.map Run.state) = climbFrom m peak (given.map Run.state) ∧
        (rounds.map Run.state).foldl Milestones.merge m
          = (given.map Run.state).foldl Milestones.merge m := by
  induction h with
  | ended => intro m peak _ _; exact ⟨rfl, rfl⟩
  | @idle run machines rounds last running echoes _ _ =>
    intro m peak hm hp
    -- all rounds after the idle one score the same, so neither side climbs any more
    have hs : run.state.status ≠ .won := by
      rw [running]
      exact Simulation.Status.noConfusion
    obtain ⟨hpeak, hmilestones⟩ := climbFrom_echoes hs hm hp echoes
    obtain ⟨hpeak', hmilestones'⟩ := climbFrom_echoes hs hm hp
      (List.forall_mem_singleton.2 (echo_given_up run.state machines))
    exact ⟨hpeak.trans hpeak'.symm, hmilestones.trans hmilestones'.symm⟩
  | @round run next given rounds rest ih =>
    intro m peak _ _
    rw [List.map_cons, List.map_cons, climbFrom_cons, climbFrom_cons, List.foldl_cons,
      List.foldl_cons]
    -- both climb over the common round, and the peak is at least as high as it is
    exact ih (merge_merge m next.state) (le_climb peak _ next.state)

/-! ## Evaluation -/

/-- What every machine is started with when a program is evaluated from a state. -/
def setupOf (program : Program) (options : Options) (state : Simulation.State) : Run.Setup :=
  ⟨program, options.maxMachineSteps.getD state.maxSteps⟩

/-- The result of a program that went through these rounds from a state. -/
def resultOfHistory (options : Options) (state : Simulation.State) :
    Except Simulation.Fault (List Run) → Except Level.StartFault Result
  | .ok rounds => .ok (resultOf options rounds (rounds.getLast?.getD { state }))
  | .error fault => .error (.run fault)

/-- Runs a program on a level without ever giving up. -/
def evaluateFully (program : Program) (level : Level) (options : Options) :
    Except Level.StartFault Result := do
  let state ← level.start (options.maxTicks.getD Simulation.defaultMaxSteps)
  resultOfHistory options state (fullHistory (setupOf program options state) { state })

/-- An evaluation is the result of the history of its run, so the two evaluations differ in their
histories alone. -/
theorem evaluate_eq (program : Program) (level : Level) (options : Options) :
    evaluate program level options
      = level.start (options.maxTicks.getD Simulation.defaultMaxSteps) >>= fun state =>
        resultOfHistory options state (history (setupOf program options state) { state }) := rfl

/-- Two results that differ in the number of ticks and in the trace only. -/
structure Result.SameButTicks (r r' : Result) : Prop where
  /-- the level is solved or not -/
  solved : r'.solved = r.solved
  /-- the score, and the robots that have reached it -/
  peak : r'.peak = r.peak
  /-- what has been seen at least once -/
  milestones : r'.milestones = r.milestones
  /-- whether a machine was cut off -/
  stepLimitHit : r'.stepLimitHit = r.stepLimitHit
  /-- the last state, but for the number of steps -/
  final : r'.final = { r.final with stepCount := r'.final.stepCount }

/-- The results of two runs that part in an idle round: the peak and the milestones by the climb, the
final state by how both end. -/
theorem sameButTicks_of_prolongs {options : Options} {run : Run} {given rounds : List Run}
    (h : Prolongs run given rounds) : Result.SameButTicks
      (resultOf options (run :: given) ((run :: given).getLast?.getD run))
      (resultOf options (run :: rounds) ((run :: rounds).getLast?.getD run)) := by
  obtain ⟨a, b, ha, hb, hstate, hmachines⟩ := h.ends
  rw [ha, hb, Option.getD_some, Option.getD_some]
  let m : Milestones := Milestones.merge {} run.state
  let peak : Peak := ⟨score run.state m, run.state.robots⟩
  have hp : score run.state m ≤ peak.score := Nat.le_refl _
  obtain ⟨hpeak, hmilestones⟩ := climbFrom_prolongs h (merge_merge {} run.state) hp
  refine ⟨?_, hpeak, hmilestones, ?_, hstate⟩
  · show (b.state.status == .won) = (a.state.status == .won)
    rw [hstate]
  · show b.stepLimitHit = a.stepLimitHit
    unfold stepLimitHit
    rw [hmachines]

theorem settled_of_start {level : Level} {maxTicks : Int} {s : Simulation.State}
    (h : level.start maxTicks = .ok s) : Simulation.Settled s := by
  obtain ⟨grid, -, hs⟩ := Level.start_cases h
  exact Simulation.settled_start hs

/-- Either both evaluations fail with the same fault, or both go through with the same result. -/
theorem evaluations (program : Program) (level : Level) (options : Options) :
    (∃ fault, evaluate program level options = .error fault ∧
      evaluateFully program level options = .error fault) ∨
    ∃ r r', evaluate program level options = .ok r ∧ evaluateFully program level options = .ok r' ∧
      r.SameButTicks r' := by
  rw [evaluate_eq]
  unfold evaluateFully
  cases hstart : level.start (options.maxTicks.getD Simulation.defaultMaxSteps) with
  | error fault => exact Or.inl ⟨fault, rfl, rfl⟩
  | ok state =>
    show (∃ fault, resultOfHistory options state (history _ { state }) = .error fault ∧
        resultOfHistory options state (fullHistory _ { state }) = .error fault) ∨
      ∃ r r', resultOfHistory options state (history _ { state }) = .ok r ∧
        resultOfHistory options state (fullHistory _ { state }) = .ok r' ∧ r.SameButTicks r'
    have hs : Simulation.Settled (Run.mk state []).state := settled_of_start hstart
    -- both runs meet the same fault, or the full one prolongs the other
    rcases @histories (setupOf program options state) _ hs with
      ⟨fault, hgiven, hfull⟩ | ⟨given, rounds, hgiven, hfull, hrest⟩
    · rw [hgiven, hfull]
      exact Or.inl ⟨.run fault, rfl, rfl⟩
    · rw [hgiven, hfull]
      exact Or.inr ⟨_, _, rfl, rfl, sameButTicks_of_prolongs hrest⟩

/-- **Giving up early is sound.**  The evaluation that never gives up fails exactly if `evaluate` does, and
with the same fault; else the two results are the same but for the number of ticks and the trace.  So
it is in every run: from an idle round on, all states are that of the idle round but for the number of
steps and the status, none is won, and none has a higher score. -/
theorem evaluateFully_agrees (program : Program) (level : Level) (options : Options) :
    (∀ fault, evaluateFully program level options = .error fault ↔
      evaluate program level options = .error fault) ∧
    (∀ r, evaluate program level options = .ok r →
      ∃ r', evaluateFully program level options = .ok r' ∧ r.SameButTicks r') ∧
    ∀ state before run after,
      level.start (options.maxTicks.getD Simulation.defaultMaxSteps) = .ok state →
      fullHistory (setupOf program options state) { state } = .ok (before ++ run :: after) →
      run.idle (setupOf program options state) = true → ∀ later ∈ after,
        later.state = { run.state with
          stepCount := later.state.stepCount, status := later.state.status } ∧
        later.state.status ≠ .won ∧ ∀ m, score later.state m = score run.state m := by
  refine ⟨fun fault => ?_, fun r hr => ?_, ?_⟩
  · rcases evaluations program level options with ⟨f, hgiven, hfull⟩ | ⟨r, r', hgiven, hfull, -⟩
    · rw [hgiven, hfull]
    · rw [hgiven, hfull]
      -- neither of the two fails
      constructor
      · intro h
        cases h
      · intro h
        cases h
  · rcases evaluations program level options with
      ⟨f, hgiven, -⟩ | ⟨q, r', hgiven, hfull, hsame⟩
    · rw [hgiven] at hr
      cases hr
    · rw [hgiven] at hr
      cases hr
      exact ⟨r', hfull, hsame⟩
  · intro state before run after hstart hhistory hidle later hlater
    have hs : Simulation.Settled (Run.mk state []).state := settled_of_start hstart
    obtain ⟨hsettled, hrest⟩ := fullHistory_suffix hs hhistory
    -- a round that is idle is repeated by all that come after it
    obtain ⟨hr, hecho⟩ := echoes_of_idle hsettled hrest hidle later hlater
    refine ⟨hecho.state, hecho.notWon, score_echo (fun hwon => ?_) hecho⟩
    rw [hr] at hwon
    cases hwon

/-- One robot on the only cell, and two ticks. -/
def oneCell : Level :=
  { grid := [[0]], spawner := { pose := ⟨⟨0, 0⟩, 1⟩ }, maxTicks := some 2 }

/-- A program without nodes, which is idle from the first round on: the run that never gives up is lost
after two more ticks, and tells the same. -/
theorem evaluateFully_agrees_oneCell :
    ∃ r r', evaluate [] oneCell {} = .ok r ∧ evaluateFully [] oneCell {} = .ok r' ∧
      r.SameButTicks r' ∧ r'.final.stepCount = 2 := by
  have hsteps : ((evaluateFully [] oneCell {}).map fun r => r.final.stepCount).toOption = some 2 := by
    decide +kernel
  obtain ⟨hfault, hresult, -⟩ := evaluateFully_agrees [] oneCell {}
  cases hr : evaluate [] oneCell {} with
  | error fault =>
    rw [(hfault fault).2 hr] at hsteps
    cases hsteps
  | ok r =>
    obtain ⟨r', hr', hsame⟩ := hresult r hr
    rw [hr'] at hsteps
    exact ⟨r, r', rfl, hr', hsame, Option.some.inj hsteps⟩

end Evaluation

end RobotPuzzle
