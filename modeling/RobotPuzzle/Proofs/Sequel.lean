/-
  A program with a sequel, on a level for a single robot.

  1. **Frames below** — a move reads the top frame only, so frames pushed in below the stack stay where
     they are (`move_onto`).
  2. **Two machines** — the machine of a program and the machine of the program with a sequel do the same,
     call by call, until the first has come to its end (`call_lengthens`).
  3. **Alone** — with one robot and no raft, a program that has come to its end leaves nothing to happen,
     and the run is given up (`idle_of_done`).  So the run of the longer program goes through the same
     states up to there, and maybe through others behind (`histories_append`).
  4. **The climb** — giving up scores no more than the state before it did (`scoreAt_given_up`).  So
     whatever comes in its place, the peak is not lower (`evaluate_append`).

  The crux is that the sequel stands at the very bottom of the stack, and is reached only when all above
  it is done.  Up to there the machine of the longer program is the other machine with something laid
  underneath, and no move ever looks there.

  The two assumptions exclude what could go wrong.  With a second robot, or with a raft that carries the
  first one about, going on after the end can do harm: it can block others, or lead where the run would
  not have gone.  With one robot and no rafts, a run in which the program has ended is one in which
  nothing would happen any more.
-/
import RobotPuzzle.Proofs.Faultless
import RobotPuzzle.Proofs.Rechecks
import RobotPuzzle.Proofs.Report

namespace RobotPuzzle

namespace Machine

/-! ## Frames below

  A move takes the top frame and puts others in its place.  Everything else is handed on, so it may be
  anything. -/

/-- The move with more frames below. -/
def Move.onto (base : List Frame) : Move → Move
  | .next stack => .next (stack ++ base)
  | .leaf stack out => .leaf (stack ++ base) out

section Stack

variable {see : Condition → Bool} {steps : Nat} {program more : Program}

/-- Entering a node puts frames on top of what is below. -/
theorem enter_onto (see : Condition → Bool) (steps : Nat) (below base : List Frame) (node : Node) :
    enter see steps (below ++ base) node = (enter see steps below node).onto base := by
  cases node with
  | action action blockId => rfl
  | loop count body blockId =>
    simp only [enter, Move.onto]
    -- whether something is pushed does not depend on what is below
    split <;> rfl
  | loopUntil c body blockId =>
    simp only [enter, Move.onto]
    split <;> rfl
  | ifThen c body blockId =>
    simp only [enter, Move.onto]
    split <;> rfl
  | ifElse c body other blockId =>
    simp only [enter, Move.onto]
    split
    · split <;> rfl
    · split <;> rfl

/-- **A move reads the top frame only.** -/
theorem move_onto (see : Condition → Bool) (steps : Nat) (below base : List Frame) (top : Frame) :
    move see steps (below ++ base) top = (move see steps below top).onto base := by
  cases top with
  | block body index =>
    simp only [move]
    split
    · rfl
    · -- only entering a node pushes something
      exact enter_onto see steps (_ :: below) base _
  | loop body index remaining =>
    simp only [move]
    split
    · rfl
    · split
      · simp only [Move.onto]
        split <;> rfl
      · exact enter_onto see steps (_ :: below) base _
  | loopUntil c body blockId index mark =>
    simp only [move]
    split
    · split
      · rfl
      · split <;> rfl
    · exact enter_onto see steps (_ :: below) base _

/-! ## Two machines

  The relation between the two stacks is about the frame at the bottom, which both have at the same index.
  It ends when that index has come to the end of the shorter program. -/

/-- Two stacks that differ in the frame at the bottom only, where more is to be run. -/
def Underlaid (program more : Program) (stack stack' : List Frame) : Prop :=
  ∃ above index, index ≤ program.length ∧ stack = above ++ [.block program index] ∧
    stack' = above ++ [.block (program ++ more) index]

/-- A move leaves such stacks, and the same leaf, unless it ends the program. -/
theorem move_underlaid {top : Frame} {below stack' : List Frame}
    (h : Underlaid program more (top :: below) stack') :
    move see steps below top = .next [] ∨
      ∃ top' below' index, ∃ m : Move, stack' = top' :: below' ∧ index ≤ program.length ∧
        move see steps below top = m.onto [.block program index] ∧
        move see steps below' top' = m.onto [.block (program ++ more) index] := by
  obtain ⟨above, index, hindex, hstack, rfl⟩ := h
  cases above with
  | cons frame above =>
    -- a frame above the program: the move does not reach the program
    cases hstack
    exact Or.inr ⟨top, _, index, move see steps above top, rfl, hindex, move_onto .., move_onto ..⟩
  | nil =>
    cases hstack
    -- the program itself: at its end there is nothing to do, but the longer one goes on
    cases hnode : program[index]? with
    | none =>
      left
      rw [move, hnode]
    | some node =>
      have hlt : index < program.length := (List.getElem?_eq_some_iff.1 hnode).1
      have hnode' : (program ++ more)[index]? = some node := by
        rw [List.getElem?_append_left hlt, hnode]
      refine Or.inr ⟨_, [], index + 1, enter see steps [] node, rfl, hlt, ?_, ?_⟩
      · rw [move, hnode]
        exact enter_onto see steps [] _ node
      · rw [move, hnode']
        exact enter_onto see steps [] _ node

/-- Moves that come to a leaf come to the same leaf if the program has a sequel. -/
theorem run_underlaid {stack later : List Frame} {leaf : Leaf} :
    ∀ {stack' : List Frame}, Underlaid program more stack stack' →
      run see steps stack = .leaf later leaf →
      ∃ later', run see steps stack' = .leaf later' leaf ∧ Underlaid program more later later' := by
  fun_induction run see steps stack with
  | case1 =>
    intro stack' _ hrun
    cases hrun
  | case2 top below stack other hmove =>
    intro stack' h hrun
    cases hrun
    rcases move_underlaid h with hend | ⟨top', below', index, m, rfl, hindex, hm, hm'⟩
    · rw [hmove] at hend
      cases hend
    · rw [hmove] at hm
      cases m with
      | next above => cases hm
      | leaf above out =>
        cases hm
        exact ⟨_, run_of_leaf hm', above, index, hindex, rfl, rfl⟩
  | case3 top below stack hmove _ ih =>
    intro stack' h hrun
    rcases move_underlaid h with hend | ⟨top', below', index, m, rfl, hindex, hm, hm'⟩
    · -- the program is at its end
      rw [hmove] at hend
      cases hend
      rw [run] at hrun
      cases hrun
    · rw [hmove] at hm
      cases m with
      | leaf above out => cases hm
      | next above =>
        cases hm
        obtain ⟨later', hlater, hunder⟩ := ih ⟨above, index, hindex, rfl, rfl⟩ hrun
        exact ⟨later', (run_of_next hm').trans hlater, hunder⟩

end Stack

/-- Two machines that differ in the bottom of their stacks only, where more is to be run. -/
def Lengthens (program more : Program) (m m' : Machine) : Prop :=
  ∃ stack, Underlaid program more m.stack stack ∧ m' = { m with stack }

section Call

variable {program more : Program} {m m' : Machine}

theorem lengthens_create (program more : Program) (maxSteps : Int) :
    Lengthens program more (create program maxSteps) (create (program ++ more) maxSteps) :=
  ⟨_, ⟨[], 0, Nat.zero_le _, rfl, rfl⟩, rfl⟩

/-- **Call by call** the two machines do the same, until the first has come to its end. -/
theorem call_lengthens (h : Lengthens program more m m') (see : Condition → Bool)
    (hgoing : (m.call see).1.status ≠ .done) :
    (m'.call see).2 = (m.call see).2 ∧ Lengthens program more (m.call see).1 (m'.call see).1 := by
  obtain ⟨stack', hunder, rfl⟩ := h
  rcases call_outcomes m see with
    ⟨hr, hcall⟩ | ⟨-, -, hcall⟩ | ⟨hr, stack, leaf, hrun, hcall⟩
  · -- both have stopped before, with the same status
    have hcall' := call_of_not_running (m := { m with stack := stack' }) hr see
    rw [hcall, hcall']
    exact ⟨rfl, stack', hunder, rfl⟩
  · rw [hcall] at hgoing
    -- a program at its end is what is excluded
    exact absurd rfl hgoing
  · obtain ⟨later, hlater, hunder'⟩ := run_underlaid hunder hrun
    rcases hcall with ⟨hlt, hcall⟩ | ⟨hle, hcall⟩
    · have hcall' := call_of_lt (m := { m with stack := stack' }) hr hlater hlt
      rw [hcall, hcall']
      exact ⟨rfl, later, hunder', rfl⟩
    · have hcall' := call_of_le (m := { m with stack := stack' }) hr hlater hle
      rw [hcall, hcall']
      exact ⟨rfl, later, hunder', rfl⟩

/-- A call after which the machine is at its end hands out nothing. -/
theorem call_of_done {see : Condition → Bool} (h : (m.call see).1.status = .done) :
    (m.call see).2 = none := by
  rcases call_outcomes m see with
    ⟨-, hcall⟩ | ⟨-, -, hcall⟩ | ⟨hr, stack, leaf, -, ⟨-, hcall⟩ | ⟨-, hcall⟩⟩
  · rw [hcall]
  · rw [hcall]
  · rw [hcall] at h
    cases hr.symm.trans h
  · rw [hcall]

end Call

end Machine

namespace Run

/-! ## Alone

  With more than one robot a machine at its end would not end the run, as others go on; with a raft,
  waiting for it would be something to do.  That is why both are excluded. -/

section Round

variable {program more : Program} {s : Simulation.State} {r : Robot} {m m' : Machine}

/-- A robot is told the same by both machines, until the first has come to its end. -/
theorem askOne_lengthens (h : m.Lengthens program more m') (hgoing : (askOne s r m).1.status ≠ .done) :
    (askOne s r m').2 = (askOne s r m).2 ∧
      (askOne s r m).1.Lengthens program more (askOne s r m').1 := by
  unfold askOne at hgoing ⊢
  split
  · rename_i hb
    rw [if_pos hb] at hgoing
    exact Machine.call_lengthens h _ hgoing
  · exact ⟨rfl, h⟩

/-- A machine at its end tells its robot nothing. -/
theorem askOne_of_done (h : (askOne s r m).1.status = .done) : (askOne s r m).2 = none := by
  unfold askOne at h ⊢
  split
  · rename_i hb
    rw [if_pos hb] at h
    exact Machine.call_of_done h
  · rfl

/-- As long as no program has come to its end, the robots are handed out the same. -/
theorem ask_lengthens (limit : Int) (s : Simulation.State) :
    ∀ (robots : List Robot) {machines machines' : List Machine},
      List.Forall₂ (Machine.Lengthens program more) machines machines' →
      (∀ m ∈ (ask ⟨program, limit⟩ s robots machines).map Prod.fst, m.status ≠ .done) →
      (ask ⟨program ++ more, limit⟩ s robots machines').map Prod.snd
          = (ask ⟨program, limit⟩ s robots machines).map Prod.snd ∧
        List.Forall₂ (Machine.Lengthens program more)
          ((ask ⟨program, limit⟩ s robots machines).map Prod.fst)
          ((ask ⟨program ++ more, limit⟩ s robots machines').map Prod.fst) := by
  intro robots
  induction robots with
  | nil => exact fun _ _ => ⟨rfl, .nil⟩
  | cons r rest ih =>
    intro machines machines' hmachines hgoing
    -- a robot that has no machine yet is given a new one on both sides
    have hfirst : Machine.Lengthens program more
        (machines.head?.getD (Machine.create program limit))
        (machines'.head?.getD (Machine.create (program ++ more) limit)) := by
      cases hmachines with
      | nil => exact Machine.lengthens_create program more limit
      | cons hone _ => exact hone
    have htail : List.Forall₂ (Machine.Lengthens program more) machines.tail machines'.tail := by
      cases hmachines with
      | nil => exact .nil
      | cons _ hrest => exact hrest
    obtain ⟨hgoing, hgoing'⟩ := List.forall_mem_cons.1 hgoing
    obtain ⟨horder, hone⟩ := askOne_lengthens hfirst hgoing
    obtain ⟨horders, hothers⟩ := ih htail hgoing'
    exact ⟨congrArg₂ List.cons horder horders, .cons hone hothers⟩

end Round

end Run

namespace Simulation

/-- At most one robot, nobody to enter, and no raft. -/
structure Solo (s : State) : Prop where
  /-- nobody can be in the way of the one robot -/
  single : s.robots.length ≤ 1
  /-- no machine will be added -/
  entered : s.spawner.count ≤ s.spawnedCount
  /-- nothing moves but the robot -/
  ashore : s.rafts = []

/-- A tick of such a state goes through and leads to such a state. -/
theorem solo_tick {s : State} (hs : Solo s) (actions : List (Option Action)) :
    ∃ t, tick s actions = .ok t ∧ Solo t := by
  by_cases hr : s.status = .running
  · have hspawn := spawnPhase_of_complete hs.entered
    have hferry : ferry s.grid
        (actedRobots s ⟨s.robots, s.spawnedCount, s.nextSpawnTick⟩ actions).1 s.rafts s.jetties
          = .ok (s.grid, (actedRobots s ⟨s.robots, s.spawnedCount, s.nextSpawnTick⟩ actions).1, []) := by
      rw [hs.ashore]
      exact ferry_nil _ _ _
    refine ⟨_, tick_of_phases hr hspawn hferry, ?_, hs.entered, rfl⟩
    show ((actedRobots s _ actions).1.map _).length ≤ 1
    rw [List.length_map, actedRobots, actPhase_length]
    exact hs.single
  · exact ⟨s, tick_of_not_running hr actions, hs⟩

theorem solo_given_up {s : State} (hs : Solo s) : Solo { s with status := .lost } :=
  ⟨hs.single, hs.entered, hs.ashore⟩

theorem solo_tickOrGiveUp {s : State} (hs : Solo s) (actions : List (Option Action)) :
    ∃ t, tickOrGiveUp s actions = .ok t ∧ Solo t := by
  unfold tickOrGiveUp
  split
  · exact ⟨_, rfl, solo_given_up hs⟩
  · exact solo_tick hs actions

end Simulation

/-- A board of numbers has no tile of a kind whose number it does not have. -/
theorem Grid.cellsOf_eq_nil {ids : List (List Int)} {g : Grid} {t : Tile} (h : Grid.ofIds ids = .ok g)
    (hnone : ∀ row ∈ ids, t.id ∉ row) : g.cellsOf (· == t) = [] := by
  refine List.eq_nil_iff_forall_not_mem.2 fun c hc => ?_
  have hstored := Grid.mem_tiles.1 hc
  rw [Grid.storedIn] at hstored
  split at hstored
  · obtain ⟨row, hrow, htile⟩ := Option.bind_eq_some_iff.1 hstored
    rw [Grid.ofIds_eq] at h
    split at h
    · cases h
    · cases h
      obtain ⟨numbers, hnumbers, rfl⟩ := List.mem_map.1 (List.mem_of_getElem? hrow)
      obtain ⟨n, hn, hid⟩ := List.mem_filterMap.1 (List.mem_of_getElem? htile)
      exact hnone numbers hnumbers (Tile.id_of_ofId? hid ▸ hn)
  · cases hstored

/-- No tile of the level is a raft. -/
def Level.Raftless (level : Level) : Prop := ∀ row ∈ level.grid, Tile.raft.id ∉ row

instance (level : Level) : Decidable level.Raftless :=
  inferInstanceAs (Decidable (∀ row ∈ level.grid, Tile.raft.id ∉ row))

/-- A level for at most one robot and without rafts starts so. -/
theorem Simulation.solo_of_start {level : Level} {maxTicks : Int} {s : State}
    (hsingle : level.spawner.count ≤ 1) (hashore : level.Raftless)
    (h : level.start maxTicks = .ok s) : Solo s := by
  obtain ⟨grid, hgrid, hs⟩ := Level.start_cases h
  obtain ⟨entered, hstarted⟩ := start_cases hs
  have hcount : (initialCount level.spawner : Int) = max level.spawner.count 0 := by
    obtain ⟨hge, hle, -⟩ := initialCount_bounds level.spawner
    omega
  -- the one robot that there is to be is there at the start
  rw [hstarted.state]
  refine ⟨?_, ?_, ?_⟩
  · show (entered.map _).length ≤ 1
    rw [List.length_map, enterMany_length hstarted.enter]
    omega
  · show level.spawner.count ≤ initialCount level.spawner
    omega
  · show initialRafts grid _ = []
    rw [initialRafts, Grid.cellsOf_eq_nil hgrid hashore]
    rfl

namespace Run

variable {program more : Program} {limit : Int} {run run' : Run}

/-- **A single program at its end** leaves the round idle. -/
theorem idle_of_done {setup : Setup} (hs : Simulation.Solo run.state)
    (hdone : ∃ m ∈ (run.asked setup).map Prod.fst, m.status = .done) : run.idle setup = true := by
  refine Simulation.isIdle_iff.2 ⟨?_, hs.entered, by rw [hs.ashore]; rfl⟩
  have hsingle := hs.single
  obtain ⟨m, hm, hdone⟩ := hdone
  unfold orders
  unfold asked at hm ⊢
  match hrobots : run.state.robots, hsingle with
  | [], _ => rfl
  | [r], _ =>
    rw [hrobots] at hm
    obtain rfl := List.mem_singleton.1 hm
    show [(askOne run.state r _).2].all Option.isNone = true
    rw [askOne_of_done hdone]
    rfl

/-! ## Two runs

  Both runs are gone through together, by induction on the ticks that are left to the first. -/

/-- Two rounds in the same state, the machines of the second with more to run. -/
structure Alike (program more : Program) (run run' : Run) : Prop where
  /-- the boards agree in everything -/
  state : run'.state = run.state
  /-- robot by robot, the second machine is at the same place of a longer program -/
  machines : List.Forall₂ (Machine.Lengthens program more) run.machines run'.machines

theorem advance_of_tickOrGiveUp {setup : Setup} {t : Simulation.State}
    (h : Simulation.tickOrGiveUp run.state (run.orders setup) = .ok t) :
    run.advance setup = .ok ⟨t, (run.asked setup).map Prod.fst⟩ := by
  show (Simulation.tickOrGiveUp run.state (run.orders setup) >>= _) = _
  rw [h]
  rfl

/-- As long as the program has not come to its end, the next rounds are alike as well. -/
theorem advance_alike (hs : Simulation.Solo run.state) (h : Alike program more run run')
    (hgoing : ∀ m ∈ (run.asked ⟨program, limit⟩).map Prod.fst, m.status ≠ .done) :
    ∃ next next', run.advance ⟨program, limit⟩ = .ok next ∧
      run'.advance ⟨program ++ more, limit⟩ = .ok next' ∧ Alike program more next next' ∧
      Simulation.Solo next.state := by
  obtain ⟨horders, hmachines⟩ := ask_lengthens limit run.state run.state.robots h.machines hgoing
  obtain ⟨t, ht, hsolo⟩ := Simulation.solo_tickOrGiveUp hs (run.orders ⟨program, limit⟩)
  have hasked : run'.asked ⟨program ++ more, limit⟩
      = ask ⟨program ++ more, limit⟩ run.state run.state.robots run'.machines := by
    rw [asked, h.state]
  have ht' : Simulation.tickOrGiveUp run'.state (run'.orders ⟨program ++ more, limit⟩) = .ok t := by
    rw [orders, hasked, horders, h.state]
    exact ht
  rw [← hasked] at hmachines
  exact ⟨_, _, advance_of_tickOrGiveUp ht, advance_of_tickOrGiveUp ht', ⟨rfl, hmachines⟩, hsolo⟩

/-- How the rounds of a program and those with a sequel compare. -/
inductive Outlasts (rounds rounds' : List Run) : Prop
  /-- they go through the same states -/
  | same (states : rounds'.map Run.state = rounds.map Run.state)
  /-- the program comes to its end and the run is given up; with the sequel it goes on from there -/
  | longer {before later : List Run} {run : Run} {machines : List Machine}
      (running : run.state.status = .running) (done : ∃ m ∈ machines, m.status = .done)
      (rounds : rounds = before ++ [run] ++ [⟨{ run.state with status := .lost }, machines⟩])
      (states : rounds'.map Run.state = (before ++ [run] ++ later).map Run.state)

/-- A round in the same state may be put in front. -/
theorem Outlasts.cons {rounds rounds' : List Run} (hstate : run'.state = run.state)
    (h : Outlasts rounds rounds') : Outlasts (run :: rounds) (run' :: rounds') := by
  cases h with
  | same states => exact .same (congrArg₂ List.cons hstate states)
  | @longer before later last machines running done hrounds states =>
    have hsplit : run :: rounds
        = run :: before ++ [last] ++ [⟨{ last.state with status := .lost }, machines⟩] := by
      rw [hrounds]
      rfl
    have hstates : (run' :: rounds').map Run.state
        = (run :: before ++ [last] ++ later).map Run.state := congrArg₂ List.cons hstate states
    exact .longer running done hsplit hstates

/-- **The two runs** both go through, and the one with the sequel outlasts the other. -/
theorem histories_append : ∀ {run run' : Run}, Simulation.Solo run.state →
    Alike program more run run' → ∃ rounds rounds', history ⟨program, limit⟩ run = .ok rounds ∧
      history ⟨program ++ more, limit⟩ run' = .ok rounds' ∧ Outlasts rounds rounds' := by
  intro run
  induction hn : run.ticksLeft using Nat.strongRecOn generalizing run with
  | ind n ih =>
    intro run' hs h
    by_cases hr : run.state.status = .running
    · have hr' : run'.state.status = .running := by rw [h.state, hr]
      by_cases hdone : ∃ m ∈ (run.asked ⟨program, limit⟩).map Prod.fst, m.status = .done
      · -- the program is at its end, and the run is given up
        have hs' : Simulation.Solo run'.state := h.state ▸ hs
        obtain ⟨rounds', hrounds'⟩ := history_ok Simulation.solo_tick Simulation.solo_given_up
          ⟨program ++ more, limit⟩ run' hs'
        obtain ⟨later, rfl⟩ := List.head?_eq_some_iff.1 (rounds_of_history hrounds').first
        have hstates : (run' :: later).map Run.state = ([] ++ [run] ++ later).map Run.state :=
          congrArg₂ List.cons h.state rfl
        have hrounds := history_cons hr (advance_of_idle (idle_of_done hs hdone))
          (history_of_over Simulation.Status.noConfusion)
        exact ⟨_, _, hrounds, hrounds', .longer hr hdone rfl hstates⟩
      · -- both runs make the same round
        have hgoing : ∀ m ∈ (run.asked ⟨program, limit⟩).map Prod.fst, m.status ≠ .done :=
          fun m hm hend => hdone ⟨m, hm, hend⟩
        obtain ⟨next, next', hnext, hnext', halike, hsolo⟩ := advance_alike hs h hgoing
        obtain ⟨rounds, rounds', hrounds, hrounds', hlasts⟩ :=
          ih _ (hn ▸ advance_ticksLeft hr hnext) rfl hsolo halike
        exact ⟨run :: rounds, run' :: rounds', history_cons hr hnext hrounds,
          history_cons hr' hnext' hrounds', hlasts.cons h.state⟩
    · have hr' : run'.state.status ≠ .running := by rwa [h.state]
      exact ⟨[run], [run'], history_of_over hr, history_of_over hr',
        .same (congrArg₂ List.cons h.state rfl)⟩

/-- The rounds are in the same states, one by one, until a machine of the first has come to its end. -/
def SameUntilDone (rounds rounds' : List Run) : Prop :=
  ∀ (i : Nat) (run : Run), rounds[i]? = some run → (∀ m ∈ run.machines, m.status ≠ .done) →
    ∃ run', rounds'[i]? = some run' ∧ run'.state = run.state

/-- Runs that compare so are in the same states until the program has come to its end. -/
theorem Outlasts.sameUntilDone {rounds rounds' : List Run} (h : Outlasts rounds rounds') :
    SameUntilDone rounds rounds' := by
  intro i run hi hgoing
  have hstate : (rounds.map Run.state)[i]? = some run.state := by
    rw [List.getElem?_map, hi]
    rfl
  have hstate' : (rounds'.map Run.state)[i]? = some run.state := by
    cases h with
    | same states => rw [states, hstate]
    | @longer before later last machines running done hrounds states =>
      subst hrounds
      rcases Nat.lt_or_ge i (before ++ [last]).length with hlt | hge
      · rw [List.map_append, List.getElem?_append_left (by rwa [List.length_map])] at hstate
        rw [states, List.map_append, List.getElem?_append_left (by rwa [List.length_map]), hstate]
      · -- it is the round in which the run is given up
        rw [List.getElem?_append_right hge, List.getElem?_singleton] at hi
        split at hi
        · cases hi
          obtain ⟨m, hm, hend⟩ := done
          exact absurd hend (hgoing m hm)
        · cases hi
  rw [List.getElem?_map] at hstate'
  exact Option.map_eq_some_iff.1 hstate'

/-- A program that has won wins with a sequel. -/
theorem Outlasts.won {before before' : List Run} {last last' : Run}
    (h : Outlasts (before ++ [last]) (before' ++ [last'])) (hwon : last.state.status = .won) :
    last'.state.status = .won := by
  cases h with
  | same states =>
    rw [List.map_append, List.map_append] at states
    have hlast : [last'.state] = [last.state] := (List.append_inj' states rfl).2
    rw [List.singleton_inj.1 hlast]
    exact hwon
  | @longer early later run machines running done hrounds states =>
    have hlast := List.singleton_inj.1 (List.append_inj' hrounds rfl).2
    rw [hlast] at hwon
    cases hwon

end Run

namespace Evaluation

open Run

/-! ## The climb

  A peak is found at one of the states, and a state that both runs have scores the same in both, as the
  milestones up to it are the same. -/

theorem scoreAt_append_left {states later : List Simulation.State} {i : Nat} (h : i < states.length) :
    scoreAt (states ++ later) i = scoreAt states i := by
  rw [scoreAt, scoreAt, List.getElem?_append_left h, List.take_append_of_le_length h]

theorem scoreAt_concat (states : List Simulation.State) (s : Simulation.State) :
    scoreAt (states ++ [s]) states.length
      = some (score s ((states.foldl Milestones.merge {}).merge s)) := by
  rw [scoreAt_of_getElem? List.getElem?_concat_length, List.take_of_length_le, List.foldl_append]
  · rfl
  · rw [List.length_append]
    exact Nat.le_refl _

/-- **Giving up** scores what the state before it did. -/
theorem scoreAt_given_up (states : List Simulation.State) {s : Simulation.State}
    (hs : s.status ≠ .won) :
    scoreAt (states ++ [s] ++ [{ s with status := .lost }]) (states.length + 1)
      = scoreAt (states ++ [s]) states.length := by
  have hecho := echo_given_up s []
  have hlength : states.length + 1 = (states ++ [s]).length := by
    rw [List.length_append, List.length_singleton]
  have hmerge := merge_echo (m := (states ++ [s]).foldl Milestones.merge {}) hecho
  rw [hlength, scoreAt_concat, scoreAt_concat, hmerge, score_echo hs hecho, List.foldl_append]
  exact congrArg (fun m => some (score s m)) (merge_merge _ s)

/-- Every score of the one run is a score of the run that outlasts it. -/
theorem scoreAt_outlasts {rounds rounds' : List Run} (h : Outlasts rounds rounds') {i n : Nat}
    (hn : scoreAt (rounds.map Run.state) i = some n) :
    ∃ j, scoreAt (rounds'.map Run.state) j = some n := by
  cases h with
  | same states => exact ⟨i, states ▸ hn⟩
  | @longer before later run machines running done hrounds states =>
    have hopen : run.state.status ≠ .won := by
      rw [running]
      exact Simulation.Status.noConfusion
    have hsplit : rounds.map Run.state
        = before.map Run.state ++ [run.state] ++ [{ run.state with status := .lost }] := by
      rw [hrounds, List.map_append, List.map_append]
      rfl
    have hsplit' : rounds'.map Run.state
        = before.map Run.state ++ [run.state] ++ later.map Run.state := by
      rw [states, List.map_append, List.map_append]
      rfl
    have hlength : (before.map Run.state ++ [run.state]).length = (before.map Run.state).length + 1 :=
      List.length_append
    rw [hsplit] at hn
    rw [hsplit']
    rcases Nat.lt_or_ge i (before.map Run.state ++ [run.state]).length with hlt | hge
    · rw [scoreAt_append_left hlt] at hn
      exact ⟨i, by rw [scoreAt_append_left hlt, hn]⟩
    · -- the state in which the run is given up
      obtain ⟨s, hs, -⟩ := Option.map_eq_some_iff.1 hn
      have hi := (List.getElem?_eq_some_iff.1 hs).1
      rw [List.length_append, List.length_singleton] at hi
      obtain rfl : i = (before.map Run.state).length + 1 := by omega
      rw [scoreAt_given_up _ hopen] at hn
      exact ⟨(before.map Run.state).length, by rw [scoreAt_append_left (by omega), hn]⟩

/-- **The peak** of the run that outlasts the other is not lower. -/
theorem score_le_of_outlasts {rounds rounds' : List Run} (h : Outlasts rounds rounds')
    {peak peak' : Peak} {i j : Nat} (hpeak : IsPeak (rounds.map Run.state) peak i)
    (hpeak' : IsPeak (rounds'.map Run.state) peak' j) : peak.score ≤ peak'.score := by
  obtain ⟨k, hk⟩ := scoreAt_outlasts h hpeak.score
  exact hpeak'.highest k _ hk

/-! ## Evaluation -/

/-- **A sequel does no harm.**  On a level for at most one robot and without rafts a program with a
sequel, of one node or of many, fails to be evaluated exactly if the program does, and with the same
fault.  Else it scores at least as much, and solves the level if the program does: the two runs go through
the same states until the program has come to its end. -/
theorem evaluate_append (program more : Program) {level : Level} (options : Options)
    (hsingle : level.spawner.count ≤ 1) (hashore : level.Raftless) :
    (∀ fault, evaluate (program ++ more) level options = .error fault ↔
      evaluate program level options = .error fault) ∧
    ∀ r, evaluate program level options = .ok r →
      ∃ r', evaluate (program ++ more) level options = .ok r' ∧ r.score ≤ r'.score ∧
        (r.solved = true → r'.solved = true) ∧
        ∃ state rounds rounds',
          level.start (options.maxTicks.getD Simulation.defaultMaxSteps) = .ok state ∧
          Run.history (setupOf program options state) { state } = .ok rounds ∧
          Run.history (setupOf (program ++ more) options state) { state } = .ok rounds' ∧
          SameUntilDone rounds rounds' := by
  cases hstart : level.start (options.maxTicks.getD Simulation.defaultMaxSteps) with
  | error fault =>
    rw [evaluate_eq, evaluate_eq, hstart]
    exact ⟨fun _ => Iff.rfl, fun r hr => (nomatch hr)⟩
  | ok state =>
    have halike : Alike program more { state } { state } := ⟨rfl, .nil⟩
    obtain ⟨rounds, rounds', hrounds, hrounds', hlasts⟩ :=
      @histories_append program more (setupOf program options state).maxSteps _ _
        (Simulation.solo_of_start hsingle hashore hstart) halike
    -- both runs have a peak; the longer one is as good as the other as long as that lasts
    obtain ⟨before, last, rfl, -, -⟩ := history_ends hrounds
    obtain ⟨before', last', rfl, -, -⟩ := history_ends hrounds'
    have hquoted := quoted_of_start hstart
    obtain ⟨i, hpeak⟩ := (reports_resultOf options hrounds hquoted).peak
    obtain ⟨j, hpeak'⟩ := (reports_resultOf options hrounds' hquoted).peak
    rw [evaluate_of_history program hstart hrounds, evaluate_of_history (program ++ more) hstart hrounds']
    refine ⟨fun fault => ⟨fun h => (nomatch h), fun h => (nomatch h)⟩, fun r hr => ?_⟩
    cases hr
    refine ⟨_, rfl, score_le_of_outlasts hlasts hpeak hpeak', fun hsolved => ?_, state, _, _, rfl,
      hrounds, hrounds', hlasts.sameUntilDone⟩
    exact solved_iff.2 (hlasts.won (solved_iff.1 hsolved))

/-- One step short of the exit, then at the exit, then with a step too many. -/
theorem evaluate_append_threeSteps :
    threeSteps.spawner.count ≤ 1 ∧ threeSteps.Raftless ∧
    ∃ r r' r'', evaluate twoSteps threeSteps {} = .ok r ∧ r.solved = false ∧
      evaluate (twoSteps ++ [.act .moveForward]) threeSteps {} = .ok r' ∧ r'.solved = true ∧
      evaluate (twoSteps ++ [.act .moveForward] ++ [.act .moveForward]) threeSteps {} = .ok r'' ∧
      r''.solved = true ∧ r.score ≤ r'.score ∧ r'.score ≤ r''.score := by
  have hsingle : threeSteps.spawner.count ≤ 1 := by decide
  have hashore : threeSteps.Raftless := by decide
  obtain ⟨r, h, hs⟩ := exists_of_evaluate_eq
    (show ((evaluate twoSteps threeSteps {}).map Result.solved).toOption = some false by
      decide +kernel)
  obtain ⟨r', h', hs'⟩ := exists_of_evaluate_eq
    (show ((evaluate (twoSteps ++ [.act .moveForward]) threeSteps {}).map Result.solved).toOption
      = some true by decide +kernel)
  obtain ⟨q, hq, hle, -, -⟩ :=
    (evaluate_append twoSteps [.act .moveForward] {} hsingle hashore).2 r h
  cases h'.symm.trans hq
  obtain ⟨r'', h'', hle', hsolved, -⟩ :=
    (evaluate_append (twoSteps ++ [.act .moveForward]) [.act .moveForward] {} hsingle hashore).2 r' h'
  exact ⟨hsingle, hashore, r, r', r'', h, hs, h', hs', h'', hsolved hs', hle, hle'⟩

/-- A raft takes a robot along that stands still, and not one that steps off: there a sequel does harm. -/
example :
    let landing : Level := { grid := [[0, 8, 7, 6, 2]], spawner := { pose := ⟨⟨0, 0⟩, 1⟩ } }
    ((evaluate twoSteps landing {}).map Result.score).toOption = some 148 ∧
      ((evaluate (twoSteps ++ [.act .moveForward]) landing {}).map Result.score).toOption = some 147 := by
  decide +kernel

end Evaluation

end RobotPuzzle
