/-
  What an evaluation reports of its run.

  1. **Rounds** — a run begins with its first round, goes on from each round to the next while the run is
     running, and ends when it is over (`rounds_of_history`, `history_of_rounds`).  What is handed on from
     round to round, with the rounds before it, holds of all of them (`history_traces`).
  2. **How many** — a round that is running has counted every round before it, and is below the limit
     unless it is the first; so there are at most `max 1 maxSteps` rounds after the first
     (`rounds_length_le`).
  3. **The trace** — what is captured state by state is what a filter picks from the whole list of states
     (`ofStates_frames`): the first state, every state whose number is a multiple of the interval, and
     the last, in order and none twice (`sampled_ofStates`).
  4. **The report** puts these together with the peak, for every program and every level
     (`evaluate_reports`).

  The crux is that all that is reported can be said of the list of states alone.  How a run makes them is
  needed for their number, and for what holds in each of them; the peak, the milestones and the trace are
  folds over the list.

  `Rounds` is a run told as a list: where it begins, that each round follows from the one before, and that
  it is over at the last.  All that is reported is then a function of the states of that list, and
  `Reports` says which: the status, the quota, the peak, the milestones and the trace.  The trace is made
  step by step as the states come; its closed form is what a reader of the trace can rely on.
-/
import Mathlib.Data.List.Chain
import RobotPuzzle.Proofs.Appraisal

namespace RobotPuzzle

namespace Run

/-! ## Rounds

  A run is defined by recursion, and is looked at here as a list in which each round leads to the next
  one.  Both say the same, so either may be used. -/

/-- The rounds of a run: the first one, then what each leads to as long as the run is running, and at the
end one that is over. -/
structure Rounds (setup : Setup) (run : Run) (rounds : List Run) : Prop where
  /-- the list begins with the given round -/
  first : rounds.head? = some run
  /-- each round is the advance of the one before it, which was running -/
  onward : rounds.IsChain fun a b => a.state.status = .running ∧ a.advance setup = .ok b
  /-- and the list stops at a round that is over -/
  ended : ∀ last, rounds.getLast? = some last → last.state.status ≠ .running

section Rounds

variable {setup : Setup}

/-- The history of a run begins, goes on and ends as a run does. -/
theorem rounds_of_history : ∀ {rounds : List Run} {run : Run}, history setup run = .ok rounds →
    Rounds setup run rounds := by
  intro rounds
  induction rounds with
  | nil =>
    intro run h
    rcases history_cases h with ⟨-, hone⟩ | ⟨-, next, others, -, -, hmore⟩
    · cases hone
    · cases hmore
  | cons first rest ih =>
    intro run h
    rcases history_cases h with ⟨hover, hone⟩ | ⟨hrun, next, others, hnext, hothers, hmore⟩
    · -- the run is over: this round is the first and the last
      cases hone
      refine ⟨rfl, .singleton first, fun last hlast => ?_⟩
      cases hlast
      exact hover
    · cases hmore
      -- the run goes on from the next round, with which the others begin
      have hrest := ih hothers
      obtain ⟨others', rfl⟩ : ∃ others', rest = next :: others' :=
        List.head?_eq_some_iff.1 hrest.first
      refine ⟨rfl, .cons_cons ⟨hrun, hnext⟩ hrest.onward, fun last hlast => ?_⟩
      rw [List.getLast?_cons_cons] at hlast
      exact hrest.ended last hlast

/-- The other way round, a list that begins, goes on and ends as a run does is the history of the run. -/
theorem history_of_rounds : ∀ {rounds : List Run} {run : Run}, Rounds setup run rounds →
    history setup run = .ok rounds := by
  intro rounds
  induction rounds with
  | nil =>
    intro run h
    cases h.first
  | cons first rest ih =>
    intro run h
    have hfirst : first = run := Option.some.inj h.first
    subst hfirst
    -- a single round is the last one, so the run is over
    cases rest with
    | nil => exact history_of_over (h.ended first rfl)
    | cons next others =>
      obtain ⟨⟨hrun, hnext⟩, honward⟩ := List.isChain_cons_cons.1 h.onward
      have hrest : history setup next = .ok (next :: others) :=
        ih ⟨rfl, honward, fun last hlast => h.ended last (by rwa [List.getLast?_cons_cons])⟩
      exact history_cons hrun hnext hrest

/-- What holds of the first round, and is handed on from each round to the next, holds of all rounds; it
may speak of the rounds before. -/
theorem history_traces {P : List Run → Run → Prop}
    (hstep : ∀ {before : List Run} {run next : Run}, P before run → run.state.status = .running →
      run.advance setup = .ok next → P (before ++ [run]) next) :
    ∀ {past before after : List Run} {run r : Run},
      history setup run = .ok (past ++ r :: after) → P before run → P (before ++ past) r := by
  intro past
  induction past with
  | nil =>
    intro before after run r h hP
    have hr : r = run := Option.some.inj (rounds_of_history h).first
    rw [List.append_nil, hr]
    exact hP
  | cons first rest ih =>
    intro before after run r h hP
    rcases history_cases h with ⟨-, hone⟩ | ⟨hrun, next, others, hnext, hothers, hmore⟩
    · -- there is a round behind the first one
      have hlength := congrArg List.length hone
      simp only [List.cons_append, List.length_cons, List.length_append, List.length_nil] at hlength
      omega
    · cases hmore
      have hlater := ih hothers (hstep hP hrun hnext)
      rwa [List.append_assoc, List.singleton_append] at hlater

/-! ## How many rounds

  The step counter goes along with the rounds as long as the run is running, and it ends the run at the
  limit.  A run that has been given up has not counted its last round. -/

/-- A run that has gone through those rounds: as long as it is running it has counted each of them, and is
below the limit if there was one. -/
structure Counted (limit : Int) (before : List Run) (run : Run) : Prop where
  /-- the limit stays the one the run began with -/
  maxSteps : run.state.maxSteps = limit
  /-- the rounds before this one are all counted -/
  steps : run.state.status = .running → run.state.stepCount = before.length
  /-- the first round may be at a limit that is not positive, the later ones may not -/
  below : run.state.status = .running → before = [] ∨ (before.length : Int) < limit

/-- **One round** more, and one step more if the run goes on. -/
theorem counted_advance {limit : Int} {before : List Run} {run next : Run}
    (h : Counted limit before run) (hrun : run.state.status = .running)
    (hnext : run.advance setup = .ok next) : Counted limit (before ++ [run]) next := by
  have hlength : (before ++ [run]).length = before.length + 1 := List.length_append
  rcases advance_state hnext with hgiven | ⟨actions, htick⟩
  · -- giving up takes no step, but the run does not go on
    have hlost : next.state.status ≠ .running := by
      rw [hgiven]
      exact Simulation.Status.noConfusion
    have hlimit : next.state.maxSteps = limit := by
      rw [hgiven]
      exact h.maxSteps
    exact ⟨hlimit, fun hr => absurd hr hlost, fun hr => absurd hr hlost⟩
  · have hlimit : next.state.maxSteps = limit := (Simulation.tick_maxSteps htick).trans h.maxSteps
    -- a tick is one step, and the run goes on only below the limit
    have hsteps : next.state.stepCount = ((before ++ [run]).length : Int) := by
      rw [Simulation.tick_stepCount hrun htick, h.steps hrun, hlength]
      rfl
    refine ⟨hlimit, fun _ => hsteps, fun hr => Or.inr ?_⟩
    have hlt := Simulation.tick_running_lt hrun htick hr
    rwa [hsteps, hlimit] at hlt

/-- A run from the start goes through at most `max 1 maxSteps` rounds after the first. -/
theorem rounds_length_le {run : Run} {rounds : List Run} (h : history setup run = .ok rounds)
    (hstart : run.state.stepCount = 0) : (rounds.length : Int) ≤ max 1 run.state.maxSteps + 1 := by
  obtain ⟨before, last, rfl, -, hbefore⟩ := history_ends h
  have hfirst : Counted run.state.maxSteps [] run := ⟨rfl, fun _ => hstart, fun _ => Or.inl rfl⟩
  rw [List.length_append, List.length_singleton]
  rcases List.eq_nil_or_concat before with rfl | ⟨past, r, rfl⟩
  · rw [List.length_nil]
    omega
  · -- the last round that is running
    rw [List.concat_eq_append] at h hbefore ⊢
    have hsplit : history setup run = .ok (past ++ r :: [last]) := by
      rw [h, List.append_assoc]
      rfl
    have hcounted : Counted run.state.maxSteps ([] ++ past) r :=
      history_traces counted_advance hsplit hfirst
    have hr : r.state.status = .running := hbefore r (List.mem_append_right _ List.mem_cons_self)
    rw [List.length_append, List.length_singleton]
    rcases hcounted.below hr with hnone | hbelow
    · rw [List.nil_append] at hnone
      rw [hnone, List.length_nil]
      omega
    · rw [List.nil_append] at hbelow
      omega

end Rounds

end Run

namespace Evaluation

/-! ## The trace

  A trace is captured state by state, and at the end the last state is added if it is not there.  Whether
  it is there is seen by the number of the state, which is what makes a closed form possible. -/

/-- The state of that number is in the trace of a run that ends with number `last`. -/
def keeps (every last number : Nat) : Bool := number % every == 0 || number == last

theorem keeps_last (every n : Nat) : keeps every n n = true := by
  rw [keeps, beq_self_eq_true, Bool.or_true]

theorem keeps_of_lt {every last number : Nat} (h : number < last) :
    keeps every last number = (number % every == 0) := by
  rw [keeps, beq_false_of_ne (Nat.ne_of_lt h), Bool.or_false]

/-- The states from that number on, of which those are kept that belong in the trace of the whole run. -/
def picked (every last number : Nat) (states : List Simulation.State) : List (List Robot) :=
  ((states.zipIdx number).filter fun p => keeps every last p.2).map (·.1.robots)

/-- What is picked from a list begins with its first state, if that is kept. -/
theorem picked_cons (every last number : Nat) (s : Simulation.State) (rest : List Simulation.State) :
    picked every last number (s :: rest)
      = (if keeps every last number then [s.robots] else []) ++ picked every last (number + 1) rest := by
  rw [picked, List.zipIdx_cons, List.filter_cons]
  split <;> rfl

/-- The crux of the closed form.  A trace that has reached a state holds it already exactly if its number is
a multiple, and what it holds at the end is what was there `before` and whatever is picked from this state
on.  Induction on the states to come: the next state is captured or passed over, which leaves a trace of
the same kind one number further on; at the end the last state is captured if it is not there yet. -/
theorem along_frames (rest : List Simulation.State) :
    ∀ {trace : Trace} {number : Nat} {s : Simulation.State} {before : List (List Robot)},
      trace.frames = before ++ (if number % trace.every = 0 then [s.robots] else []) →
        (trace.along number s rest).frames
          = before ++ picked trace.every (number + rest.length) number (s :: rest) := by
  induction rest with
  | nil =>
    intro trace number s before h
    rw [List.length_nil, Nat.add_zero, picked_cons, if_pos (keeps_last trace.every number), Trace.along]
    -- at the end: the last state is captured once more unless it is in the trace already
    by_cases hmultiple : number % trace.every = 0
    · rw [if_pos hmultiple] at h ⊢
      exact h
    · rw [if_neg hmultiple] at h ⊢
      rw [Trace.capture_frames, h, List.append_nil]
      rfl
  | cons next rest ih =>
    intro trace number s before h
    -- before the end a state is kept just if its number is a multiple
    have hhere : keeps trace.every (number + 1 + rest.length) number = true
        ↔ number % trace.every = 0 := by
      rw [keeps_of_lt (by omega), beq_iff_eq]
    have hend : number + (next :: rest).length = number + 1 + rest.length := by
      rw [List.length_cons, Nat.add_assoc, Nat.add_comm 1]
    rw [hend, picked_cons, if_congr hhere rfl rfl, ← List.append_assoc, ← h, Trace.along]
    by_cases hnext : (number + 1) % trace.every = 0
    · rw [if_pos hnext]
      refine ih ?_
      rw [Trace.capture_every, if_pos hnext, Trace.capture_frames]
    · rw [if_neg hnext]
      refine ih ?_
      rw [if_neg hnext, List.append_nil]

/-- **The closed form of a trace.** -/
theorem ofStates_frames (every : Nat) (states : List Simulation.State) :
    (Trace.ofStates every states).frames = picked every (states.length - 1) 0 states := by
  cases states with
  | nil => rfl
  | cons first rest =>
    have hfirst : (Trace.capture { every, frames := [] } first).frames
        = [] ++ if 0 % every = 0 then [first.robots] else [] := by
      rw [if_pos (Nat.zero_mod every), Trace.capture_frames]
    have hall := along_frames rest hfirst
    rwa [List.nil_append, Nat.zero_add] at hall

/-- The numbers from `0` to `n` of which one is kept: the multiples of `every`, and `n`. -/
def kept (every n : Nat) : List Nat := (List.range (n + 1)).filter (keeps every n)

theorem mem_kept_iff {every n i : Nat} : i ∈ kept every n ↔ i ≤ n ∧ (every ∣ i ∨ i = n) := by
  rw [kept, List.mem_filter, List.mem_range, Nat.lt_succ_iff, keeps, Bool.or_eq_true, beq_iff_eq,
    beq_iff_eq, Nat.dvd_iff_mod_eq_zero]

/-- Below `n` there are as many multiples as `every` goes into `n`, rounded up. -/
theorem countP_multiples {every : Nat} (hpos : 0 < every) (n : Nat) :
    (List.range n).countP (fun i => i % every == 0) = (n + every - 1) / every := by
  induction n with
  | zero =>
    rw [Nat.zero_add, Nat.div_eq_of_lt (Nat.sub_lt hpos Nat.one_pos)]
    rfl
  | succ n ih =>
    have hnext : n + 1 + every - 1 = (n + every - 1) + 1 := by omega
    -- the quotient grows just where a multiple is counted
    have hback : every ∣ n + every - 1 + 1 ↔ every ∣ n := by
      rw [show n + every - 1 + 1 = n + every by omega, Nat.dvd_add_self_right]
    rw [List.range_succ, List.countP_append, ih, hnext, List.countP_singleton]
    by_cases hdvd : every ∣ n
    · have hzero : (n % every == 0) = true := beq_iff_eq.2 (Nat.dvd_iff_mod_eq_zero.1 hdvd)
      rw [if_pos hzero, Nat.succ_div_of_dvd (hback.2 hdvd)]
    · have hrest : ¬ (n % every == 0) = true := fun hzero =>
        hdvd (Nat.dvd_iff_mod_eq_zero.2 (beq_iff_eq.1 hzero))
      rw [if_neg hrest, Nat.succ_div_of_not_dvd (mt hback.1 hdvd), Nat.add_zero]

/-- How many numbers are kept. -/
theorem length_kept {every : Nat} (hpos : 0 < every) (n : Nat) :
    (kept every n).length = 1 + (n + every - 1) / every := by
  have hearly : (List.range n).countP (keeps every n)
      = (List.range n).countP fun i => i % every == 0 := by
    refine List.countP_congr fun i hi => ?_
    have hne : (i == n) = false := beq_false_of_ne (Nat.ne_of_lt (List.mem_range.1 hi))
    rw [keeps, hne, Bool.or_false]
  rw [kept, ← List.countP_eq_length_filter, List.range_succ, List.countP_append, hearly,
    countP_multiples hpos, List.countP_singleton, if_pos (keeps_last every n), Nat.add_comm]

/-- Snapshots of those states of a run whose numbers are kept, in order. -/
structure Sampled (every : Nat) (states : List Simulation.State) (frames : List (List Robot)) :
    Prop where
  /-- the first state, every state whose number is a multiple, and the last one, none of them twice -/
  picks : ∃ numbers : List Nat, numbers.Pairwise (· < ·) ∧
    (∀ i, i ∈ numbers ↔ i < states.length ∧ (every ∣ i ∨ i + 1 = states.length)) ∧
    frames.map some = numbers.map fun i => states[i]?.map Simulation.State.robots
  /-- the first snapshot, and one for every interval that has begun -/
  count : ∀ n, states.length = n + 1 → frames.length = 1 + (n + every - 1) / every
  /-- the first snapshot shows the first state -/
  first : frames.head? = states.head?.map Simulation.State.robots
  /-- the last snapshot shows the last state, sampled or not -/
  last : frames.getLast? = states.getLast?.map Simulation.State.robots

/-- The frames are the robots of the states with these numbers. -/
theorem ofStates_picks (every : Nat) (states : List Simulation.State) :
    (Trace.ofStates every states).frames.map some
      = ((List.range states.length).filter (keeps every (states.length - 1))).map
          fun i => states[i]?.map Simulation.State.robots := by
  have hnumbers : List.range states.length = states.zipIdx.map Prod.snd := by
    rw [List.zipIdx_map_snd, List.range_eq_range']
  rw [hnumbers, List.filter_map, List.map_map, ofStates_frames, picked, List.map_map]
  refine List.map_congr_left fun p hp => ?_
  have hstate : states[p.2]? = some p.1 :=
    List.mem_zipIdx_iff_getElem?.1 (List.mem_of_mem_filter hp)
  show some p.1.robots = states[p.2]?.map Simulation.State.robots
  rw [hstate]
  rfl

theorem eq_of_map_some {α : Type} {x y : Option α} (h : x.map some = some y) : x = y := by
  cases x with
  | none => cases h
  | some a => exact Option.some.inj h

/-- **A trace is a sample of the run**: the first state, the last one, and the multiples between. -/
theorem sampled_ofStates {every : Nat} (hpos : 0 < every) {states : List Simulation.State}
    (hne : states ≠ []) : Sampled every states (Trace.ofStates every states).frames := by
  obtain ⟨n, hn⟩ : ∃ n, states.length = n + 1 :=
    Nat.exists_eq_succ_of_ne_zero (by rwa [ne_eq, List.length_eq_zero_iff])
  have hpicks := ofStates_picks every states
  -- the frames are the picked states, so what holds of the numbers holds of them
  rw [hn, Nat.add_sub_cancel, ← kept] at hpicks
  have hlength : (Trace.ofStates every states).frames.length = (kept every n).length := by
    have h := congrArg List.length hpicks
    rwa [List.length_map, List.length_map] at h
  refine ⟨⟨kept every n, ?_, ?_, hpicks⟩, ?_, ?_, ?_⟩
  · exact List.pairwise_lt_range.filter _
  · intro i
    rw [mem_kept_iff, hn, Nat.lt_succ_iff, Nat.succ_inj]
  · intro m hm
    rw [hlength, length_kept hpos, Nat.succ_inj.1 (hn.symm.trans hm)]
  · have hfirst : (kept every n).head? = some 0 := by
      -- nought is a multiple of everything
      have hzero : keeps every n 0 = true := by
        rw [keeps, Nat.zero_mod, beq_self_eq_true, Bool.true_or]
      rw [kept, List.range_succ_eq_map, List.filter_cons_of_pos hzero]
      rfl
    have h := congrArg List.head? hpicks
    rw [List.head?_map, List.head?_map, hfirst] at h
    rw [eq_of_map_some h, List.head?_eq_getElem?]
  · have hlast : (kept every n).getLast? = some n := by
      rw [kept, List.range_succ, List.filter_append, List.filter_cons_of_pos (keeps_last every n)]
      exact List.getLast?_concat
    have h := congrArg List.getLast? hpicks
    rw [List.getLast?_map, List.getLast?_map, hlast] at h
    rw [eq_of_map_some h, List.getLast?_eq_getElem?, hn, Nat.add_sub_cancel]

/-! ## The report

  `Reports` collects what a result tells, and each part of it is one of the lemmas above. -/

/-- The tick limit of an evaluation: the level's own, or that of the options, or the default. -/
def Options.tickLimit (options : Options) (level : Level) : Int :=
  level.maxTicks.getD (options.maxTicks.getD Simulation.defaultMaxSteps)

/-- What a result tells of the states that the run went through, where so many robots are to be saved. -/
structure Reports (required : Int) (options : Options) (states : List Simulation.State) (r : Result) :
    Prop where
  /-- the final state is the last one of the run -/
  final : states.getLast? = some r.final
  /-- which is over -/
  ended : r.final.status = .won ∨ r.final.status = .lost
  /-- solved means that the quota is met at the end -/
  solved : r.solved = true ↔ required ≤ r.final.savedCount
  /-- no state before the last one meets the quota -/
  earlier : ∀ s ∈ states.dropLast, (s.savedCount : Int) < required
  /-- the peak is the earliest state with the highest score -/
  peak : ∃ i, IsPeak states r.peak i
  /-- the milestones are those of all states together -/
  milestones : r.milestones = states.foldl Milestones.merge {}
  /-- an interval below one counts as one -/
  interval : (r.trace.every : Int) = max 1 options.sampleEvery
  /-- the snapshots are those of the sampled states -/
  trace : Sampled r.trace.every states r.trace.frames

theorem counters_of_start {level : Level} {options : Options} {s : Simulation.State}
    (h : level.start (options.maxTicks.getD Simulation.defaultMaxSteps) = .ok s) :
    s.maxSteps = options.tickLimit level ∧ s.stepCount = 0 := by
  obtain ⟨grid, -, hs⟩ := Level.start_cases h
  obtain ⟨entered, hstarted⟩ := Simulation.start_cases hs
  rw [hstarted.state]
  exact ⟨rfl, rfl⟩

/-- A run that starts with the quota open, or met, is reported as it was. -/
theorem reports_resultOf {setup : Run.Setup} {required : Int} {run last : Run} {before : List Run}
    (options : Options) (h : Run.history setup run = .ok (before ++ [last]))
    (hrun : Simulation.Quoted required run.state) :
    Reports required options ((before ++ [last]).map Run.state)
      (resultOf options (before ++ [last]) last) := by
  have hquoted := Run.history_invariant Simulation.quoted_tick Simulation.quoted_given_up h hrun
  have hlast : Simulation.Quoted required last.state :=
    hquoted last (List.mem_append_right _ List.mem_cons_self)
  have hstates : (before ++ [last]).map Run.state = before.map Run.state ++ [last.state] := List.map_append
  have hne : (before ++ [last]).map Run.state ≠ [] := by
    rw [hstates]
    exact List.concat_ne_nil _ _
  have hevery : (resultOf options (before ++ [last]) last).trace.every
      = Trace.interval options.sampleEvery := Trace.ofStates_every _ _
  obtain ⟨others, final, hsplit, hover, hrunning⟩ := Run.history_ends h
  -- the last round is the one at which the run is over, and the earlier ones still run
  obtain ⟨rfl, hone⟩ := List.append_inj' hsplit rfl
  cases hone
  refine ⟨?_, ?_, ?_, ?_, exists_isPeak hne, rfl, ?_, ?_⟩
  · rw [hstates]
    exact List.getLast?_concat
  · show last.state.status = .won ∨ last.state.status = .lost
    cases hstatus : last.state.status with
    | running => exact absurd hstatus hover
    | won => exact Or.inl rfl
    | lost => exact Or.inr rfl
  · rw [solved_iff]
    exact hlast.won
  · intro s hs
    rw [hstates, List.dropLast_concat] at hs
    obtain ⟨round, hround, rfl⟩ := List.mem_map.1 hs
    -- a quota that is met would have ended the run there
    have hopen : round.state.status ≠ .won := by
      rw [hrunning round hround]
      exact Simulation.Status.noConfusion
    exact Int.not_le.1 fun hmet => hopen ((hquoted round (List.mem_append_left _ hround)).won.2 hmet)
  · rw [hevery]
    unfold Trace.interval
    omega
  · rw [hevery]
    exact sampled_ofStates (Trace.interval_pos _) hne

/-- **What an evaluation reports.**  Where robots have headings, an evaluation fails only if the level
cannot be started.  Where it does not fail there is a run from the start of the level to its end, of at
most `max 1 tickLimit` rounds after the first, and what is reported is what its states show. -/
theorem evaluate_reports (program : Program) (level : Level) (options : Options) :
    (Simulation.Headed level.spawner → ∀ fault, evaluate program level options = .error fault ↔
      level.start (options.maxTicks.getD Simulation.defaultMaxSteps) = .error fault) ∧
    ∀ r, evaluate program level options = .ok r → ∃ state rounds,
      level.start (options.maxTicks.getD Simulation.defaultMaxSteps) = .ok state ∧
      Run.Rounds (setupOf program options state) { state } rounds ∧
      (rounds.length : Int) ≤ max 1 (options.tickLimit level) + 1 ∧
      Reports level.requiredSaved options (rounds.map Run.state) r := by
  refine ⟨fun hheaded => evaluate_error_iff hheaded program options, fun r hr => ?_⟩
  obtain ⟨state, before, last, hstart, hhistory, rfl⟩ := exists_rounds hr
  obtain ⟨hlimit, hnew⟩ := counters_of_start hstart
  have hlength := Run.rounds_length_le hhistory hnew
  rw [hlimit] at hlength
  exact ⟨state, before ++ [last], hstart, Run.rounds_of_history hhistory, hlength,
    reports_resultOf options hhistory (quoted_of_start hstart)⟩

/-- Three steps to the exit. -/
def threeSteps : Level := { grid := [[0, 0, 0, 2]], spawner := { pose := ⟨⟨0, 0⟩, 1⟩ } }

/-- One step short of the exit. -/
def twoSteps : Program := [.act .moveForward, .act .moveForward]

/-- A run that stops short of the exit is given up in its fourth round.  Of the four states the first, the
third and the last are in a trace that keeps every other one. -/
theorem evaluate_reports_threeSteps :
    Simulation.Headed threeSteps.spawner ∧
    ∃ (r : Result) (rounds : List Run), evaluate twoSteps threeSteps { sampleEvery := 2 } = .ok r ∧
      rounds.length = 4 ∧ Reports 1 { sampleEvery := 2 } (rounds.map Run.state) r ∧
      r.trace.frames.length = 3 := by
  have hheaded : Simulation.Headed threeSteps.spawner := by decide
  obtain ⟨state, rounds, hstart, hhistory, hlength⟩ := exists_history_of_eq
    (show ((threeSteps.start 200).bind fun state =>
      ((Run.history (setupOf twoSteps { sampleEvery := 2 } state) { state }).map
        List.length).mapError Level.StartFault.run).toOption = some 4 by decide +kernel)
  obtain ⟨hfails, hreports⟩ := evaluate_reports twoSteps threeSteps { sampleEvery := 2 }
  cases hr : evaluate twoSteps threeSteps { sampleEvery := 2 } with
  | error fault => cases hstart.symm.trans ((hfails hheaded fault).1 hr)
  | ok r =>
    obtain ⟨state', rounds', hstart', hrounds', -, hreport⟩ := hreports r hr
    cases hstart.symm.trans hstart'
    -- the rounds of the report are those of the history
    cases hhistory.symm.trans (Run.history_of_rounds hrounds')
    have hevery : r.trace.every = 2 := Int.ofNat_inj.1 hreport.interval
    have hcount := hreport.trace.count 3 (by rw [List.length_map, hlength])
    rw [hevery] at hcount
    exact ⟨hheaded, r, rounds, rfl, hlength, hreport, hcount⟩

end Evaluation

end RobotPuzzle
