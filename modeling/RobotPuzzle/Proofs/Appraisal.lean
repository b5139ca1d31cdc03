/-
  What an evaluation comes to: that it goes through, and what its score tells.

  1. **Going through** — where robots have headings, an evaluation fails only if the level cannot be
     started, so whether it fails does not depend on the program (`evaluate_error_iff`).
  2. **The peak** — each state is scored with the milestones of the states up to it (`scoreAt`), and the
     climb ends at the first of the states with the highest score (`climb_first`, `exists_isPeak`).  So the
     score of an evaluation is the score of one of its states, and no state has a higher one
     (`peak_spec`).
  3. **The quota** — in every state of a run, to be won is to have met the quota, also in the state that a
     run is given up in (`quoted_given_up`).  Only the last state can be won.
  4. **Points** — a robot saved is worth a thousand points and the bonus for winning five thousand, more
     than all that can be had besides.  A won state has at least one robot more than a state that misses
     the quota; so every program that solves a level is ahead of every one that does not, by more than the
     points of a robot (`score_add_savedPoints_lt`).  The quota is the level's, so this holds whatever
     limits the two are evaluated with (`solved_outscores`).

  The crux is in the numbers.  All that can be had besides robots and the bonus is less than the bonus
  without the points of one robot; so the first robot too few costs more than anything else can make up
  for.

  Two evaluations are compared that may have nothing in common but the level: neither the programs nor the
  limits are the same.  So the bounds have to be bounds for every state of every run on that level, and
  what the level fixes, its quota and its grid, has to be enough for them.  The example is such a pair,
  one program that is given one tick in the one case and all it needs in the other.
-/
import RobotPuzzle.Proofs.EarlyStop

namespace RobotPuzzle

namespace Run

/-! ## Along a run

  A run is a list of rounds that ends with the first state that is not running.  Two things are shown of
  all its states in general: what every tick keeps holds in them, and what lets every tick go through
  makes the run go through. -/

/-- What every tick keeps, and giving up as well, holds in all rounds of a run. -/
theorem history_invariant {setup : Setup} {P : Simulation.State → Prop}
    (htick : ∀ {s t : Simulation.State} {actions : List (Option Action)}, P s →
      Simulation.tick s actions = .ok t → P t)
    (hgive : ∀ {s : Simulation.State}, P s → s.status = .running → P { s with status := .lost }) :
    ∀ {rounds : List Run} {run : Run}, history setup run = .ok rounds → P run.state →
      ∀ r ∈ rounds, P r.state := by
  intro rounds
  induction rounds with
  | nil =>
    intro run _ _ r hr
    cases hr
  | cons first rest ih =>
    intro run h hP r hr
    rcases history_cases h with ⟨-, hone⟩ | ⟨hrun, next, others, hnext, hothers, hmore⟩
    · cases hone
      rw [List.mem_singleton] at hr
      rw [hr]
      exact hP
    · cases hmore
      -- a round is either a tick or the last one, in which the run is given up
      have hP' : P next.state := by
        rcases advance_state hnext with hgiven | ⟨actions, hstep⟩
        · rw [hgiven]
          exact hgive hP hrun
        · exact htick hP hstep
      rcases List.mem_cons.1 hr with rfl | hr
      · exact hP
      · exact ih hothers hP' r hr

/-- A run goes on in all rounds but the last. -/
theorem history_ends {setup : Setup} :
    ∀ {rounds : List Run} {run : Run}, history setup run = .ok rounds →
      ∃ before last, rounds = before ++ [last] ∧ last.state.status ≠ .running ∧
        ∀ r ∈ before, r.state.status = .running := by
  intro rounds
  induction rounds with
  | nil =>
    intro run h
    rcases history_cases h with ⟨-, hone⟩ | ⟨-, next, others, -, -, hmore⟩
    · cases hone
    · cases hmore
  | cons first rest ih =>
    intro run h
    rcases history_cases h with ⟨hover, hone⟩ | ⟨hrun, next, others, -, hothers, hmore⟩
    · cases hone
      -- the run is over, so this round is the last
      refine ⟨[], first, rfl, hover, fun r hr => ?_⟩
      cases hr
    · cases hmore
      -- it goes on, so this round is one of those before the last
      obtain ⟨before, last, rfl, hover, hbefore⟩ := ih hothers
      exact ⟨first :: before, last, rfl, hover, List.forall_mem_cons.2 ⟨hrun, hbefore⟩⟩

section GoingThrough

variable {P : Simulation.State → Prop}
  (htick : ∀ {s : Simulation.State}, P s → ∀ actions, ∃ t, Simulation.tick s actions = .ok t ∧ P t)
  (hgive : ∀ {s : Simulation.State}, P s → P { s with status := .lost })

include htick hgive

/-- A round goes through where every tick does. -/
theorem advance_ok (setup : Setup) {run : Run} (hP : P run.state) :
    ∃ next, run.advance setup = .ok next ∧ P next.state := by
  cases hidle : run.idle setup with
  | true =>
    rw [advance_of_idle hidle]
    exact ⟨_, rfl, hgive hP⟩
  | false =>
    obtain ⟨t, ht, hP'⟩ := htick hP (run.orders setup)
    rw [advance_of_not_idle hidle, advanceFully, ht]
    exact ⟨_, rfl, hP'⟩

/-- What lets every tick go through, and is kept by it, lets the whole run go through. -/
theorem history_ok (setup : Setup) (run : Run) (hP : P run.state) :
    ∃ rounds, history setup run = .ok rounds := by
  by_cases hr : run.state.status = .running
  · obtain ⟨next, hnext, hP'⟩ := advance_ok htick hgive setup hP
    have := advance_ticksLeft hr hnext
    obtain ⟨rounds, hrounds⟩ := history_ok setup next hP'
    exact ⟨run :: rounds, history_cons hr hnext hrounds⟩
  · exact ⟨_, history_of_over hr⟩
termination_by run.ticksLeft

end GoingThrough

end Run

namespace Simulation

/-! ## Sound runs

  Both conditions that a tick may fail for are kept by ticks, so they are conditions on the start only. -/

/-- A state in which rafts and tiles are sound and robots can enter. -/
structure Playable (s : State) : Prop where
  /-- the rafts are sound -/
  afloat : Afloat s
  /-- headings are directions -/
  headed : Headed s.spawner

theorem playable_tick {s : State} (hs : Playable s) (actions : List (Option Action)) :
    ∃ t, tick s actions = .ok t ∧ Playable t := by
  obtain ⟨t, ht⟩ := tick_ok hs.afloat hs.headed actions
  refine ⟨t, ht, (afloat_tick hs.afloat ht).1, ?_⟩
  rw [(sameRules_tick ht).spawner]
  exact hs.headed

theorem playable_given_up {s : State} (hs : Playable s) : Playable { s with status := .lost } :=
  ⟨⟨hs.afloat.sound, hs.afloat.tiles⟩, hs.headed⟩

/-! ## The quota

  Giving up a run changes its status without a tick.  That a state is won exactly if the quota is met must
  therefore be known of a state that is running before, where it says that the quota is missed. -/

/-- A state of a run with that quota, won exactly if the quota is met. -/
structure Quoted (required : Int) (s : State) : Prop where
  /-- the quota is that of the level -/
  quota : s.requiredSaved = required
  /-- and the status knows of it -/
  won : s.status = .won ↔ required ≤ s.savedCount

/-- A tick sets the status by the quota. -/
theorem quoted_tick {required : Int} {s t : State} {actions : List (Option Action)}
    (hs : Quoted required s) (h : tick s actions = .ok t) : Quoted required t := by
  have hquota : t.requiredSaved = required := (sameRules_tick h).requiredSaved.trans hs.quota
  refine ⟨hquota, ?_⟩
  rcases tick_cases h with ⟨-, rfl⟩ | ⟨-, entry, grid, ferried, rafts, -, -, ht⟩
  · exact hs.won
  · have hexact : StatusExact t := by
      rw [ht]
      exact statusExact_settle s entry _ grid ferried rafts
    rw [hexact.won, hquota]

/-- A run is given up only while the quota is missed. -/
theorem quoted_given_up {required : Int} {s : State} (hs : Quoted required s)
    (hr : s.status = .running) : Quoted required { s with status := .lost } := by
  refine ⟨hs.quota, fun hwon => Status.noConfusion hwon, fun hmet => ?_⟩
  have hwon : s.status = .won := hs.won.2 hmet
  rw [hr] at hwon
  cases hwon

end Simulation

namespace Evaluation

/-! ## The peak

  The milestones go along with the states, so the score of a state depends on those before it.  `climb`
  goes through scores and states together and keeps the first of the best. -/

/-- The score of state number `i`, with the milestones of all states up to it. -/
def scoreAt (states : List Simulation.State) (i : Nat) : Option Nat :=
  states[i]?.map fun s => score s ((states.take (i + 1)).foldl Milestones.merge {})

theorem scoreAt_of_getElem? {states : List Simulation.State} {i : Nat} {s : Simulation.State}
    (h : states[i]? = some s) :
    scoreAt states i = some (score s ((states.take (i + 1)).foldl Milestones.merge {})) := by
  rw [scoreAt, h]
  rfl

/-- The milestones at a place are those of all states up to it. -/
theorem milestonesAlong_getElem? :
    ∀ (states : List Simulation.State) (m : Milestones) (i : Nat),
      (milestonesAlong m states)[i]?
        = states[i]?.map fun _ => (states.take (i + 1)).foldl Milestones.merge m := by
  intro states
  induction states with
  | nil => intro m i; rfl
  | cons first rest ih =>
    intro m i
    cases i with
    | zero => rfl
    | succ i =>
      rw [milestonesAlong, List.getElem?_cons_succ, ih, List.getElem?_cons_succ, List.take_succ_cons,
        List.foldl_cons]

theorem scoresAlong_getElem? (states : List Simulation.State) (i : Nat) :
    (scoresAlong states)[i]? = scoreAt states i := by
  rw [scoresAlong, List.getElem?_zipWith, milestonesAlong_getElem?, scoreAt]
  cases states[i]? with
  | none => rfl
  | some s => rfl

/-- **The climb** ends at the first of the highest scores, or where it began if none is higher. -/
theorem climb_first :
    ∀ (scored : List (Nat × Simulation.State)) (peak : Peak),
      (scored.foldl Peak.climb peak = peak ∧ ∀ p ∈ scored, p.1 ≤ peak.score) ∨
      ∃ before p after, scored = before ++ p :: after ∧
        scored.foldl Peak.climb peak = ⟨p.1, p.2.robots⟩ ∧ peak.score < p.1 ∧
        (∀ q ∈ before, q.1 < p.1) ∧ ∀ q ∈ after, q.1 ≤ p.1 := by
  intro scored
  induction scored with
  | nil => exact fun peak => Or.inl ⟨rfl, fun p hp => (nomatch hp)⟩
  | cons q rest ih =>
    intro peak
    rw [List.foldl_cons]
    by_cases hup : peak.score < q.1
    · -- a higher score is climbed, and the peak is there or later on
      have hclimb : peak.climb q = ⟨q.1, q.2.robots⟩ := if_pos hup
      rw [hclimb]
      rcases ih ⟨q.1, q.2.robots⟩ with ⟨hstays, hle⟩ | ⟨before, p, after, rfl, hends, hlt, hbefore, hafter⟩
      · exact Or.inr ⟨[], q, rest, rfl, hstays, hup, fun _ h => (nomatch h), hle⟩
      · exact Or.inr ⟨q :: before, p, after, rfl, hends, Nat.lt_trans hup hlt,
          List.forall_mem_cons.2 ⟨hlt, hbefore⟩, hafter⟩
    · -- the others are passed by, so that the first of equal scores stays the peak
      have hclimb : peak.climb q = peak := if_neg hup
      have hle : q.1 ≤ peak.score := Nat.not_lt.1 hup
      rw [hclimb]
      rcases ih peak with ⟨hstays, hrest⟩ | ⟨before, p, after, rfl, hends, hlt, hbefore, hafter⟩
      · exact Or.inl ⟨hstays, List.forall_mem_cons.2 ⟨hle, hrest⟩⟩
      · exact Or.inr ⟨q :: before, p, after, rfl, hends, hlt,
          List.forall_mem_cons.2 ⟨Nat.lt_of_le_of_lt hle hlt, hbefore⟩, hafter⟩

/-- The peak of a list of scores: the first of the highest ones. -/
theorem ofScored_first {scored : List (Nat × Simulation.State)} (hne : scored ≠ []) :
    ∃ before p after, scored = before ++ p :: after ∧
      Peak.ofScored scored = ⟨p.1, p.2.robots⟩ ∧ (∀ q ∈ before, q.1 < p.1) ∧
      ∀ q ∈ after, q.1 ≤ p.1 := by
  cases scored with
  | nil => exact absurd rfl hne
  | cons q rest =>
    rcases climb_first rest ⟨q.1, q.2.robots⟩ with
      ⟨hstays, hle⟩ | ⟨before, p, after, rfl, hends, hlt, hbefore, hafter⟩
    · exact ⟨[], q, rest, rfl, hstays, fun _ h => (nomatch h), hle⟩
    · exact ⟨q :: before, p, after, rfl, hends, List.forall_mem_cons.2 ⟨hlt, hbefore⟩, hafter⟩

/-- The peak of a run is that of state number `i`: the first of the states with the highest score. -/
structure IsPeak (states : List Simulation.State) (peak : Peak) (i : Nat) : Prop where
  /-- the score of the peak is that of the state -/
  score : scoreAt states i = some peak.score
  /-- its robots are those of the state -/
  robots : ∀ s, states[i]? = some s → peak.robots = s.robots
  /-- no state has a higher score -/
  highest : ∀ j n, scoreAt states j = some n → n ≤ peak.score
  /-- and every earlier one has a lower one -/
  first : ∀ j n, j < i → scoreAt states j = some n → n < peak.score

/-- **There is a peak** in every run, as every run has a state. -/
theorem exists_isPeak {states : List Simulation.State} (hne : states ≠ []) :
    ∃ i, IsPeak states (Peak.ofScored ((scoresAlong states).zip states)) i := by
  -- a score and the state that it is the score of stand at the same place
  have hscored : ∀ {j n}, scoreAt states j = some n →
      ∃ s, ((scoresAlong states).zip states)[j]? = some (n, s) := by
    intro j n hn
    obtain ⟨s, hs, -⟩ := Option.map_eq_some_iff.1 hn
    exact ⟨s, List.getElem?_zip_eq_some.2 ⟨(scoresAlong_getElem? states j).trans hn, hs⟩⟩
  obtain ⟨before, p, after, hsplit, hpeak, hbefore, hafter⟩ :
      ∃ before p after, (scoresAlong states).zip states = before ++ p :: after ∧ _ := by
    refine ofScored_first fun hnil => ?_
    -- a run has a first state, so there is something to climb
    obtain ⟨first, rest, rfl⟩ := List.exists_cons_of_ne_nil hne
    cases hnil
  rw [hsplit] at hscored
  have hp : (before ++ p :: after)[before.length]? = some p := by
    rw [List.getElem?_append_right (Nat.le_refl _), Nat.sub_self]
    rfl
  rw [← hsplit, List.getElem?_zip_eq_some, scoresAlong_getElem?] at hp
  rw [hpeak]
  refine ⟨before.length, hp.1, fun s hs => ?_, fun j n hn => ?_, fun j n hj hn => ?_⟩
  · cases hp.2.symm.trans hs
    rfl
  · obtain ⟨s, hs⟩ := hscored hn
    -- before the peak scores are lower, behind it not higher
    rcases List.mem_append.1 (List.mem_of_getElem? hs) with hearly | hlate
    · exact Nat.le_of_lt (hbefore _ hearly)
    · rcases List.mem_cons.1 hlate with hhere | hlate
      · exact Nat.le_of_eq (congrArg Prod.fst hhere)
      · exact hafter _ hlate
  · obtain ⟨s, hs⟩ := hscored hn
    rw [List.getElem?_append_left hj] at hs
    exact hbefore _ (List.mem_of_getElem? hs)

/-- The peak of a run is the score of one of its states, and every state is below it. -/
theorem peak_spec {states : List Simulation.State} (hne : states ≠ []) :
    (∀ s ∈ states, ∃ m, score s m ≤ (Peak.ofScored ((scoresAlong states).zip states)).score) ∧
      ∃ s ∈ states, ∃ m, (Peak.ofScored ((scoresAlong states).zip states)).score = score s m := by
  obtain ⟨i, hpeak⟩ := exists_isPeak hne
  refine ⟨fun s hs => ?_, ?_⟩
  · obtain ⟨j, hj⟩ := List.mem_iff_getElem?.1 hs
    exact ⟨_, hpeak.highest j _ (scoreAt_of_getElem? hj)⟩
  · obtain ⟨s, hs, hscore⟩ := Option.map_eq_some_iff.1 hpeak.score
    exact ⟨s, List.mem_of_getElem? hs, _, hscore.symm⟩

/-! ## Solved and unsolved

  A result is solved if its last state is won.  What it is worth is the score of its peak, which need not
  be the last state. -/

/-- Where robots have headings, an evaluation fails with the fault of the level, or not at all. -/
theorem evaluate_error_iff {level : Level} (hh : Simulation.Headed level.spawner) (program : Program)
    (options : Options) (fault : Level.StartFault) :
    evaluate program level options = .error fault ↔
      level.start (options.maxTicks.getD Simulation.defaultMaxSteps) = .error fault := by
  rw [evaluate_eq]
  cases hstart : level.start (options.maxTicks.getD Simulation.defaultMaxSteps) with
  | error fault' =>
    show (Except.error fault' : Except Level.StartFault Result) = .error fault ↔ _
    rw [Except.error.injEq, Except.error.injEq]
  | ok state =>
    -- a level that starts is one that can be played, so no round of it fails
    obtain ⟨grid, -, hs⟩ := Level.start_cases hstart
    obtain ⟨hafloat, -⟩ := Simulation.afloat_start hs
    obtain ⟨entered, hstarted⟩ := Simulation.start_cases hs
    have hheaded : Simulation.Headed state.spawner := by
      rw [hstarted.state]
      exact hh
    obtain ⟨rounds, hrounds⟩ := Run.history_ok Simulation.playable_tick Simulation.playable_given_up
      (setupOf program options state) { state } ⟨hafloat, hheaded⟩
    show resultOfHistory options state (Run.history _ { state }) = .error fault ↔ _
    rw [hrounds]
    exact ⟨fun h => (nomatch h), fun h => (nomatch h)⟩

theorem quoted_of_start {level : Level} {maxTicks : Int} {s : Simulation.State}
    (h : level.start maxTicks = .ok s) : Simulation.Quoted level.requiredSaved s := by
  obtain ⟨grid, -, hs⟩ := Level.start_cases h
  obtain ⟨hexact, -⟩ := Simulation.statusExact_start hs
  obtain ⟨entered, hstarted⟩ := Simulation.start_cases hs
  have hquota : s.requiredSaved = level.requiredSaved := by rw [hstarted.state]
  exact ⟨hquota, by rw [hexact.won, hquota]⟩

/-- An evaluation that goes through went through a run from the start of the level. -/
theorem exists_rounds {program : Program} {level : Level} {options : Options} {r : Result}
    (h : evaluate program level options = .ok r) :
    ∃ state before last,
      level.start (options.maxTicks.getD Simulation.defaultMaxSteps) = .ok state ∧
      Run.history (setupOf program options state) { state } = .ok (before ++ [last]) ∧
      r = resultOf options (before ++ [last]) last := by
  rw [evaluate_eq] at h
  obtain ⟨state, hstart, h⟩ := bind_eq_ok h
  cases hhistory : Run.history (setupOf program options state) { state } with
  | error fault =>
    rw [hhistory] at h
    cases h
  | ok rounds =>
    rw [hhistory] at h
    obtain ⟨before, last, rfl, -, -⟩ := Run.history_ends hhistory
    rw [resultOfHistory, List.getLast?_append_cons, List.getLast?_singleton, Option.getD_some] at h
    cases h
    exact ⟨state, before, last, hstart, hhistory, rfl⟩

/-- A run from the start of the level is what an evaluation goes through. -/
theorem evaluate_of_history (program : Program) {level : Level} {options : Options}
    {state : Simulation.State} {before : List Run} {last : Run}
    (hstart : level.start (options.maxTicks.getD Simulation.defaultMaxSteps) = .ok state)
    (hhistory : Run.history (setupOf program options state) { state } = .ok (before ++ [last])) :
    evaluate program level options = .ok (resultOf options (before ++ [last]) last) := by
  rw [evaluate_eq, hstart]
  show resultOfHistory options state (Run.history _ _) = _
  rw [hhistory, resultOfHistory, List.getLast?_append_cons, List.getLast?_singleton, Option.getD_some]

/-- The states that an evaluation goes through. -/
theorem evaluate_cases {program : Program} {level : Level} {options : Options} {r : Result}
    (h : evaluate program level options = .ok r) :
    ∃ states, r.final ∈ states ∧ r.peak = Peak.ofScored ((scoresAlong states).zip states) ∧
      (∀ s ∈ states, s.status = .won → s = r.final) ∧
      ∀ s ∈ states, Simulation.Quoted level.requiredSaved s := by
  obtain ⟨state, before, last, hstart, hhistory, rfl⟩ := exists_rounds h
  obtain ⟨others, final, hsplit, -, hbefore⟩ := Run.history_ends hhistory
  -- the last round is the one at which the run is over
  obtain ⟨rfl, hone⟩ := List.append_inj' hsplit rfl
  cases hone
  have hall := Run.history_invariant Simulation.quoted_tick Simulation.quoted_given_up hhistory
    (quoted_of_start hstart)
  refine ⟨(before ++ [last]).map Run.state, ?_, rfl, fun s hs hwon => ?_, fun s hs => ?_⟩
  · exact List.mem_map_of_mem (List.mem_append_right _ List.mem_cons_self)
  · obtain ⟨round, hround, rfl⟩ := List.mem_map.1 hs
    rcases List.mem_append.1 hround with hround | hround
    · -- an earlier round still runs, so it is not won
      rw [hbefore round hround] at hwon
      cases hwon
    · rw [List.mem_singleton.1 hround]
      rfl
  · obtain ⟨round, hround, rfl⟩ := List.mem_map.1 hs
    exact hall round hround

theorem solved_iff {r : Result} : r.solved = true ↔ r.final.status = .won := beq_iff_eq

/-- What a computed evaluation shows. -/
theorem exists_of_evaluate_eq {program : Program} {level : Level} {options : Options} {α : Type}
    {f : Result → α} {value : α}
    (h : ((evaluate program level options).map f).toOption = some value) :
    ∃ r, evaluate program level options = .ok r ∧ f r = value := by
  cases hr : evaluate program level options with
  | error fault =>
    rw [hr] at h
    cases h
  | ok r =>
    rw [hr] at h
    exact ⟨r, rfl, Option.some.inj h⟩

/-- What a computed run shows. -/
theorem exists_history_of_eq {level : Level} {maxTicks : Int} {setup : Simulation.State → Run.Setup}
    {α : Type} {f : List Run → α} {value : α}
    (h : ((level.start maxTicks).bind fun state =>
      ((Run.history (setup state) { state }).map f).mapError Level.StartFault.run).toOption
        = some value) :
    ∃ state rounds, level.start maxTicks = .ok state ∧
      Run.history (setup state) { state } = .ok rounds ∧ f rounds = value := by
  cases hstart : level.start maxTicks with
  | error fault =>
    rw [hstart] at h
    cases h
  | ok state =>
    rw [hstart, Except.bind] at h
    cases hhistory : Run.history (setup state) { state } with
    | error fault =>
      rw [hhistory] at h
      cases h
    | ok rounds =>
      rw [hhistory] at h
      exact ⟨state, rounds, rfl, hhistory, Option.some.inj h⟩

section Points

open Score

variable {program other : Program} {level : Level} {options others : Options} {r r' : Result}

/-- A solved evaluation has the points of a met quota, and the bonus. -/
theorem le_score_of_solved (h : evaluate program level options = .ok r) (hs : r.solved = true) :
    ∃ saved : Nat, level.requiredSaved ≤ saved ∧ saved * savedPoints + winBonus ≤ r.score := by
  obtain ⟨states, hfinal, hpeak, -, hquoted⟩ := evaluate_cases h
  have hwon : r.final.status = .won := solved_iff.1 hs
  refine ⟨r.final.savedCount, (hquoted r.final hfinal).won.1 hwon, ?_⟩
  obtain ⟨m, hm⟩ := (peak_spec (List.ne_nil_of_mem hfinal)).1 r.final hfinal
  rw [← hpeak] at hm
  have hscore : score r.final m = r.final.savedCount * savedPoints + winBonus + extras r.final m := by
    rw [score, if_pos hwon]
  show _ ≤ r.peak.score
  omega

/-- An unsolved evaluation has less than the points of a missed quota and the bonus. -/
theorem score_lt_of_unsolved (h : evaluate program level options = .ok r) (hs : r.solved = false) :
    ∃ saved : Nat, (saved : Int) < level.requiredSaved ∧ r.score < saved * savedPoints + winBonus := by
  obtain ⟨states, hfinal, hpeak, hlast, hquoted⟩ := evaluate_cases h
  obtain ⟨s, hmem, m, hm⟩ := (peak_spec (List.ne_nil_of_mem hfinal)).2
  -- no state of the run is won, or the last one would be
  have hwon : s.status ≠ .won := by
    intro hwon
    rw [hlast s hmem hwon] at hwon
    rw [solved_iff.2 hwon] at hs
    cases hs
  refine ⟨s.savedCount, Int.not_le.1 fun hmet => hwon ((hquoted s hmem).won.2 hmet), ?_⟩
  rw [← hpeak] at hm
  have hscore : score s m = s.savedCount * savedPoints + 0 + extras s m := by
    rw [score, if_neg hwon]
  have hextras := extras_lt_winBonus s m
  show r.peak.score < _
  omega

/-- A solved evaluation is ahead of an unsolved one by more than the points of a robot. -/
theorem score_add_savedPoints_lt (h : evaluate program level options = .ok r) (hs : r.solved = false)
    (h' : evaluate other level others = .ok r') (hs' : r'.solved = true) :
    r.score + savedPoints < r'.score := by
  obtain ⟨few, hfew, hlow⟩ := score_lt_of_unsolved h hs
  obtain ⟨many, hmany, hhigh⟩ := le_score_of_solved h' hs'
  have hlt : few + 1 ≤ many := by omega
  have hpoints : (few + 1) * savedPoints ≤ many * savedPoints := Nat.mul_le_mul_right _ hlt
  rw [Nat.add_mul, Nat.one_mul] at hpoints
  omega

/-- **Solving a level outscores not solving it**, for any two programs and any two ways to evaluate them. -/
theorem solved_outscores (h : evaluate program level options = .ok r) (hs : r.solved = true)
    (h' : evaluate other level others = .ok r') (hs' : r'.solved = false) : r'.score < r.score := by
  have hahead := score_add_savedPoints_lt h' hs' h hs
  omega

/-- Two robots that enter one after the other, one step in front of an exit, and both are to be saved. -/
def procession : Level :=
  { grid := [[0, 2]], spawner := { pose := ⟨⟨0, 0⟩, 1⟩, count := 2, interval := 1 }, requiredSaved := 2 }

/-- With one tick only the first robot is saved, and the same program is behind. -/
theorem solved_outscores_procession :
    ∃ r r', evaluate [.act .moveForward] procession {} = .ok r ∧ r.solved = true ∧
      evaluate [.act .moveForward] procession { maxTicks := some 1 } = .ok r' ∧ r'.solved = false ∧
      r'.score < r.score := by
  obtain ⟨r, h, hs⟩ := exists_of_evaluate_eq
    (show ((evaluate [.act .moveForward] procession {}).map Result.solved).toOption = some true by
      decide +kernel)
  obtain ⟨r', h', hs'⟩ := exists_of_evaluate_eq
    (show ((evaluate [.act .moveForward] procession { maxTicks := some 1 }).map
      Result.solved).toOption = some false by decide +kernel)
  exact ⟨r, r', h, hs, h', hs', solved_outscores h hs h' hs'⟩

end Points

/-- One step in front of an exit. -/
def doorstep : Level := { grid := [[0, 2]], spawner := { pose := ⟨⟨0, 0⟩, 1⟩ }, maxTicks := some 3 }

example :
    ((evaluate [] doorstep {}).map Result.score).toOption = some 99 ∧
      ((evaluate [.act .moveForward] doorstep {}).map Result.score).toOption = some 6100 := by
  decide +kernel

end Evaluation

end RobotPuzzle
