/-
  What a search does to its books.

  1. **A step** (`Plan.Step`) — all that ever happens to the books of a search: a check is made, a program
     is tried, or a report is made.  A program is tried only while none has solved the level and while
     the number of attempts allows it.
  2. **A search** (`run_yields`) — by length or by chance, and however many programs are judged at a
     time, a search is a sequence of such steps; if it fails, then because some program cannot be judged.
  3. **Invariants** — what every step keeps holds of the books that a search leaves behind
     (`Leads.invariant`), so nothing about books has to be proved for each kind of search on its own.

  The crux is in the guards of `Step.attempt`.  They are what each part of a search has to show for every
  program that it tries, and with them every invariant needs to be shown for three kinds of steps only.

  Whatever a search returns has come about by checks, attempts and reports, in some order; `Yields` says
  so and nothing about which order.  That suffices for every property that each of the three keeps.  What
  depends on the order is in `Stages`.
-/
import Mathlib.Logic.Relation
import RobotPuzzle.Search.Basic

namespace RobotPuzzle

namespace Search

/-! ## Single steps

  A check counts itself and may notice a stop, and a report asks the listener; neither touches the trials.
-/

namespace Ledger

/-- Books that tell the same of all trials. -/
structure SameTrials (l m : Ledger) : Prop where
  /-- the same programs with the same results -/
  records : m.records = l.records
  /-- counted alike -/
  attempts : m.attempts = l.attempts
  /-- the same best so far -/
  best : m.best = l.best
  /-- and the same verdict -/
  solved : m.solved = l.solved

/-- A report changes nothing of the trials. -/
theorem sameTrials_report (listener : Option Listener) (l : Ledger) :
    l.SameTrials (l.report listener) := by
  unfold report
  split
  · exact ⟨rfl, rfl, rfl, rfl⟩
  · exact ⟨rfl, rfl, rfl, rfl⟩

/-- Nor does a report that is made only now and then. -/
theorem sameTrials_reportIfDue (listener : Option Listener) (every : Nat) (l : Ledger) :
    l.SameTrials (l.reportIfDue listener every) := by
  unfold reportIfDue
  split
  · obtain ⟨hrecords, hattempts, hbest, hsolved⟩ :=
      sameTrials_report listener { l with lastReport := l.attempts }
    exact ⟨hrecords, hattempts, hbest, hsolved⟩
  · exact ⟨rfl, rfl, rfl, rfl⟩

/-- Nor does a check. -/
theorem sameTrials_check (watch : Watch) (maxTimeMs maxAttempts : Nat) (l : Ledger) :
    l.SameTrials (l.check watch maxTimeMs maxAttempts).1 := by
  unfold check
  dsimp only
  split
  · exact ⟨rfl, rfl, rfl, rfl⟩
  · split
    · exact ⟨rfl, rfl, rfl, rfl⟩
    · exact ⟨rfl, rfl, rfl, rfl⟩

end Ledger

namespace Plan

variable {plan : Plan} {l m : Ledger}

/-- What came of a program is entered, and reported if it is time. -/
theorem attempt_cases {program : Program} (h : plan.attempt program l = .ok m) :
    ∃ result, plan.judge program = .ok result ∧
      m = (l.enter ⟨program, result⟩).reportIfDue plan.listener plan.every := by
  unfold attempt at h
  cases hj : plan.judge program with
  | error fault =>
    rw [hj] at h
    cases h
  | ok result =>
    rw [hj] at h
    cases h
    exact ⟨result, rfl, rfl⟩

/-- Trying a program fails with the fault of that program. -/
theorem attempt_error {program : Program} {fault : Level.StartFault}
    (h : plan.attempt program l = .error fault) : plan.judge program = .error fault := by
  unfold attempt at h
  cases hj : plan.judge program with
  | error fault' =>
    rw [hj] at h
    cases h
    rfl
  | ok result =>
    rw [hj] at h
    cases h

theorem attempt_attempts {program : Program} (h : plan.attempt program l = .ok m) :
    m.attempts = l.attempts + 1 := by
  obtain ⟨result, -, rfl⟩ := attempt_cases h
  exact (Ledger.sameTrials_reportIfDue plan.listener plan.every _).attempts

/-- What can happen to the books of a search. -/
inductive Step (plan : Plan) : Ledger → Ledger → Prop where
  /-- a check may note a stop, and counts -/
  | check (l : Ledger) : Step plan l (plan.check l).1
  /-- a program is judged and entered while attempts are left and nothing is solved -/
  | attempt {l m : Ledger} (program : Program) (hopen : l.solved = false)
      (hleft : l.attempts < plan.maxAttempts) (h : plan.attempt program l = .ok m) : Step plan l m
  /-- a report is made -/
  | report (l : Ledger) : Step plan l (l.report plan.listener)

/-- Some steps lead from these books to those. -/
def Leads (plan : Plan) : Ledger → Ledger → Prop := Relation.ReflTransGen plan.Step

/-- What every step keeps is kept. -/
theorem Leads.invariant {P : Ledger → Prop} (hstep : ∀ {l m : Ledger}, P l → plan.Step l m → P m)
    (h : plan.Leads l m) (hl : P l) : P m := by
  induction h with
  | refl => exact hl
  | tail _ hlast ih => exact hstep ih hlast

/-- The outcome is books to which steps lead, or the fault of a program that cannot be judged. -/
def Yields (plan : Plan) (l : Ledger) (outcome : Except Level.StartFault Ledger) : Prop :=
  match outcome with
  | .ok m => plan.Leads l m
  | .error fault => ∃ program, plan.judge program = .error fault

theorem Yields.here (plan : Plan) (l : Ledger) : plan.Yields l (.ok l) := Relation.ReflTransGen.refl

theorem Yields.after {outcome : Except Level.StartFault Ledger} (h : plan.Leads l m)
    (hm : plan.Yields m outcome) : plan.Yields l outcome := by
  cases outcome with
  | error fault => exact hm
  | ok last => exact Relation.ReflTransGen.trans h hm

theorem Yields.bind {outcome : Except Level.StartFault Ledger}
    {next : Ledger → Except Level.StartFault Ledger} (h : plan.Yields l outcome)
    (hnext : ∀ m, outcome = .ok m → plan.Yields m (next m)) : plan.Yields l (outcome >>= next) := by
  cases outcome with
  | error fault => exact h
  | ok m => exact Yields.after h (hnext m rfl)

theorem leads_check (plan : Plan) (l : Ledger) : plan.Leads l (plan.check l).1 :=
  Relation.ReflTransGen.single (.check l)

theorem check_attempts (plan : Plan) (l : Ledger) : (plan.check l).1.attempts = l.attempts :=
  (Ledger.sameTrials_check plan.watch plan.maxTimeMs plan.maxAttempts l).attempts

theorem check_solved (plan : Plan) (l : Ledger) : (plan.check l).1.solved = l.solved :=
  (Ledger.sameTrials_check plan.watch plan.maxTimeMs plan.maxAttempts l).solved

/-- A check makes no report. -/
theorem check_reports (plan : Plan) (l : Ledger) :
    (plan.check l).1.reports = l.reports ∧ (plan.check l).1.lastReport = l.lastReport := by
  unfold Plan.check Ledger.check
  dsimp only
  split
  · exact ⟨rfl, rfl⟩
  · split <;> exact ⟨rfl, rfl⟩

/-- A check allows no more than is left. -/
theorem check_allows (plan : Plan) (l : Ledger) :
    (plan.check l).2 ≤ plan.maxAttempts - (plan.check l).1.attempts := by
  rw [check_attempts]
  exact Ledger.check_le l plan.watch plan.maxTimeMs plan.maxAttempts

/-- An attempt that is left is a step, or the program cannot be judged. -/
theorem attempt_yields (program : Program) (hopen : l.solved = false)
    (hleft : l.attempts < plan.maxAttempts) : plan.Yields l (plan.attempt program l) := by
  cases h : plan.attempt program l with
  | ok m => exact Relation.ReflTransGen.single (.attempt program hopen hleft h)
  | error fault => exact ⟨program, attempt_error h⟩

/-! ## Many programs

  A chunk is judged as a whole and then entered one by one.  As it is no longer than what the check
  allows, there is an attempt left for each program when its turn comes. -/

/-- A chunk for which there are attempts enough, program by program. -/
theorem attemptEach_yields :
    ∀ (programs : List Program) (l : Ledger), l.attempts + programs.length ≤ plan.maxAttempts →
      plan.Yields l (plan.attemptEach programs l) := by
  intro programs
  induction programs with
  | nil => exact fun l _ => Yields.here plan l
  | cons program rest ih =>
    intro l hleft
    rw [List.length_cons] at hleft
    unfold attemptEach
    split
    · -- solved already: the program is judged along with its chunk, but not entered
      cases hj : plan.judge program with
      | error fault => exact ⟨program, hj⟩
      | ok result => exact Yields.here plan l
    · rename_i hopen
      refine Yields.bind (attempt_yields program (Bool.eq_false_iff.2 hopen) (by omega)) ?_
      intro m hm
      have hcount := attempt_attempts hm
      exact ih m (by omega)

/-- Pending programs are left alone, or a check cuts the next ones off. -/
theorem attemptAll_eq (plan : Plan) (pending : List Program) (l : Ledger) :
    plan.attemptAll pending l =
      if pending = [] ∨ l.solved = true then .ok l
      else if (plan.check l).2 = 0 then .ok (plan.check l).1
      else plan.attemptEach (pending.take (min (plan.check l).2 plan.chunk)) (plan.check l).1 >>=
        plan.attemptAll (pending.drop (min (plan.check l).2 plan.chunk)) := by
  rw [attemptAll]
  -- the conditions in the order in which the definition asks them
  by_cases hp : pending = []
  · rw [dif_pos hp, if_pos (Or.inl hp)]
  · rw [dif_neg hp]
    by_cases hs : l.solved = true
    · rw [if_pos hs, if_pos (Or.inr hs)]
    · rw [if_neg hs, if_neg (not_or.2 ⟨hp, hs⟩)]
      dsimp only
      by_cases ha : (plan.check l).2 = 0
      · rw [dif_pos ha, if_pos ha]
      · rw [dif_neg ha, if_neg ha]
        split
        · rename_i hm
          rw [hm]
          rfl
        · rename_i hm
          rw [hm]
          rfl

/-- Chunk by chunk, by induction on how many programs are left. -/
theorem attemptAll_yields (pending : List Program) (l : Ledger) :
    plan.Yields l (plan.attemptAll pending l) := by
  rw [attemptAll_eq]
  split
  · exact Yields.here plan l
  · rename_i hmore
    split
    · exact leads_check plan l
    · rename_i ha
      have hallowed := check_allows plan l
      have := plan.chunk_shortens (not_or.1 hmore).1 ha
      refine Yields.after (leads_check plan l) (Yields.bind (attemptEach_yields _ _ ?_) fun m _ => ?_)
      · rw [List.length_take]
        omega
      · exact attemptAll_yields (pending.drop (min (plan.check l).2 plan.chunk)) m
termination_by pending.length

/-! ## Whole searches

  The parts are put one behind the other, each of them from the books that the one before has left. -/

/-- Layer by layer. -/
theorem beam_yields :
    ∀ (layers : Nat) (frontier : List Program) (l : Ledger),
      plan.Yields l (plan.beam layers frontier l) := by
  intro layers
  induction layers with
  | zero => exact fun frontier l => Yields.here plan l
  | succ layers ih =>
    intro frontier l
    unfold beam
    refine Yields.bind (attemptAll_yields _ l) fun after _ => ?_
    split
    · exact Yields.here plan after
    · dsimp only
      split
      · exact Yields.here plan after
      · exact ih _ after

/-- Round by round. -/
theorem walk_yields {σ : Type} (dice : Dice σ) :
    ∀ (rounds : Nat) (current : Program) (s : σ) (l : Ledger),
      plan.Yields l (plan.walk dice rounds current s l) := by
  intro rounds
  induction rounds with
  | zero => exact fun current s l => Yields.here plan l
  | succ rounds ih =>
    intro current s l
    unfold walk
    split
    · exact Yields.here plan l
    · rename_i hopen
      dsimp only
      split
      · exact leads_check plan l
      · rename_i ha
        -- the check allows one more, so the attempt is within the budget
        have hallowed := check_allows plan l
        refine Yields.after (leads_check plan l) ?_
        split
        · exact ih _ _ _
        · refine Yields.bind (attempt_yields _ ?_ (by omega)) fun m _ => ih _ _ m
          rw [check_solved]
          exact Bool.eq_false_iff.2 hopen

/-- The empty program comes first, if there are any attempts. -/
theorem attemptEmpty_yields (hopen : l.solved = false) : plan.Yields l (plan.attemptEmpty l) := by
  unfold attemptEmpty
  dsimp only
  split
  · exact leads_check plan l
  · rename_i ha
    have hallowed := check_allows plan l
    refine Yields.after (leads_check plan l) (attempt_yields [] ?_ (by omega))
    rw [check_solved]
    exact hopen

/-- What follows is the one search or the other. -/
theorem goOn_yields {σ : Type} (strategy : Strategy) (around : Circumstances σ) (l : Ledger) :
    plan.Yields l (plan.goOn strategy around l) := by
  unfold goOn
  split
  · exact Yields.here plan l
  · cases strategy with
    | beam => exact beam_yields plan.maxDepth [[]] l
    | random => exact walk_yields around.dice around.rounds [] around.seeded l

/-- **A search is a sequence of checks, trials and reports**, or fails with the fault of a program that
cannot be judged. -/
theorem run_yields {σ : Type} (plan : Plan) (strategy : Strategy) (around : Circumstances σ)
    (hopen : l.solved = false) : plan.Yields l (plan.run strategy around l) := by
  unfold run
  refine Yields.bind (attemptEmpty_yields hopen) fun m _ => ?_
  refine Yields.bind (goOn_yields strategy around m) fun last _ => ?_
  exact Relation.ReflTransGen.single (.report last)

end Plan

end Search

end RobotPuzzle
