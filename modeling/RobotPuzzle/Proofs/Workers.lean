/-
  What a search finds does not depend on how many programs are judged at a time.

  1. **Undisturbed** (`Plan.Undisturbed`) — nobody asks for a stop, and the time does not run out.  Then a
     check allows just the attempts that are left, and leaves no trace in the books but its number.
  2. **Chunks** (`attemptAll_alike`) — trying pending programs chunk by chunk is trying, one by one,
     as many of them as there are attempts left: a chunk that does not solve the level counts in full,
     and what it leaves of the pending programs and of the attempts fits together.
  3. **The calm plan** (`Plan.calm`) — so every search keeps the books of the search that judges one
     program at a time while no time passes (`run_calm`), but for the number of checks.  Any two
     numbers of workers are compared through it.

  The crux is the second point.  A chunk is judged before any of it is entered, so behind a program that
  solves the level others may have been judged for nothing; but they are not entered, and where all
  programs can be judged it cannot be seen that they were.

  The two searches are run on two watches, because the time at which a check looks at the watch depends on
  how many checks there were before.  `Undisturbed` is what makes both watches harmless.  What may differ
  in the end is only the number of checks, which nobody is told.
-/
import RobotPuzzle.Proofs.Appraisal
import RobotPuzzle.Proofs.Trials

namespace RobotPuzzle

namespace Search

/-! ## Counting checks

  There are as many checks as chunks, so their number is the only thing in the books that does depend on
  the workers. -/

/-- The same books after another number of checks. -/
def Ledger.recount (checks : Nat) (l : Ledger) : Ledger := { l with checks }

namespace Ledger

theorem eq_recount {l m : Ledger} (h : l.recount 0 = m.recount 0) : l = m.recount l.checks := by
  have hl : (l.recount 0).recount l.checks = (m.recount 0).recount l.checks := by rw [h]
  exact hl

/-- A report does not look at the number of checks. -/
theorem report_recount (listener : Option Listener) (k : Nat) (l : Ledger) :
    (l.recount k).report listener = (l.report listener).recount k := by
  cases listener with
  | none => rfl
  | some hear => rfl

/-- Nor does it come at another time. -/
theorem reportIfDue_recount (listener : Option Listener) (every k : Nat) (l : Ledger) :
    (l.recount k).reportIfDue listener every = (l.reportIfDue listener every).recount k := by
  have hdue : (l.recount k).lastReport + every ≤ (l.recount k).attempts ↔
      l.lastReport + every ≤ l.attempts := Iff.rfl
  unfold reportIfDue
  by_cases h : l.lastReport + every ≤ l.attempts
  · rw [if_pos h, if_pos (hdue.2 h)]
    exact report_recount listener k { l with lastReport := l.attempts }
  · rw [if_neg h, if_neg (mt hdue.1 h)]

end Ledger

/-- The outcomes are the same books but for the number of checks, or the same fault. -/
def Alike (x y : Except Level.StartFault Ledger) : Prop :=
  x.map (Ledger.recount 0) = y.map (Ledger.recount 0)

section Outcomes

variable {x y z : Except Level.StartFault Ledger}

theorem Alike.refl (x : Except Level.StartFault Ledger) : Alike x x := rfl

theorem Alike.symm (h : Alike x y) : Alike y x := Eq.symm h

theorem Alike.trans (h : Alike x y) (h' : Alike y z) : Alike x z := Eq.trans h h'

theorem alike_recount (k : Nat) (x : Except Level.StartFault Ledger) :
    Alike (x.map (Ledger.recount k)) x := by
  cases x with
  | error fault => rfl
  | ok l => rfl

/-- What is alike to some books is these books with a number of its own. -/
theorem Alike.recounted {l : Ledger} (h : Alike x (.ok l)) : ∃ k, x = .ok (l.recount k) := by
  cases x with
  | error fault => cases h
  | ok m => exact ⟨m.checks, congrArg Except.ok (Ledger.eq_recount (Except.ok.inj h))⟩

/-- Searches that are alike and go on alike. -/
theorem Alike.bind {f g : Ledger → Except Level.StartFault Ledger} (h : Alike x y)
    (hnext : ∀ l, y = .ok l → ∀ k, Alike (f (l.recount k)) (g l)) : Alike (x >>= f) (y >>= g) := by
  cases x with
  | error fault =>
    cases y with
    | error fault' =>
      cases h
      exact Alike.refl _
    | ok l => cases h
  | ok m =>
    cases y with
    | error fault' => cases h
    | ok l =>
      -- the two books differ in the number of checks, so they go on alike
      have hm := Ledger.eq_recount (Except.ok.inj h)
      have hgo := hnext l rfl m.checks
      rw [← hm] at hgo
      exact hgo

end Outcomes

namespace Plan

/-! ## Undisturbed searches

  Time is asked for at checks, and a watch is numbered by them.  So two searches with other numbers of
  checks see the watch at other times, which is why nothing may come of what they see. -/

/-- Nobody asks for a stop, and the time does not run out. -/
structure Undisturbed (plan : Plan) : Prop where
  /-- no check finds a stop -/
  unasked : ∀ k, (plan.watch k).stopAsked = false
  /-- no check finds the time over -/
  inTime : ∀ k, (plan.watch k).elapsedMs < plan.maxTimeMs
  /-- the listener does not ask for a stop either -/
  unheard : ∀ hear ∈ plan.listener, ∀ r, hear r = false

/-- One worker, and no time passes. -/
def calm (plan : Plan) : Plan := { plan with workers := 1, watch := .still }

/-- Every program can be judged. -/
def Sure (plan : Plan) : Prop := ∀ program, ∃ result, plan.judge program = .ok result

variable {plan : Plan} {l m : Ledger}

theorem Undisturbed.calm (hu : plan.Undisturbed) : plan.calm.Undisturbed where
  unasked := fun _ => rfl
  inTime := fun _ => Nat.zero_lt_of_lt (hu.inTime 0)
  unheard := hu.unheard

/-- A check allows the attempts that are left, and is counted. -/
theorem Undisturbed.check_eq (hu : plan.Undisturbed) (hl : l.stopAsked = false) :
    plan.check l = (l.recount (l.checks + 1), plan.maxAttempts - l.attempts) := by
  have hstop : (l.stopAsked || (plan.watch l.checks).stopAsked) = false := by
    rw [hl, hu.unasked, Bool.or_false]
  have hbooks : { l with
      checks := l.checks + 1
      stopAsked := l.stopAsked || (plan.watch l.checks).stopAsked } = l.recount (l.checks + 1) := by
    rw [hstop, ← hl]
    rfl
  unfold check Ledger.check
  dsimp only
  rw [if_neg (Bool.eq_false_iff.1 hstop), if_neg (Nat.not_le.2 (hu.inTime l.checks)), hbooks]

/-- The listener does not ask for a stop. -/
theorem Undisturbed.report_stopAsked (hu : plan.Undisturbed) (hl : l.stopAsked = false) :
    (l.report plan.listener).stopAsked = false := by
  unfold Ledger.report
  split
  · exact hl
  · rename_i hear hlistener
    show (l.stopAsked || hear _) = false
    rw [hl, hu.unheard hear hlistener, Bool.or_false]

/-- Nobody asks for a stop at any time. -/
theorem Undisturbed.step_stopAsked (hu : plan.Undisturbed) (hl : l.stopAsked = false)
    (h : plan.Step l m) : m.stopAsked = false := by
  cases h with
  | check =>
    rw [hu.check_eq hl]
    exact hl
  | report => exact hu.report_stopAsked hl
  | attempt program _ _ h =>
    obtain ⟨result, -, rfl⟩ := attempt_cases h
    unfold Ledger.reportIfDue
    split
    · exact hu.report_stopAsked hl
    · exact hl

theorem Undisturbed.stopAsked (hu : plan.Undisturbed) (hl : l.stopAsked = false)
    {outcome : Except Level.StartFault Ledger} (h : plan.Yields l outcome) (hm : outcome = .ok m) :
    m.stopAsked = false := by
  rw [hm] at h
  exact Leads.invariant hu.step_stopAsked h hl

/-! ## One by one

  To try a list of programs without any check between them is what both searches are compared with. -/

/-- An attempt does not look at the number of checks. -/
theorem attempt_recount (plan : Plan) (program : Program) (k : Nat) (l : Ledger) :
    plan.attempt program (l.recount k) = (plan.attempt program l).map (Ledger.recount k) := by
  unfold attempt
  cases plan.judge program with
  | error fault => rfl
  | ok result =>
    exact congrArg Except.ok
      (Ledger.reportIfDue_recount plan.listener plan.every k (l.enter ⟨program, result⟩))

/-- Nor do many attempts. -/
theorem attemptEach_recount (plan : Plan) :
    ∀ (programs : List Program) (k : Nat) (l : Ledger),
      plan.attemptEach programs (l.recount k) = (plan.attemptEach programs l).map (Ledger.recount k) := by
  intro programs
  induction programs with
  | nil => exact fun k l => rfl
  | cons program rest ih =>
    intro k l
    unfold attemptEach
    -- both have solved the level, or neither
    by_cases hs : l.solved = true
    · rw [if_pos hs, if_pos (show (l.recount k).solved = true from hs)]
      cases plan.judge program with
      | error fault => rfl
      | ok result => rfl
    · rw [if_neg hs, if_neg (show ¬ (l.recount k).solved = true from hs), attempt_recount]
      cases plan.attempt program l with
      | error fault => rfl
      | ok m => exact ih k m

/-- Workers and checks have no part in trying programs one by one. -/
theorem attemptEach_calm (plan : Plan) :
    ∀ (programs : List Program) (l : Ledger),
      plan.calm.attemptEach programs l = plan.attemptEach programs l := by
  intro programs
  induction programs with
  | nil => exact fun l => rfl
  | cons program rest ih =>
    intro l
    unfold attemptEach
    rw [show plan.calm.attemptEach rest = plan.attemptEach rest from funext ih]
    rfl

/-- Once the level is solved nothing is entered any more. -/
theorem Sure.attemptEach_of_solved (hsure : plan.Sure) (hs : l.solved = true)
    (programs : List Program) : plan.attemptEach programs l = .ok l := by
  cases programs with
  | nil => rfl
  | cons program rest =>
    obtain ⟨result, hresult⟩ := hsure program
    rw [attemptEach, if_pos hs, hresult]
    rfl

/-- Some programs after others. -/
theorem Sure.attemptEach_append (hsure : plan.Sure) (others : List Program) :
    ∀ (programs : List Program) (l : Ledger),
      plan.attemptEach (programs ++ others) l
        = plan.attemptEach programs l >>= plan.attemptEach others := by
  intro programs
  induction programs with
  | nil => exact fun l => rfl
  | cons program rest ih =>
    intro l
    by_cases hs : l.solved = true
    · rw [hsure.attemptEach_of_solved hs, hsure.attemptEach_of_solved hs]
      exact (hsure.attemptEach_of_solved hs others).symm
    · rw [List.cons_append, attemptEach, attemptEach, if_neg hs, if_neg hs]
      cases plan.attempt program l with
      | error fault => rfl
      | ok m => exact ih m

/-- Every program counts until one solves the level. -/
theorem attemptEach_attempts :
    ∀ {programs : List Program} {l m : Ledger}, plan.attemptEach programs l = .ok m →
      m.solved = false → m.attempts = l.attempts + programs.length := by
  intro programs
  induction programs with
  | nil =>
    intro l m h _
    cases h
    rfl
  | cons program rest ih =>
    intro l m h hopen
    unfold attemptEach at h
    split at h
    · rename_i hs
      -- a level that is solved stays solved
      cases hj : plan.judge program with
      | error fault =>
        rw [hj] at h
        cases h
      | ok result =>
        rw [hj] at h
        cases h
        rw [hs] at hopen
        cases hopen
    · obtain ⟨next, hnext, h⟩ := bind_eq_ok h
      have hfirst := attempt_attempts hnext
      have hrest := ih h hopen
      rw [List.length_cons]
      omega

/-! ## Chunk by chunk

  By induction on the programs that are left: a chunk, and then what is left of them with what is left of
  the attempts. -/

/-- A chunk that does not solve the level leaves as many attempts as it leaves of those before it. -/
theorem take_left {pending : List Program} {n : Nat}
    (hm : plan.attemptEach (pending.take n) l = .ok m) (hopen : m.solved = false) :
    (pending.drop n).take (plan.maxAttempts - m.attempts)
      = (pending.drop n).take (plan.maxAttempts - l.attempts - n) := by
  have hcount := attemptEach_attempts hm hopen
  rw [List.length_take] at hcount
  by_cases hlen : n ≤ pending.length
  · congr 1
    omega
  · rw [List.drop_eq_nil_of_le (by omega), List.take_nil, List.take_nil]

/-- **Chunks make no difference**: as many of the pending programs as there are attempts left are tried,
one by one. -/
theorem attemptAll_alike (hu : plan.Undisturbed) (hsure : plan.Sure) (pending : List Program)
    (l : Ledger) (hl : l.stopAsked = false) :
    Alike (plan.attemptAll pending l)
      (plan.attemptEach (pending.take (plan.maxAttempts - l.attempts)) l) := by
  rw [attemptAll_eq, hu.check_eq hl]
  dsimp only
  split
  · rename_i hdone
    rcases hdone with rfl | hs
    · rw [List.take_nil]
      exact Alike.refl _
    · rw [hsure.attemptEach_of_solved hs]
      exact Alike.refl _
  · rename_i hmore
    split
    · rename_i hnone
      rw [hnone, List.take_zero]
      exact alike_recount _ (.ok l)
    · rename_i hsome
      have hshort := plan.chunk_shortens (not_or.1 hmore).1 hsome
      have hn : min (plan.maxAttempts - l.attempts) plan.chunk ≤ plan.maxAttempts - l.attempts :=
        Nat.min_le_left _ _
      generalize min (plan.maxAttempts - l.attempts) plan.chunk = n at hshort hn ⊢
      -- the attempts that are left are those of this chunk and those behind it
      have hcut : pending.take (plan.maxAttempts - l.attempts)
          = pending.take n ++ (pending.drop n).take (plan.maxAttempts - l.attempts - n) := by
        rw [← List.take_add]
        congr 1
        omega
      rw [hcut, hsure.attemptEach_append, attemptEach_recount]
      refine Alike.bind (alike_recount _ _) fun m hm k => ?_
      have hstop : m.stopAsked = false := by
        refine hu.stopAsked hl (attemptEach_yields (pending.take n) l ?_) hm
        rw [List.length_take]
        omega
      refine (attemptAll_alike hu hsure (pending.drop n) (m.recount k) hstop).trans ?_
      rw [attemptEach_recount]
      refine (alike_recount k _).trans ?_
      by_cases hs : m.solved = true
      · rw [hsure.attemptEach_of_solved hs, hsure.attemptEach_of_solved hs]
        exact Alike.refl _
      · have hleft := take_left hm (Bool.eq_false_iff.2 hs)
        rw [show (m.recount k).attempts = m.attempts from rfl, hleft]
        exact Alike.refl _
termination_by pending.length

theorem attemptAll_calm (hu : plan.Undisturbed) (hsure : plan.Sure) (pending : List Program) (k : Nat)
    (hl : l.stopAsked = false) :
    Alike (plan.calm.attemptAll pending (l.recount k)) (plan.attemptAll pending l) := by
  have hcalm := attemptAll_alike hu.calm hsure pending (l.recount k) hl
  rw [attemptEach_calm, attemptEach_recount] at hcalm
  exact (hcalm.trans (alike_recount k _)).trans (attemptAll_alike hu hsure pending l hl).symm

/-! ## Whole searches

  The two searches go side by side, with the same books up to the number of checks at every place. -/

/-- Layer by layer.  What is kept of a layer depends on what has been entered, which is the same. -/
theorem beam_calm (hu : plan.Undisturbed) (hsure : plan.Sure) :
    ∀ (layers : Nat) (frontier : List Program) (k : Nat) {l : Ledger}, l.stopAsked = false →
      Alike (plan.calm.beam layers frontier (l.recount k)) (plan.beam layers frontier l) := by
  intro layers
  induction layers with
  | zero => exact fun frontier k l _ => alike_recount k (.ok l)
  | succ layers ih =>
    intro frontier k l hl
    unfold beam
    refine Alike.bind (attemptAll_calm hu hsure _ k hl) fun after hafter c => ?_
    have hstop := hu.stopAsked hl (attemptAll_yields _ l) hafter
    -- the questions between two layers do not ask for the checks
    show Alike
      (if after.solved || decide (after.attempts < l.attempts + (plan.children frontier).length) then
        pure (after.recount c)
      else if (plan.keep (after.since l)).isEmpty then pure (after.recount c)
      else plan.calm.beam layers (plan.keep (after.since l)) (after.recount c))
      (if after.solved || decide (after.attempts < l.attempts + (plan.children frontier).length) then
        pure after
      else if (plan.keep (after.since l)).isEmpty then pure after
      else plan.beam layers (plan.keep (after.since l)) after)
    split
    · exact alike_recount c (.ok after)
    · split
      · exact alike_recount c (.ok after)
      · exact ih _ c hstop

theorem attempt_calm (plan : Plan) (program : Program) (k : Nat) (l : Ledger) :
    Alike (plan.calm.attempt program (l.recount k)) (plan.attempt program l) := by
  show Alike (plan.attempt program (l.recount k)) _
  rw [attempt_recount]
  exact alike_recount k _

/-- Round by round, with the same dice. -/
theorem walk_calm {σ : Type} (hu : plan.Undisturbed) (dice : Dice σ) :
    ∀ (rounds : Nat) (current : Program) (s : σ) (k : Nat) {l : Ledger}, l.stopAsked = false →
      Alike (plan.calm.walk dice rounds current s (l.recount k)) (plan.walk dice rounds current s l) := by
  intro rounds
  induction rounds with
  | zero => exact fun current s k l _ => alike_recount k (.ok l)
  | succ rounds ih =>
    intro current s k l hl
    unfold walk
    by_cases hs : l.solved = true
    · rw [if_pos hs, if_pos (show (l.recount k).solved = true from hs)]
      exact alike_recount k (.ok l)
    · rw [if_neg hs, if_neg (show ¬ (l.recount k).solved = true from hs), hu.check_eq hl,
        hu.calm.check_eq (show (l.recount k).stopAsked = false from hl)]
      dsimp only
      -- both checks allow the attempts that are left
      by_cases ha : plan.maxAttempts - l.attempts = 0
      · rw [if_pos ha, if_pos (show plan.calm.maxAttempts - (l.recount k).attempts = 0 from ha)]
        exact alike_recount _ (.ok (l.recount _))
      · rw [if_neg ha, if_neg (show ¬ plan.calm.maxAttempts - (l.recount k).attempts = 0 from ha)]
        have hstop : (l.recount (l.checks + 1)).stopAsked = false := hl
        show Alike
          (if plan.maxDepth < (mutate dice plan.actions current s).1.length then _ else _) _
        split
        · exact ih _ _ (k + 1) hstop
        · refine Alike.bind (attempt_calm plan _ (k + 1) (l.recount (l.checks + 1)))
            fun m hm c => ih _ _ c ?_
          -- the attempt is one of those that are left
          have hopen : (l.recount (l.checks + 1)).solved = false := Bool.eq_false_iff.2 hs
          have hleft : (l.recount (l.checks + 1)).attempts < plan.maxAttempts := by
            show l.attempts < plan.maxAttempts
            omega
          exact hu.stopAsked hstop (attempt_yields _ hopen hleft) hm

/-- The empty program comes first in both. -/
theorem attemptEmpty_calm (hu : plan.Undisturbed) (k : Nat) (hl : l.stopAsked = false) :
    Alike (plan.calm.attemptEmpty (l.recount k)) (plan.attemptEmpty l) := by
  unfold attemptEmpty
  rw [hu.check_eq hl, hu.calm.check_eq (show (l.recount k).stopAsked = false from hl)]
  dsimp only
  by_cases ha : plan.maxAttempts - l.attempts = 0
  · rw [if_pos ha, if_pos (show plan.calm.maxAttempts - (l.recount k).attempts = 0 from ha)]
    exact alike_recount _ (.ok (l.recount _))
  · rw [if_neg ha, if_neg (show ¬ plan.calm.maxAttempts - (l.recount k).attempts = 0 from ha)]
    exact attempt_calm plan [] (k + 1) (l.recount (l.checks + 1))

/-- What follows is the same kind of search in both. -/
theorem goOn_calm {σ : Type} (hu : plan.Undisturbed) (hsure : plan.Sure) (strategy : Strategy)
    (around : Circumstances σ) (k : Nat) (hl : l.stopAsked = false) :
    Alike (plan.calm.goOn strategy around (l.recount k)) (plan.goOn strategy around l) := by
  unfold goOn
  show Alike (if plan.actions.isEmpty || l.solved then .ok (l.recount k) else _) _
  split
  · exact alike_recount k (.ok l)
  · cases strategy with
    | beam => exact beam_calm hu hsure plan.maxDepth [[]] k hl
    | random => exact walk_calm hu around.dice around.rounds [] around.seeded k hl

/-- An undisturbed search keeps the books of the search that judges one program at a time. -/
theorem run_calm {σ : Type} (hu : plan.Undisturbed) (hsure : plan.Sure) (strategy : Strategy)
    (around : Circumstances σ) (hopen : l.solved = false) (hl : l.stopAsked = false) :
    Alike (plan.calm.run strategy around l) (plan.run strategy around l) := by
  unfold run
  refine Alike.bind (attemptEmpty_calm hu l.checks hl) fun m hm k => ?_
  have hstop := hu.stopAsked hl (attemptEmpty_yields hopen) hm
  refine Alike.bind (goOn_calm hu hsure strategy around k hstop) fun last _ c => ?_
  show Alike (.ok ((last.recount c).report plan.listener)) (.ok (last.report plan.listener))
  rw [Ledger.report_recount]
  exact alike_recount c (.ok _)

/-- Where all programs can be judged a search returns. -/
theorem Sure.run_ok {σ : Type} (hsure : plan.Sure) (strategy : Strategy) (around : Circumstances σ)
    (hopen : l.solved = false) : ∃ m, plan.run strategy around l = .ok m := by
  have hyields := run_yields plan strategy around hopen
  cases hrun : plan.run strategy around l with
  | ok m => exact ⟨m, rfl⟩
  | error fault =>
    rw [hrun] at hyields
    obtain ⟨program, hjudge⟩ := hyields
    obtain ⟨result, hresult⟩ := hsure program
    rw [hresult] at hjudge
    cases hjudge

/-- The empty program is tried first, so a search in which it cannot be judged fails at once. -/
theorem Undisturbed.run_error {σ : Type} (hu : plan.Undisturbed) {fault : Level.StartFault}
    (hjudge : plan.judge [] = .error fault) (strategy : Strategy) (around : Circumstances σ)
    (hl : l.stopAsked = false) (hleft : l.attempts < plan.maxAttempts) :
    plan.run strategy around l = .error fault := by
  have hsome : ¬ plan.maxAttempts - l.attempts = 0 := by omega
  have hempty : plan.attemptEmpty l = .error fault := by
    unfold attemptEmpty
    rw [hu.check_eq hl]
    dsimp only
    rw [if_neg hsome, attempt, hjudge]
    rfl
  rw [run, hempty]
  rfl

end Plan

/-! ## Any number of workers

  On a level that can be started every program can be judged, and on any other level none.  So a fault is
  met at the very first program. -/

section Levels

variable {σ : Type} {level : Level}

/-- On a level that can be started, every program can be judged. -/
theorem planOf_sure (hh : Simulation.Headed level.spawner) {options : Options}
    {evaluation : Evaluation.Options} {around : Circumstances σ} {s : Simulation.State}
    (hstart : level.start (evaluation.maxTicks.getD Simulation.defaultMaxSteps) = .ok s) :
    (planOf level options evaluation around).Sure := by
  intro program
  cases hjudge : Evaluation.evaluate program level evaluation with
  | ok result => exact ⟨result, hjudge⟩
  | error fault =>
    rw [Evaluation.evaluate_error_iff hh, hstart] at hjudge
    cases hjudge

/-- On a level that cannot be started a search fails with its fault. -/
theorem conduct_of_no_start (hh : Simulation.Headed level.spawner) {options : Options}
    {evaluation : Evaluation.Options} {around : Circumstances σ} (hstopped : around.stopped = false)
    (hu : (planOf level options evaluation around).Undisturbed) {fault : Level.StartFault}
    (hstart : level.start (evaluation.maxTicks.getD Simulation.defaultMaxSteps) = .error fault) :
    conduct level options evaluation around = .error fault := by
  have hleft : 0 < (planOf level options evaluation around).maxAttempts :=
    budget_pos (by decide) options.maxAttempts
  exact hu.run_error ((Evaluation.evaluate_error_iff hh [] evaluation fault).2 hstart)
    options.strategy around hstopped hleft

/-- **The number of workers makes no difference**: two undisturbed searches that differ in it, and in how
the time passes, return the same books but for the number of checks.  So the records, the best one, the
attempts, the reports, and whether the level is solved, are the same.  On a level that cannot be
started, both fail with its fault.

Every level that has been read has headings (`Level.headed_ofJson`).  Without them a robot that enters
late is a fault, and several workers may meet it in the program behind the one that solves the level. -/
theorem conduct_workers (hh : Simulation.Headed level.spawner) (options : Options)
    (evaluation : Evaluation.Options) (around : Circumstances σ) (hstopped : around.stopped = false)
    (n m : Int) (watch : Watch)
    (hu : (planOf level options evaluation around).Undisturbed)
    (hu' : (planOf level options evaluation { around with watch }).Undisturbed) :
    (∃ l k, conduct level { options with workers := n } evaluation around = .ok l ∧
      conduct level { options with workers := m } evaluation { around with watch }
        = .ok (l.recount k)) ∨
    ∃ fault, level.start (evaluation.maxTicks.getD Simulation.defaultMaxSteps) = .error fault ∧
      conduct level { options with workers := n } evaluation around = .error fault ∧
      conduct level { options with workers := m } evaluation { around with watch }
        = .error fault := by
  have hun : (planOf level { options with workers := n } evaluation around).Undisturbed :=
    ⟨hu.unasked, hu.inTime, hu.unheard⟩
  have hstopped' : ({ around with watch } : Circumstances σ).stopped = false := hstopped
  have hum : (planOf level { options with workers := m } evaluation
      { around with watch }).Undisturbed := ⟨hu'.unasked, hu'.inTime, hu'.unheard⟩
  cases hstart : level.start (evaluation.maxTicks.getD Simulation.defaultMaxSteps) with
  | error fault =>
    have hn := conduct_of_no_start hh hstopped hun hstart
    have hm := conduct_of_no_start hh hstopped' hum hstart
    exact Or.inr ⟨fault, rfl, hn, hm⟩
  | ok s =>
    have hsn : (planOf level { options with workers := n } evaluation around).Sure :=
      planOf_sure hh hstart
    have hsm : (planOf level { options with workers := m } evaluation { around with watch }).Sure :=
      planOf_sure hh hstart
    have hstop : ({ stopAsked := around.stopped } : Ledger).stopAsked = false := hstopped
    obtain ⟨l, hl⟩ := hsn.run_ok options.strategy around (l := { stopAsked := around.stopped }) rfl
    -- both keep the books of the same calm search
    have hcalm := Plan.run_calm hun hsn options.strategy around rfl hstop
    have hcalm' := Plan.run_calm hum hsm options.strategy { around with watch } rfl hstop
    have halike := hcalm'.symm.trans hcalm
    rw [hl] at halike
    obtain ⟨k, hk⟩ := halike.recounted
    exact Or.inl ⟨l, k, hl, hk⟩

end Levels

open Evaluation (doorstep)

/-- Three steps to try, the second of which solves the level. -/
def threeSteps : Options := { actions := [.turnLeft, .moveForward, .wait] }

/-- Somebody listens and nobody is in a hurry. -/
def unhurried : Circumstances Unit :=
  { listener := some fun _ => false, watch := .still, dice := ⟨fun s => (0, s), fun _ s => (0, s),
    fun _ _ h => h⟩, seeded := (), stopped := false, rounds := 9 }

/-- In these circumstances nothing disturbs a search, on any watch that stays within the time. -/
theorem undisturbed_unhurried (level : Level) (options : Options) (evaluation : Evaluation.Options)
    {watch : Watch} (hunasked : ∀ k, (watch k).stopAsked = false)
    (htime : ∀ k, (watch k).elapsedMs < options.timeMs) :
    (planOf level options evaluation { unhurried with watch }).Undisturbed := by
  refine ⟨hunasked, htime, fun hear hhear r => ?_⟩
  cases hhear
  rfl

/-- Three workers judge all steps after a single check; the third is not entered any more. -/
theorem conduct_workers_chunk :
    ∃ l, conduct doorstep { threeSteps with workers := 1 } {} unhurried = .ok l ∧
      conduct doorstep { threeSteps with workers := 3 } {}
        { unhurried with watch := fun k => { elapsedMs := min k 1499 } } = .ok (l.recount 2) ∧
      (l.solved, l.attempts, l.checks) = (true, 3, 3) := by
  have hone : ((conduct doorstep { threeSteps with workers := 1 } {} unhurried).map fun l =>
      (l.solved, l.attempts, l.checks)).toOption = some (true, 3, 3) := by decide +kernel
  have hthree : ((conduct doorstep { threeSteps with workers := 3 } {}
      { unhurried with watch := fun k => { elapsedMs := min k 1499 } }).map Ledger.checks).toOption
        = some 2 := by decide +kernel
  have hu : (planOf doorstep threeSteps {} unhurried).Undisturbed :=
    undisturbed_unhurried _ _ _ (fun _ => rfl) fun _ => show 0 < 1500 by decide
  have hu' : (planOf doorstep threeSteps {}
      { unhurried with watch := fun k => { elapsedMs := min k 1499 } }).Undisturbed := by
    refine undisturbed_unhurried _ _ _ (fun _ => rfl) fun k => ?_
    show min k 1499 < 1500
    omega
  -- the two may differ in the number of checks, which is counted for both
  rcases conduct_workers (by decide) threeSteps {} unhurried rfl 1 3 _ hu hu' with
    ⟨l, k, hl, hk⟩ | ⟨fault, -, hl, -⟩
  · rw [hl] at hone
    rw [hk] at hthree
    have hchecks : k = 2 := Option.some.inj hthree
    rw [hchecks] at hk
    exact ⟨l, hl, hk, Option.some.inj hone⟩
  · rw [hl] at hone
    cases hone

end Search

end RobotPuzzle
