/-
  What a listener hears of a search.

  1. **The last thing a search does** (`Proceeds.books_cases`, `Passes.ends`) — before its end a search
     only makes checks and enters programs; then it reports once.  What checks and entries keep therefore
     holds just before that report.
  2. **The rhythm** (`multiples`) — a report is due whenever the attempts have come to a multiple of the
     interval, and one more attempt makes one more multiple, or none.
  3. **True accounts** (`Accounts`) — a report tells of the leader of those records that were there when it
     was made.  Later records do not change which these were, so every report stays true.
  4. **Regular books** (`Regular.attempt`) — an entry keeps the rhythm and the accounts, in a chunk as
     elsewhere.  That the scores never fall needs no invariant of its own: the leader of more records is no
     worse (`Standing.le`), even where the first program that solves the level takes the lead unasked.
  5. **The search** (`conduct_coherent`).

  The crux is that a report is about records that stay where they are: the latest record comes in front,
  so those that were there at some time are the last so many.  What a report says is thereby a statement
  about the books at the end, and entries need not be followed one by one.

  A listener may ask for a stop at any report, and what it hears up to then is what the theorem is about;
  so the listener is a parameter of all of it.  Reports are made at multiples of a number, within a chunk
  as well as between chunks, and once more at the end.  That the last one is what is returned is what lets
  a listener take the last report for the result.
-/
import RobotPuzzle.Proofs.BestTried
import RobotPuzzle.Proofs.Stages
import RobotPuzzle.Proofs.Workers

namespace RobotPuzzle

namespace Search

/-! ## The last thing a search does

  Of the many rules for steps only a few things matter here: whether the books change, and whether it is
  the end.  A listener hears nothing in between, except where an attempt is entered. -/

namespace Plan

variable {σ : Type} {plan : Plan} {strategy : Strategy} {around : Circumstances σ}

theorem firstStage_quiet (plan : Plan) (strategy : Strategy) (around : Circumstances σ) (l : Ledger) :
    plan.firstStage strategy around l ≠ .over ∧ (plan.firstStage strategy around l).judged = [] := by
  unfold firstStage
  split
  · exact ⟨nofun, rfl⟩
  · cases strategy <;> exact ⟨nofun, rfl⟩

theorem nextStage_quiet (plan : Plan) (depth : Nat) (frontier : List Program) (before l : Ledger) :
    (plan.nextStage depth frontier before l : Stage σ) ≠ .over ∧
      (plan.nextStage depth frontier before l : Stage σ).judged = [] := by
  unfold nextStage
  split
  · exact ⟨nofun, rfl⟩
  · split <;> exact ⟨nofun, rfl⟩

/-- What a step comes to: it leaves the books alone, makes a check, enters the first of the programs that
are being judged, or reports at the very end. -/
inductive Acts (plan : Plan) : Stage σ × Ledger → Stage σ × Ledger → Prop
  /-- the books stay as they are, and nothing is waiting to be entered then -/
  | quiet {stage stage' l} (hgoing : stage' ≠ .over) (hdone : l.solved = true ∨ stage.judged = [])
      (hnone : stage'.judged = []) : Acts plan (stage, l) (stage', l)
  /-- a check, after which programs are under way only if it has allowed some -/
  | check {stage stage' l} (hgoing : stage' ≠ .over) (hdone : stage.judged = [])
      (hallowed : (plan.check l).2 ≠ 0 ∨ stage'.judged = []) :
      Acts plan (stage, l) (stage', (plan.check l).1)
  /-- the first program under way is entered, and the others wait -/
  | enter {stage stage' l m} (hgoing : stage' ≠ .over) (hopen : l.solved = false) (program : Program)
      (hjudged : stage.judged = program :: stage'.judged) (h : plan.attempt program l = .ok m) :
      Acts plan (stage, l) (stage', m)
  /-- the last report -/
  | report {l} : Acts plan (.closing, l) (.over, l.report plan.listener)

/-- Every step is one of the four. -/
theorem Proceeds.acts {x y : Stage σ × Ledger} (h : plan.Proceeds strategy around x y) :
    plan.Acts x y := by
  cases h with
  | setOut hallowed => exact .check nofun rfl (Or.inl hallowed)
  | judge _ _ hallowed => exact .check nofun rfl (Or.inl hallowed)
  | change _ hallowed => exact .check nofun rfl (Or.inl hallowed)
  | overshoot => exact .check nofun rfl (Or.inr rfl)
  | halt => exact .check nofun rfl (Or.inr rfl)
  | skip =>
    -- the stage that follows has just begun, so nothing waits to be entered there
    obtain ⟨hgoing, hnone⟩ := plan.firstStage_quiet strategy around _
    exact .check hgoing rfl (Or.inr hnone)
  | cutOff =>
    obtain ⟨hgoing, hnone⟩ := plan.nextStage_quiet _ _ _ _
    exact .check hgoing rfl (Or.inr hnone)
  | leave =>
    obtain ⟨hgoing, hnone⟩ := plan.nextStage_quiet _ _ _ _
    exact .quiet hgoing (Or.inr rfl) hnone
  | lengthen | deepest | finish | rest => exact .quiet nofun (Or.inr rfl) rfl
  | drop hsolved => exact .quiet nofun (Or.inl hsolved) rfl
  | begin hopen h =>
    obtain ⟨hgoing, hnone⟩ := plan.firstStage_quiet strategy around _
    exact .enter hgoing hopen _ (by rw [hnone]; rfl) h
  | enter hopen h => exact .enter nofun hopen _ rfl h
  | walk hopen h => exact .enter nofun hopen _ rfl h
  | close => exact .report

/-- What checks and entries keep holds of the books just before the last report. -/
theorem Passes.ends {P : Ledger → Prop} (hcheck : ∀ l, P l → P (plan.check l).1)
    (hattempt : ∀ {l m : Ledger} {program : Program}, P l → l.solved = false →
      plan.attempt program l = .ok m → P m)
    {l m : Ledger} (h : plan.Passes strategy around (.opening, l) (.over, m)) (hl : P l) :
    ∃ last, P last ∧ m = last.report plan.listener := by
  -- on the way to the end the books have the property, and at the end they have it but for the
  -- report
  have hkeeps : ∀ {x y : Stage σ × Ledger},
      (x.1 ≠ .over → P x.2) ∧ (x.1 = .over → ∃ last, P last ∧ x.2 = last.report plan.listener) →
      plan.Proceeds strategy around x y →
      (y.1 ≠ .over → P y.2) ∧ (y.1 = .over → ∃ last, P last ∧ y.2 = last.report plan.listener) := by
    intro x y hx hstep
    -- nothing proceeds from the end
    have hgoing : x.1 ≠ .over := by
      intro hover
      obtain ⟨stage, books⟩ := x
      cases hover
      exact not_proceeds_over hstep
    have hP := hx.1 hgoing
    cases hstep.acts with
    | quiet hgoing' => exact ⟨fun _ => hP, fun hover => absurd hover hgoing'⟩
    | check hgoing' => exact ⟨fun _ => hcheck _ hP, fun hover => absurd hover hgoing'⟩
    | enter hgoing' hopen program _ h =>
      exact ⟨fun _ => hattempt hP hopen h, fun hover => absurd hover hgoing'⟩
    | report => exact ⟨fun hgoing' => absurd rfl hgoing', fun _ => ⟨_, hP, rfl⟩⟩
  exact (Passes.invariant hkeeps h ⟨fun _ => hl, nofun⟩).2 rfl

end Plan

/-! ## The rhythm

  The books keep the number of attempts at which the last report was made, and a report is due an interval
  after it.  As every attempt is looked at, this number is always a multiple. -/

/-- The positive multiples of `k` up to `n`, in order. -/
def multiples (k n : Nat) : List Nat := (List.range (n / k)).map fun i => (i + 1) * k

section Rhythm

variable {k n : Nat}

theorem multiples_zero (k : Nat) : multiples k 0 = [] := by
  rw [multiples, Nat.zero_div]
  rfl

/-- Where a report is due, the number of attempts is the next multiple. -/
theorem div_of_due (hk : 0 < k) (hdue : n / k * k + k ≤ n + 1) :
    (n + 1) / k = n / k + 1 ∧ (n / k + 1) * k = n + 1 := by
  have hbelow : n < n / k * k + k := Nat.lt_div_mul_add hk
  have hnext : (n / k + 1) * k = n + 1 := by
    rw [Nat.succ_mul]
    omega
  refine ⟨?_, hnext⟩
  rw [← hnext, Nat.mul_div_cancel _ hk]

/-- Where a report is due there is one more multiple, and it is that number of attempts. -/
theorem multiples_of_due (hk : 0 < k) (hdue : n / k * k + k ≤ n + 1) :
    multiples k (n + 1) = multiples k n ++ [n + 1] := by
  obtain ⟨hcount, hnext⟩ := div_of_due hk hdue
  rw [multiples, hcount, List.range_succ, List.map_append, List.map_singleton, hnext]
  rfl

theorem div_of_not_due (hdue : ¬ n / k * k + k ≤ n + 1) : (n + 1) / k = n / k := by
  have habove : n / k * k ≤ n := Nat.div_mul_le_self n k
  refine Nat.div_eq_of_lt_le (by omega) ?_
  rw [Nat.succ_mul]
  omega

theorem multiples_of_not_due (hdue : ¬ n / k * k + k ≤ n + 1) :
    multiples k (n + 1) = multiples k n := by
  rw [multiples, div_of_not_due hdue]
  rfl

/-- The multiples rise, up to the number itself. -/
theorem multiples_sorted (k n : Nat) : (multiples k n ++ [n]).Pairwise (· ≤ ·) := by
  refine List.pairwise_append.2 ⟨?_, List.pairwise_singleton _ _, fun a ha b hb => ?_⟩
  · refine List.pairwise_map.2 (List.pairwise_lt_range.imp fun hlt => ?_)
    exact Nat.mul_le_mul_right k (Nat.succ_le_succ (Nat.le_of_lt hlt))
  · obtain ⟨i, hi, rfl⟩ := List.mem_map.1 ha
    rw [List.mem_singleton.1 hb]
    calc (i + 1) * k ≤ n / k * k := Nat.mul_le_mul_right k (List.mem_range.1 hi)
      _ ≤ n := Nat.div_mul_le_self n k

end Rhythm

/-! ## True accounts

  A report names what was best when it was made, and how many attempts there had been.  That number is
  enough to find the records that were there. -/

/-- What is said to be best is the leader of the records, if there are any. -/
def Standing (records : List Record) : Option Record → Prop
  | none => records = []
  | some b => Leader b records

/-- In faithful books the best is the leader. -/
theorem Faithful.standing {judge : Program → Except Level.StartFault Evaluation.Result} {l : Ledger}
    (hl : Faithful judge l) : Standing l.records l.best := by
  by_cases hnone : l.records = []
  · rw [(hl.empty hnone).1]
    exact hnone
  · obtain ⟨b, hbest, -, -, hlead, -⟩ := hl.best hnone
    rw [hbest]
    exact hlead

/-- The leader of more records is no worse. -/
theorem Standing.le {records more : List Record} {best best' : Option Record} (hsub : records ⊆ more)
    (h : Standing records best) (h' : Standing more best') {b : Record} (hb : best = some b) :
    ∃ c, best' = some c ∧ b.result.score ≤ c.result.score := by
  subst hb
  have hmem : b ∈ more := hsub (Leader.mem h)
  cases best' with
  | none =>
    rw [show more = [] from h'] at hmem
    cases hmem
  | some c => exact ⟨c, rfl, Leader.score_le h' b hmem⟩

namespace Ledger

/-- The records that were there after so many attempts. -/
def upTo (l : Ledger) (attempts : Nat) : List Record := l.records.drop (l.attempts - attempts)

/-- Every report tells of the leader of the records that were there. -/
def Accounts (l : Ledger) : Prop :=
  ∀ r ∈ l.reports, r.attempts ≤ l.attempts ∧ Standing (l.upTo r.attempts) r.best

variable {l : Ledger}

theorem upTo_attempts (l : Ledger) : l.upTo l.attempts = l.records := by
  rw [upTo, Nat.sub_self, List.drop_zero]

theorem upTo_mono {i j : Nat} (h : i ≤ j) : l.upTo i ⊆ l.upTo j :=
  List.drop_subset_drop_left _ (Nat.sub_le_sub_left h _)

/-- A further record does not change which records were there. -/
theorem upTo_enter {r : Record} {attempts : Nat} (h : attempts ≤ l.attempts) :
    (l.enter r).upTo attempts = l.upTo attempts := by
  show (r :: l.records).drop (l.attempts + 1 - attempts) = _
  rw [Nat.succ_sub h, List.drop_succ_cons]
  rfl

theorem Accounts.of_eq {m : Ledger} (hl : l.Accounts) (hsame : l.SameTrials m)
    (hreports : m.reports = l.reports) : m.Accounts := by
  intro r hr
  rw [hreports] at hr
  rw [upTo, hsame.records, hsame.attempts]
  exact hl r hr

theorem Accounts.enter (hl : l.Accounts) (r : Record) : (l.enter r).Accounts := by
  intro report hreport
  obtain ⟨hcount, hstanding⟩ := hl report hreport
  exact ⟨Nat.le_succ_of_le hcount, by rw [upTo_enter hcount]; exact hstanding⟩

/-- A report that is made now is true, if what is best is the leader. -/
theorem Accounts.report (hl : l.Accounts) (hbest : Standing l.records l.best)
    (listener : Option Listener) : (l.report listener).Accounts := by
  cases listener with
  | none => exact hl
  | some hear =>
    refine List.forall_mem_cons.2 ⟨⟨Nat.le_refl _, ?_⟩, hl⟩
    show Standing (l.upTo l.attempts) l.best
    rw [upTo_attempts]
    exact hbest

end Ledger

/-! ## Regular books

  A report behind an entry is made of the books with that entry.  So what has to be known first is that
  the books are faithful after the entry, and then the accounts and the rhythm follow. -/

namespace Plan

variable {σ : Type} {plan : Plan} {hear : Listener} {l m : Ledger}

/-- Faithful books in which reports have been made in the rhythm of the plan, and tell the truth. -/
structure Regular (plan : Plan) (l : Ledger) : Prop where
  /-- the books are true -/
  faithful : Faithful plan.judge l
  /-- and so are the reports -/
  accounts : l.Accounts
  /-- there has been a report at each multiple -/
  times : l.reports.reverse.map Report.attempts = multiples plan.every l.attempts
  /-- and the last one was at the last multiple -/
  latest : l.lastReport = l.attempts / plan.every * plan.every

theorem regular_new (plan : Plan) (stopped : Bool) : plan.Regular { stopAsked := stopped } where
  faithful := faithful_new stopped
  accounts := fun _ hr => (nomatch hr)
  times := (multiples_zero plan.every).symm
  latest := by rw [Nat.zero_div, Nat.zero_mul]

/-- A check changes neither the records nor the reports. -/
theorem Regular.check (hl : plan.Regular l) : plan.Regular (plan.check l).1 := by
  have hsame := Ledger.sameTrials_check plan.watch plan.maxTimeMs plan.maxAttempts l
  obtain ⟨hreports, hlatest⟩ := plan.check_reports l
  refine ⟨hl.faithful.of_sameTrials hsame, hl.accounts.of_eq hsame hreports, ?_, ?_⟩
  · rw [hreports, check_attempts]
    exact hl.times
  · rw [hlatest, check_attempts]
    exact hl.latest

/-- **An entry keeps the books regular**: a report is made just when a multiple is reached. -/
theorem Regular.attempt (hfair : plan.Fair) (hevery : 0 < plan.every)
    (hlistener : plan.listener = some hear) {program : Program} (hl : plan.Regular l)
    (hopen : l.solved = false) (h : plan.attempt program l = .ok m) : plan.Regular m := by
  obtain ⟨result, hjudge, rfl⟩ := attempt_cases h
  have henter : Faithful plan.judge (l.enter ⟨program, result⟩) := by
    refine hl.faithful.enter hopen hjudge fun hs x hx => ?_
    exact hfair (hl.faithful.judged x hx) hjudge (hl.faithful.unsolved hopen x hx) hs
  have haccounts := hl.accounts.enter ⟨program, result⟩
  have hfaithful := henter.of_sameTrials (Ledger.sameTrials_reportIfDue plan.listener plan.every _)
  -- the last report was made at the last multiple, so the next one is due at the next multiple
  have hdue : (l.enter ⟨program, result⟩).lastReport + plan.every
        ≤ (l.enter ⟨program, result⟩).attempts ↔
      l.attempts / plan.every * plan.every + plan.every ≤ l.attempts + 1 := by
    rw [← hl.latest]
    rfl
  rw [hlistener] at hfaithful ⊢
  unfold Ledger.reportIfDue at hfaithful ⊢
  split
  · rename_i hnow
    rw [if_pos hnow] at hfaithful
    -- a multiple is reached: one report more, and one multiple more
    obtain ⟨hcount, hnext⟩ := div_of_due hevery (hdue.1 hnow)
    refine ⟨hfaithful, Ledger.Accounts.report (l := { l.enter ⟨program, result⟩ with
      lastReport := (l.enter ⟨program, result⟩).attempts }) haccounts henter.standing _, ?_, ?_⟩
    · show (_ :: l.reports).reverse.map Report.attempts = multiples plan.every (l.attempts + 1)
      rw [List.reverse_cons, List.map_append, hl.times, multiples_of_due hevery (hdue.1 hnow)]
      rfl
    · show l.attempts + 1 = (l.attempts + 1) / plan.every * plan.every
      rw [hcount, hnext]
  · -- no multiple is reached, and nothing is reported
    rename_i hnow
    rw [if_neg hnow] at hfaithful
    refine ⟨hfaithful, haccounts, ?_, ?_⟩
    · show l.reports.reverse.map Report.attempts = multiples plan.every (l.attempts + 1)
      rw [hl.times, multiples_of_not_due (mt hdue.2 hnow)]
    · show l.lastReport = (l.attempts + 1) / plan.every * plan.every
      rw [hl.latest, div_of_not_due (mt hdue.2 hnow)]

/-- Before its last report a search keeps its books regular. -/
theorem Passes.regular {strategy : Strategy} {around : Circumstances σ} {stopped : Bool}
    (hfair : plan.Fair) (hevery : 0 < plan.every) (hlistener : plan.listener = some hear)
    (h : plan.Passes strategy around (.opening, { stopAsked := stopped }) (.over, m)) :
    ∃ last, plan.Regular last ∧ m = last.report plan.listener :=
  h.ends (fun _ hl => hl.check) (fun hl hopen hm => hl.attempt hfair hevery hlistener hopen hm)
    (plan.regular_new stopped)

end Plan

/-! ## The search

  The report at the end is the only one that is out of rhythm, and it may repeat the one before it. -/

/-- What the listener has heard fits together, and fits what is returned. -/
structure Coherent (judge : Program → Except Level.StartFault Evaluation.Result) (every : Nat)
    (l : Ledger) : Prop where
  /-- attempts are records -/
  counted : l.attempts = l.records.length
  /-- there is a report at each multiple, and one at the end -/
  times : l.reports.reverse.map Report.attempts = multiples every l.records.length ++ [l.records.length]
  /-- scores never fall from report to report -/
  rising : l.reports.reverse.Pairwise fun r s =>
    ∀ score, r.score = some score → ∃ score', s.score = some score' ∧ score ≤ score'
  /-- what is shown is what the program that is shown comes to -/
  evaluated : ∀ r ∈ l.reports, 1 ≤ r.attempts → ∃ result, judge r.program = .ok result ∧
    r.score = some result.score ∧ r.trace = some result.trace
  /-- the last report is that of the end -/
  last : ∃ r, l.reports.head? = some r ∧ r.attempts = l.attempts ∧ r.best = l.best

section Levels

variable {judge : Program → Except Level.StartFault Evaluation.Result} {l m : Ledger}

/-- A report on some attempts tells of a best program, which is one of the records. -/
theorem Ledger.Accounts.best (hl : l.Accounts) (hcounted : l.attempts = l.records.length) {r : Report}
    (hr : r ∈ l.reports) (hsome : 1 ≤ r.attempts) : ∃ b ∈ l.records, r.best = some b := by
  obtain ⟨hcount, hstanding⟩ := hl r hr
  cases hbest : r.best with
  | none =>
    rw [hbest] at hstanding
    have hnone : l.records.length ≤ l.attempts - r.attempts := List.drop_eq_nil_iff.1 hstanding
    omega
  | some b =>
    rw [hbest] at hstanding
    exact ⟨b, List.mem_of_mem_drop (Leader.mem hstanding), rfl⟩

/-- A later report is no worse. -/
theorem Ledger.Accounts.rises (hl : l.Accounts) {r s : Report} (hr : r ∈ l.reports) (hs : s ∈ l.reports)
    (hle : r.attempts ≤ s.attempts) {score : Nat} (hscore : r.score = some score) :
    ∃ score', s.score = some score' ∧ score ≤ score' := by
  obtain ⟨b, hb, rfl⟩ := Option.map_eq_some_iff.1 hscore
  obtain ⟨c, hc, hbc⟩ := Standing.le (Ledger.upTo_mono hle) (hl r hr).2 (hl s hs).2 hb
  exact ⟨c.result.score, by rw [Report.score, hc]; rfl, hbc⟩

/-- Regular books are coherent after a report at the end. -/
theorem Plan.Regular.coherent {plan : Plan} (hl : plan.Regular l) (hear : Listener) :
    Coherent plan.judge plan.every (l.report (some hear)) := by
  have hfaithful := hl.faithful.of_sameTrials (Ledger.sameTrials_report (some hear) l)
  have haccounts := hl.accounts.report hl.faithful.standing (some hear)
  -- the multiples, and the number of attempts at the end
  have htimes : (l.report (some hear)).reports.reverse.map Report.attempts
      = multiples plan.every l.attempts ++ [l.attempts] := by
    show (_ :: l.reports).reverse.map Report.attempts = _
    rw [List.reverse_cons, List.map_append, hl.times]
    rfl
  refine ⟨hfaithful.attempts, ?_, ?_, ?_, ⟨_, rfl, rfl, rfl⟩⟩
  · rw [htimes, hl.faithful.attempts]
    rfl
  · -- the reports come in the order of their counts, and later ones show no lower score
    have hsorted := multiples_sorted plan.every l.attempts
    rw [← htimes, List.pairwise_map] at hsorted
    refine hsorted.imp_of_mem fun hr hs hle score hscore => ?_
    exact haccounts.rises (List.mem_reverse.1 hr) (List.mem_reverse.1 hs) hle hscore
  · intro r hr hsome
    -- what a report shows is the entry that was the best of the books at that time
    obtain ⟨b, hb, hbest⟩ := haccounts.best hfaithful.attempts hr hsome
    refine ⟨b.result, ?_, ?_, ?_⟩
    · rw [Report.program, hbest]
      exact hfaithful.judged b hb
    · rw [Report.score, hbest]
      rfl
    · rw [Report.trace, hbest]
      rfl

variable {σ : Type}

/-- On a level that can be started, every search comes to an end. -/
theorem conduct_ok {level : Level} {evaluation : Evaluation.Options}
    (hheaded : Simulation.Headed level.spawner)
    (hstarts : (level.start (evaluation.maxTicks.getD Simulation.defaultMaxSteps)).isOk = true)
    (options : Options) (around : Circumstances σ) :
    ∃ l, conduct level options evaluation around = .ok l := by
  cases hstart : level.start (evaluation.maxTicks.getD Simulation.defaultMaxSteps) with
  | error fault =>
    rw [hstart] at hstarts
    cases hstarts
  | ok s => exact (planOf_sure hheaded hstart).run_ok options.strategy around rfl

variable (level : Level) (options : Options) (evaluation : Evaluation.Options)
  (around : Circumstances σ) (hear : Listener)

/-- **What a listener hears of a search is coherent**, by length or by chance, with any dice, any number of
workers, and wherever time, attempts or a stop ended it.  A search on a level that can be started comes
to an end. -/
theorem conduct_coherent :
    (∀ l, conduct level options evaluation { around with listener := some hear } = .ok l →
      Coherent (fun program => Evaluation.evaluate program level evaluation) options.every l) ∧
    (Simulation.Headed level.spawner →
      (level.start (evaluation.maxTicks.getD Simulation.defaultMaxSteps)).isOk = true →
        ∃ l, conduct level options evaluation { around with listener := some hear } = .ok l) := by
  refine ⟨fun l hl => ?_, fun hheaded hstarts => conduct_ok hheaded hstarts options _⟩
  obtain ⟨last, hregular, rfl⟩ := Plan.Passes.regular (planOf_fair level options evaluation _)
    (budget_pos (by decide) options.progressEvery) rfl ((Plan.run_eq_ok_iff rfl).1 hl)
  exact hregular.coherent hear

end Levels

open Evaluation (doorstep)

/-- Three workers judge the steps at a time; of the two reports the first falls in the middle of them. -/
theorem conduct_coherent_chunk :
    ∃ l, conduct doorstep { threeSteps with workers := 3, progressEvery := some 2 } {} unhurried = .ok l ∧
      Coherent (fun program => Evaluation.evaluate program doorstep {}) 2 l ∧
      l.reports.reverse.map Report.attempts = [2, 3] := by
  obtain ⟨hcoherent, hreturns⟩ := conduct_coherent doorstep
    { threeSteps with workers := 3, progressEvery := some 2 } {} unhurried fun _ => false
  obtain ⟨l, hl⟩ := hreturns (by decide) (by decide +kernel)
  have hheard : ((conduct doorstep { threeSteps with workers := 3, progressEvery := some 2 } {}
      unhurried).map fun l => l.reports.reverse.map Report.attempts).toOption = some [2, 3] := by
    decide +kernel
  have hl' : conduct doorstep { threeSteps with workers := 3, progressEvery := some 2 } {} unhurried
      = .ok l := hl
  rw [hl'] at hheard
  exact ⟨l, hl', hcoherent l hl, Option.some.inj hheard⟩

end Search

end RobotPuzzle
