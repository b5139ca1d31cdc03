/-
  The best of all that was tried.

  1. **The leader** (`Leader`) — the earliest of the records with the highest score.
  2. **Faithful books** (`Faithful`) — every record is what its program comes to, the best one is the
     leader, and a record that solves the level is the last one and the best one.
  3. **One entry** (`Faithful.enter`) — a record takes the lead by a higher score, or by solving the level.
     The two rules never disagree, because every program that solves a level outscores every one that does
     not (`planOf_fair`): the leader of the scores is what both rules keep.
  4. **The search** (`conduct_faithful`) — so wherever a search is stopped, what it returns is true.

  The crux is that a rule which prefers what solves the level, whatever its score, would spoil the order
  of scores if a solution could score less than something else.  It never does (`Plan.Fair`), and that is
  a fact about evaluation, not about the search.

  `Faithful` says it from the records alone, so a reader of what a search returns can check it against
  them: the number of attempts, what each program comes to, which one is best.  Nothing is assumed about
  the watch, the dice, the listener or the number of workers.  In the example the solution is found just
  in time.
-/
import RobotPuzzle.Proofs.Appraisal
import RobotPuzzle.Proofs.Trials

namespace RobotPuzzle

namespace Search

/-! ## The leader

  The records are kept with the latest one in front, so the earliest of the best is the one with nothing
  as good behind it. -/

/-- The earliest of the records with the highest score; the latest records come first. -/
def Leader (b : Record) (records : List Record) : Prop :=
  ∃ later earlier, records = later ++ b :: earlier ∧
    (∀ r ∈ later, r.result.score ≤ b.result.score) ∧ ∀ r ∈ earlier, r.result.score < b.result.score

namespace Leader

variable {b r : Record} {records : List Record}

/-- The leader is one of the records. -/
theorem mem (h : Leader b records) : b ∈ records := by
  obtain ⟨later, earlier, rfl, -, -⟩ := h
  exact List.mem_append_right _ List.mem_cons_self

/-- Nobody scores more than the leader. -/
theorem score_le (h : Leader b records) : ∀ x ∈ records, x.result.score ≤ b.result.score := by
  obtain ⟨later, earlier, rfl, hlater, hearlier⟩ := h
  intro x hx
  rcases List.mem_append.1 hx with hx | hx
  · exact hlater x hx
  · rcases List.mem_cons.1 hx with rfl | hx
    · exact Nat.le_refl _
    · exact Nat.le_of_lt (hearlier x hx)

/-- A record that is no better does not take the lead. -/
theorem stays (h : Leader b records) (hr : r.result.score ≤ b.result.score) :
    Leader b (r :: records) := by
  obtain ⟨later, earlier, rfl, hlater, hearlier⟩ := h
  exact ⟨r :: later, earlier, rfl, List.forall_mem_cons.2 ⟨hr, hlater⟩, hearlier⟩

/-- A record that is better than all before takes the lead. -/
theorem takes (h : ∀ x ∈ records, x.result.score < r.result.score) : Leader r (r :: records) :=
  ⟨[], records, rfl, fun _ hx => (nomatch hx), h⟩

end Leader

/-! ## Faithful books

  The search stops at the first record that solves the level, so entries are made in open books only;
  there no record is solved yet. -/

/-- Books that tell the truth about all that was tried. -/
structure Faithful (judge : Program → Except Level.StartFault Evaluation.Result) (l : Ledger) :
    Prop where
  /-- every attempt is in the records -/
  attempts : l.attempts = l.records.length
  /-- every record is what its program comes to -/
  judged : ∀ r ∈ l.records, judge r.program = .ok r.result
  /-- nothing tried, nothing best, and the empty program to show -/
  empty : l.records = [] → l.best = none ∧ l.program = []
  /-- else the best one is the leader, it is what is shown, and no score is higher -/
  best : l.records ≠ [] → ∃ b, l.best = some b ∧ l.program = b.program ∧
    judge l.program = .ok b.result ∧ Leader b l.records ∧
    ∀ r ∈ l.records, r.result.score ≤ b.result.score
  /-- the books are solved exactly if a record solves the level -/
  solved : l.solved = true ↔ ∃ r ∈ l.records, r.result.solved = true
  /-- such a record is the best one, and nothing was entered after it -/
  last : ∀ r ∈ l.records, r.result.solved = true → l.best = some r ∧ l.records.head? = some r

/-- A program that solves the level outscores every one that does not. -/
def Plan.Fair (plan : Plan) : Prop :=
  ∀ {p q : Program} {a b : Evaluation.Result}, plan.judge p = .ok a → plan.judge q = .ok b →
    a.solved = false → b.solved = true → a.score < b.score

section Entries

variable {judge : Program → Except Level.StartFault Evaluation.Result} {l m : Ledger} {r : Record}

theorem Ledger.program_of_best {b : Record} (h : l.best = some b) : l.program = b.program := by
  rw [Ledger.program, h]
  rfl

/-- New books are faithful. -/
theorem faithful_new (stopped : Bool) : Faithful judge { stopAsked := stopped } where
  attempts := rfl
  judged := fun _ hr => (nomatch hr)
  empty := fun _ => ⟨rfl, rfl⟩
  best := fun h => absurd rfl h
  solved := ⟨fun h => (nomatch h), fun ⟨_, hr, _⟩ => (nomatch hr)⟩
  last := fun _ hr => (nomatch hr)

/-- Books with the same entries are as faithful: checks and reports do not matter. -/
theorem Faithful.of_sameTrials (hl : Faithful judge l) (h : l.SameTrials m) : Faithful judge m := by
  obtain ⟨hrecords, hattempts, hbest, hsolved⟩ := h
  -- the program that is shown is that of the best entry, so it is the same too
  have hprogram : m.program = l.program := by rw [Ledger.program, hbest, Ledger.program]
  constructor
  · rw [hattempts, hrecords]
    exact hl.attempts
  · rw [hrecords]
    exact hl.judged
  · rw [hrecords, hbest, hprogram]
    exact hl.empty
  · rw [hrecords, hbest, hprogram]
    exact hl.best
  · rw [hrecords, hsolved]
    exact hl.solved
  · rw [hrecords, hbest]
    exact hl.last

/-- While the books are open no record solves the level. -/
theorem Faithful.unsolved (hl : Faithful judge l) (hopen : l.solved = false) :
    ∀ x ∈ l.records, x.result.solved = false := by
  intro x hx
  cases hs : x.result.solved with
  | false => rfl
  | true =>
    rw [hl.solved.2 ⟨x, hx, hs⟩] at hopen
    cases hopen

/-- After an entry, the leader of all records is the best one; it is the new one if that solves the
level. -/
theorem Faithful.leads_enter (hl : Faithful judge l) (hopen : l.solved = false)
    (hahead : r.result.solved = true → ∀ x ∈ l.records, x.result.score < r.result.score) :
    ∃ b, (l.enter r).best = some b ∧ Leader b (r :: l.records) ∧ (r.result.solved = true → b = r) := by
  cases ho : l.overtakes r with
  | true =>
    have hbest : (l.enter r).best = some r := by rw [Ledger.enter, if_pos ho]
    refine ⟨r, hbest, Leader.takes fun x hx => ?_, fun _ => rfl⟩
    cases hs : r.result.solved with
    | true => exact hahead hs x hx
    | false =>
      -- it does not solve the level, so its score is higher than the best
      obtain ⟨b, hb, -, -, -, hmax⟩ := hl.best (List.ne_nil_of_mem hx)
      rw [Ledger.overtakes, hs, hb] at ho
      have hlt : b.result.score < r.result.score := of_decide_eq_true ho
      have hle := hmax x hx
      omega
  | false =>
    have hbest : (l.enter r).best = l.best := by
      rw [Ledger.enter, if_neg (Bool.eq_false_iff.1 ho)]
    obtain ⟨hunsolved, hall⟩ := Bool.or_eq_false_iff.1 ho
    rw [hopen, Bool.not_false, Bool.and_true] at hunsolved
    cases hb : l.best with
    | none =>
      rw [hb] at hall
      cases hall
    | some b =>
      rw [hb] at hall
      have hle : r.result.score ≤ b.result.score := Nat.not_lt.1 (of_decide_eq_false hall)
      have hne : l.records ≠ [] := by
        intro hnil
        rw [(hl.empty hnil).1] at hb
        cases hb
      obtain ⟨b', hb', -, -, hlead, -⟩ := hl.best hne
      rw [hb] at hb'
      cases hb'
      refine ⟨b, by rw [hbest, hb], hlead.stays hle, fun hs => ?_⟩
      rw [hunsolved] at hs
      cases hs

/-- **One entry keeps the books faithful.** -/
theorem Faithful.enter (hl : Faithful judge l) (hopen : l.solved = false)
    (hr : judge r.program = .ok r.result)
    (hahead : r.result.solved = true → ∀ x ∈ l.records, x.result.score < r.result.score) :
    Faithful judge (l.enter r) := by
  -- the leader after the entry: the one before, or the new one if its score is higher
  obtain ⟨b, hbest, hlead, hlast⟩ := hl.leads_enter hopen hahead
  have hjudged : ∀ x ∈ r :: l.records, judge x.program = .ok x.result :=
    List.forall_mem_cons.2 ⟨hr, hl.judged⟩
  have hprogram := Ledger.program_of_best hbest
  constructor
  · show l.attempts + 1 = (r :: l.records).length
    rw [hl.attempts, List.length_cons]
  · exact hjudged
  · intro hnil
    cases hnil
  · intro _
    refine ⟨b, hbest, hprogram, ?_, hlead, hlead.score_le⟩
    rw [hprogram]
    exact hjudged b hlead.mem
  · show (l.solved || r.result.solved) = true ↔ ∃ x ∈ r :: l.records, x.result.solved = true
    rw [Bool.or_eq_true, hl.solved]
    constructor
    · rintro (⟨x, hx, hs⟩ | hs)
      · exact ⟨x, List.mem_cons_of_mem _ hx, hs⟩
      · exact ⟨r, List.mem_cons_self, hs⟩
    · rintro ⟨x, hx, hs⟩
      rcases List.mem_cons.1 hx with rfl | hx
      · exact Or.inr hs
      · exact Or.inl ⟨x, hx, hs⟩
  · intro x hx hs
    rcases List.mem_cons.1 hx with rfl | hx
    · rw [hbest, hlast hs]
      exact ⟨rfl, rfl⟩
    · -- an earlier entry that solves the level would have closed the books
      rw [hl.unsolved hopen x hx] at hs
      cases hs

end Entries

/-! ## The search

  What happens in a search is checks, reports and entries (`Plan.Step`), so the books stay faithful all
  along. -/

/-- What happens to the books of a search keeps them faithful. -/
theorem faithful_step {plan : Plan} (hfair : plan.Fair) {l m : Ledger}
    (hl : Faithful plan.judge l) (h : plan.Step l m) : Faithful plan.judge m := by
  cases h with
  | check => exact hl.of_sameTrials (Ledger.sameTrials_check _ _ _ l)
  | report => exact hl.of_sameTrials (Ledger.sameTrials_report _ l)
  | attempt program hopen _ h =>
    obtain ⟨result, hjudge, rfl⟩ := Plan.attempt_cases h
    refine Faithful.of_sameTrials ?_ (Ledger.sameTrials_reportIfDue _ _ _)
    refine hl.enter hopen hjudge fun hs x hx => ?_
    exact hfair (hl.judged x hx) hjudge (hl.unsolved hopen x hx) hs

section Levels

variable {σ : Type} (level : Level) (options : Options) (evaluation : Evaluation.Options)
  (around : Circumstances σ)

theorem planOf_fair : (planOf level options evaluation around).Fair := by
  intro p q a b ha hb hopen hs
  have hahead := Evaluation.score_add_savedPoints_lt ha hopen hb hs
  omega

/-- **What a search returns is true of all that it tried**, by length or by chance, with any dice, any
number of workers, and wherever time, attempts or a stop ended it.  Where robots have headings, it
fails only with the fault of a level that cannot be started. -/
theorem conduct_faithful :
    (∀ l, conduct level options evaluation around = .ok l →
      Faithful (fun program => Evaluation.evaluate program level evaluation) l) ∧
    (Simulation.Headed level.spawner → ∀ fault,
      conduct level options evaluation around = .error fault →
        level.start (evaluation.maxTicks.getD Simulation.defaultMaxSteps) = .error fault) := by
  have hyields : (planOf level options evaluation around).Yields { stopAsked := around.stopped }
      (conduct level options evaluation around) := Plan.run_yields _ options.strategy around rfl
  constructor
  · intro l hl
    have hleads : (planOf level options evaluation around).Leads { stopAsked := around.stopped } l := by
      rw [hl] at hyields
      exact hyields
    exact hleads.invariant (faithful_step (planOf_fair level options evaluation around))
      (faithful_new around.stopped)
  · intro hh fault hfault
    rw [hfault] at hyields
    obtain ⟨program, hjudge⟩ := hyields
    exact (Evaluation.evaluate_error_iff hh program evaluation fault).1 hjudge

end Levels

open Evaluation (doorstep)

/-- Dice that always fall the same way. -/
def fixedDice : Dice Unit where
  toss s := (0, s)
  pick _ s := (0, s)
  pick_lt _ _ h := h

/-- Nobody listens, and the time is over at the third check. -/
def hurried : Circumstances Unit :=
  { listener := none, watch := fun k => { elapsedMs := k * 750 }, dice := fixedDice, seeded := ()
    stopped := false, rounds := 9 }

/-- The second program solves the level, just in time. -/
theorem conduct_faithful_doorstep :
    ∃ l, conduct doorstep { strategy := .random } {} hurried = .ok l ∧
      Faithful (fun program => Evaluation.evaluate program doorstep {}) l ∧
      l.solved = true ∧ l.attempts = 2 := by
  obtain ⟨htrue, hfault⟩ := conduct_faithful doorstep { strategy := .random } {} hurried
  have hstarts : (doorstep.start Simulation.defaultMaxSteps).toOption.isSome = true := by
    decide +kernel
  -- the whole search is evaluated; what it shows is read off below
  have hfound : ((conduct doorstep { strategy := .random } {} hurried).map fun l =>
      (l.solved, l.attempts)).toOption = some (true, 2) := by decide +kernel
  cases h : conduct doorstep { strategy := .random } {} hurried with
  | error fault =>
    have hstart := hfault (by decide) fault h
    rw [Option.getD_none] at hstart
    rw [hstart] at hstarts
    cases hstarts
  | ok l =>
    rw [h] at hfound
    obtain ⟨hsolved, hattempts⟩ := Prod.mk.inj (Option.some.inj hfound)
    exact ⟨l, rfl, htrue l h, hsolved, hattempts⟩

end Search

end RobotPuzzle
