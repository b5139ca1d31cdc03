/-
  When a search heeds a listener that asks it to stop.

  1. **What is told** (`Tells`) — a step makes one report at most, of the books as they are then, and the
     answer is kept in the books.  Only a check looks at it.
  2. **The pace** (`Plan.pace`) — so many programs may be under way when a stop is asked for: a chunk in the
     search by length, one in the search by chance.
  3. **Prompt** (`Prompt.acts`) — what has been entered since a stop was asked for, together with what is
     still under way, stays below the pace.  A program is under way after a stop was asked for only where
     the listener asked for it in the middle of a chunk.
  4. **Heeding** (`heeds_iff`) — the search heeds its listener exactly if it never goes on with the rest of a
     chunk.  With one worker, or by chance, there is no such rest; with several workers there may be, and
     even the program that is returned may come from it (`not_heeds_in_chunk`).

  The crux is the sum in `soon`: what has been entered since the report and what is still under way
  together.  An entry moves one program from the second to the first, so the sum stays; only a check
  brings new programs under way, and a check notices the stop.

  Three things are kept apart: the stop that a listener asks for, the check at which it is looked at, and
  the end of the search.  Between the first two a chunk may have to be finished, and the theorem bounds
  what is entered then and says when it is nothing.  `GoesOn` names the scenes in which it happens.
-/
import RobotPuzzle.Proofs.Budgets
import RobotPuzzle.Proofs.Heard

namespace RobotPuzzle

namespace Search

/-! ## What is told

  A listener is asked at each report, and its answer is written into the books.  As reports are never
  taken back, the books know of every answer. -/

/-- There is at most one more report, and it tells of the books as they are. -/
inductive Ledger.Tells (hear : Listener) (l m : Ledger) : Prop
  /-- there is no new report -/
  | silent (hreports : m.reports = l.reports) (hstop : m.stopAsked = l.stopAsked)
  /-- there is one, and the listener may ask for a stop -/
  | told (r : Report) (hreports : m.reports = r :: l.reports) (hcount : r.attempts = m.attempts)
      (hbest : r.best = m.best) (hstop : m.stopAsked = (l.stopAsked || hear r))

namespace Ledger

variable {hear : Listener} {l m : Ledger}

theorem tells_report (hear : Listener) (l : Ledger) : l.Tells hear (l.report (some hear)) :=
  .told _ rfl rfl rfl rfl

/-- Reports are never taken back. -/
theorem Tells.subset (h : l.Tells hear m) : l.reports ⊆ m.reports := by
  cases h with
  | silent hreports =>
    rw [hreports]
    exact List.Subset.refl _
  | told new hreports =>
    rw [hreports]
    exact List.subset_cons_self _ _

/-- What is so of the reports before, and of any report on the books as they are, is so of all reports. -/
theorem Tells.forall_mem {P : Report → Prop} (h : l.Tells hear m) (hold : ∀ r ∈ l.reports, P r)
    (hnew : ∀ r : Report, r.attempts = m.attempts → r.best = m.best → P r) : ∀ r ∈ m.reports, P r := by
  cases h with
  | silent hreports =>
    rw [hreports]
    exact hold
  | told new hreports hcount hbest =>
    rw [hreports]
    exact List.forall_mem_cons.2 ⟨hnew new hcount hbest, hold⟩

/-- The answers of the listener are in the books. -/
theorem Tells.asked (h : l.Tells hear m) (hl : ∀ r ∈ l.reports, hear r = true → l.stopAsked = true) :
    ∀ r ∈ m.reports, hear r = true → m.stopAsked = true := by
  cases h with
  | silent hreports hstopAsked =>
    rw [hreports, hstopAsked]
    exact hl
  | told new hreports _ _ hstopAsked =>
    rw [hreports, hstopAsked]
    refine List.forall_mem_cons.2 ⟨fun hstop => ?_, fun r hr hstop => ?_⟩
    · rw [hstop, Bool.or_true]
    · rw [hl r hr hstop, Bool.true_or]

/-- Nobody but the listener asks for a stop meanwhile. -/
theorem Tells.heard (h : l.Tells hear m) (hstop : m.stopAsked = true) :
    l.stopAsked = true ∨ ∃ r ∈ m.reports, hear r = true := by
  cases h with
  | silent _ hstopAsked => exact Or.inl (hstopAsked ▸ hstop)
  | told new hreports _ _ hstopAsked =>
    rw [hstopAsked, Bool.or_eq_true] at hstop
    refine hstop.imp_right fun hnew => ⟨new, ?_, hnew⟩
    rw [hreports]
    exact List.mem_cons_self

end Ledger

namespace Plan

variable {plan : Plan} {hear : Listener} {l m : Ledger}

/-- An attempt tells of at most one report, of the books after it. -/
theorem attempt_tells (hlistener : plan.listener = some hear) {program : Program}
    (h : plan.attempt program l = .ok m) : l.Tells hear m := by
  obtain ⟨result, -, rfl⟩ := attempt_cases h
  rw [hlistener]
  unfold Ledger.reportIfDue
  split
  · exact .told _ rfl rfl rfl rfl
  · exact .silent rfl rfl

/-- A check forgets no stop. -/
theorem check_stopAsked (plan : Plan) (h : l.stopAsked = true) : (plan.check l).1.stopAsked = true := by
  unfold Plan.check Ledger.check
  dsimp only
  rw [h, Bool.true_or, if_pos rfl]

/-- A check that allows anything has found no stop. -/
theorem unasked_of_allowed (hallowed : (plan.check l).2 ≠ 0) : (plan.check l).1.stopAsked = false := by
  revert hallowed
  unfold Plan.check Ledger.check
  dsimp only
  split
  · exact fun h => absurd rfl h
  · rename_i hunasked
    split
    · exact fun h => absurd rfl h
    · exact fun _ => Bool.eq_false_iff.2 hunasked

/-! ## The pace

  The programs under way are those that a stage is judging. -/

/-- How many programs may be under way at once. -/
def pace (plan : Plan) : Strategy → Nat
  | .beam => plan.chunk
  | .random => 1

theorem pace_pos (plan : Plan) (strategy : Strategy) : 0 < plan.pace strategy := by
  cases strategy with
  | beam => exact plan.chunk_pos
  | random => exact Nat.one_pos

variable {σ : Type} {strategy : Strategy} {around : Circumstances σ} {x y : Stage σ × Ledger}

/-- No more programs are under way than the pace allows; only a search by length has a frontier. -/
structure Paced (plan : Plan) (strategy : Strategy) (stage : Stage σ) : Prop where
  /-- a search by chance works on one program at a time -/
  frontier : stage.frontier?.isSome = true → strategy = .beam
  /-- at most a chunk is under way -/
  judged : stage.judged.length ≤ plan.pace strategy

/-- A stage that judges nothing, and has no frontier, is within the pace. -/
theorem paced_idle {stage : Stage σ} (hfrontier : stage.frontier? = none) (hnone : stage.judged = []) :
    plan.Paced strategy stage :=
  ⟨by rw [hfrontier]; exact nofun, by rw [hnone]; exact Nat.zero_le _⟩

/-- So is a stage that judges nothing, behind one with a frontier. -/
theorem Paced.of_frontier {stage stage' : Stage σ} (h : plan.Paced strategy stage)
    (hfrontier : stage.frontier?.isSome = true) (hnone : stage'.judged = []) :
    plan.Paced strategy stage' :=
  ⟨fun _ => h.frontier hfrontier, by rw [hnone]; exact Nat.zero_le _⟩

/-- So is the first stage. -/
theorem paced_firstStage (strategy : Strategy) (around : Circumstances σ) (l : Ledger) :
    plan.Paced strategy (plan.firstStage strategy around l) := by
  unfold firstStage
  split
  · exact paced_idle rfl rfl
  · cases strategy with
    | beam => exact ⟨fun _ => rfl, Nat.zero_le _⟩
    | random => exact paced_idle rfl rfl

/-- **Every step** keeps the pace: a chunk is cut to it, and by chance there is one candidate at a time.
-/
theorem Paced.proceeds (hx : plan.Paced strategy x.1) (h : plan.Proceeds strategy around x y) :
    plan.Paced strategy y.1 := by
  cases h with
  | setOut => exact ⟨nofun, plan.pace_pos strategy⟩
  | skip | begin => exact paced_firstStage strategy around _
  | lengthen | finish | drop => exact hx.of_frontier rfl rfl
  | judge =>
    have hbeam := hx.frontier rfl
    refine ⟨fun _ => hbeam, ?_⟩
    subst hbeam
    exact Nat.le_trans (List.length_take_le _ _) (Nat.min_le_right _ _)
  | cutOff | leave => exact hx.of_frontier rfl (plan.nextStage_quiet _ _ _ _).2
  | enter => exact ⟨hx.frontier, Nat.le_of_succ_le hx.judged⟩
  | change => exact ⟨nofun, plan.pace_pos strategy⟩
  | deepest | overshoot | rest | halt | walk | close => exact paced_idle rfl rfl

/-! ## Prompt

  Where no program is under way a check comes next, and that ends the search once a stop has been asked
  for. -/

/-- Where a stop has been asked for, the search is about to notice it. -/
structure Prompt (plan : Plan) (strategy : Strategy) (hear : Listener) (scene : Stage σ × Ledger) :
    Prop where
  /-- the answers of the listener are in the books -/
  asked : ∀ r ∈ scene.2.reports, hear r = true → scene.2.stopAsked = true
  /-- a program is under way after a stop was asked for only if the listener asked for it -/
  heard : scene.2.stopAsked = true → scene.1.judged ≠ [] → ∃ r ∈ scene.2.reports, hear r = true
  /-- the counts of the reports never exceed that of the books -/
  earlier : ∀ r ∈ scene.2.reports, r.attempts ≤ scene.2.attempts
  /-- what has been entered since, and what is under way -/
  soon : ∀ r ∈ scene.2.reports, hear r = true →
    scene.2.attempts + scene.1.judged.length < r.attempts + plan.pace strategy

theorem prompt_opening (plan : Plan) (strategy : Strategy) (hear : Listener) (stopped : Bool) :
    plan.Prompt strategy hear ((.opening, { stopAsked := stopped }) : Stage σ × Ledger) where
  asked := fun _ hr => (nomatch hr)
  heard := fun _ h => absurd rfl h
  earlier := fun _ hr => (nomatch hr)
  soon := fun _ hr => (nomatch hr)

/-- **A step keeps the search prompt.** -/
theorem Prompt.acts (hlistener : plan.listener = some hear) (hx : plan.Prompt strategy hear x)
    (hpaced : x.1.judged.length ≤ plan.pace strategy) (h : plan.Acts x y) :
    plan.Prompt strategy hear y := by
  cases h with
  | quiet hgoing hdone hnone =>
    refine ⟨hx.asked, fun _ h => absurd hnone h, hx.earlier, fun r hr hstop => ?_⟩
    have hsoon := hx.soon r hr hstop
    rw [hnone]
    exact Nat.lt_of_le_of_lt (Nat.le_add_right _ _) hsoon
  | @check stage stage' l hgoing hdone hallowed =>
    have hreports := (plan.check_reports l).1
    have hcount := plan.check_attempts l
    refine ⟨?_, ?_, ?_, ?_⟩
    · rw [hreports]
      exact fun r hr hstop => plan.check_stopAsked (hx.asked r hr hstop)
    · intro hstop hsome
      rcases hallowed with hallowed | hnone
      · rw [unasked_of_allowed hallowed] at hstop
        cases hstop
      · exact absurd hnone hsome
    · rw [hreports, hcount]
      exact hx.earlier
    · rw [hreports, hcount]
      intro r hr hstop
      rcases hallowed with hallowed | hnone
      · rw [Plan.check, Ledger.check_zero_of_stopAsked (hx.asked r hr hstop)] at hallowed
        exact absurd rfl hallowed
      · have hsoon := hx.soon r hr hstop
        rw [hnone, ← hdone]
        exact hsoon
  | @enter stage stage' l m hgoing hopen program hjudged h =>
    have htells := attempt_tells hlistener h
    have hcount := attempt_attempts h
    have hunderWay : stage.judged.length = stage'.judged.length + 1 := congrArg List.length hjudged
    refine ⟨htells.asked hx.asked, fun hstop _ => ?_,
      htells.forall_mem (fun r hr => ?_) fun r hnew _ => Nat.le_of_eq hnew,
      htells.forall_mem (fun r hr hstop => ?_) fun r hnew _ _ => ?_⟩
    · rcases htells.heard hstop with hbefore | hnow
      · obtain ⟨r, hr, hheard⟩ := hx.heard hbefore (by rw [hjudged]; exact nofun)
        exact ⟨r, htells.subset hr, hheard⟩
      · exact hnow
    · have hearlier := hx.earlier r hr
      dsimp only at hearlier ⊢
      omega
    · -- one more has been entered, and one fewer is under way
      have hsoon := hx.soon r hr hstop
      dsimp only at hsoon ⊢
      omega
    · dsimp only at hpaced ⊢
      omega
  | @report l =>
    have htells := Ledger.tells_report hear l
    rw [hlistener]
    exact ⟨htells.asked hx.asked, fun _ h => absurd rfl h,
      htells.forall_mem hx.earlier fun r hnew _ => Nat.le_of_eq hnew,
      htells.forall_mem hx.soon fun r hnew _ _ =>
        hnew ▸ Nat.lt_add_of_pos_right (plan.pace_pos strategy)⟩

/-- The search is prompt at every moment. -/
theorem Passes.prompt (hlistener : plan.listener = some hear) {stopped : Bool}
    (h : plan.Passes strategy around (.opening, { stopAsked := stopped }) x) :
    plan.Prompt strategy hear x := by
  have hkeeps : ∀ {x y : Stage σ × Ledger}, plan.Paced strategy x.1 ∧ plan.Prompt strategy hear x →
      plan.Proceeds strategy around x y → plan.Paced strategy y.1 ∧ plan.Prompt strategy hear y :=
    fun hx hstep => ⟨hx.1.proceeds hstep, hx.2.acts hlistener hx.1.judged hstep.acts⟩
  exact (Passes.invariant hkeeps h ⟨paced_idle rfl rfl, plan.prompt_opening strategy hear stopped⟩).2

end Plan

/-! ## Heeding

  If the search goes on at some moment, the program under way is entered next, and that is behind the
  report; so going on and heeding exclude each other.  The other direction is by induction along the
  moments. -/

/-- The search heeds its listener: nothing is entered after the report at which it asked for a stop, and
what was best then is what is returned. -/
def Heeds (hear : Listener) (l : Ledger) : Prop :=
  ∀ r ∈ l.reports, hear r = true → l.attempts = r.attempts ∧ l.best = r.best

/-- A stop has been asked for, nothing solves the level, and programs are still under way: the rest of a
chunk. -/
def GoesOn {σ : Type} (scene : Stage σ × Ledger) : Prop :=
  scene.2.stopAsked = true ∧ scene.2.solved = false ∧ scene.1.judged ≠ []

namespace Plan

variable {σ : Type} {plan : Plan} {strategy : Strategy} {around : Circumstances σ} {hear : Listener}
  {x y : Stage σ × Ledger}

/-- A search that does not go on at a moment heeds its listener at the next. -/
theorem Acts.heeds (hlistener : plan.listener = some hear) (hx : plan.Prompt strategy hear x)
    (hstops : ¬ GoesOn x) (h : plan.Acts x y) (hheeds : Heeds hear x.2) : Heeds hear y.2 := by
  cases h with
  | quiet => exact hheeds
  | @check stage stage' l =>
    have hsame : l.SameTrials (plan.check l).1 := Ledger.sameTrials_check _ _ _ l
    intro r hr hstop
    rw [(plan.check_reports l).1] at hr
    dsimp only
    rw [hsame.attempts, hsame.best]
    exact hheeds r hr hstop
  | @enter stage stage' l m hgoing hopen program hjudged h =>
    -- nobody has asked yet, so only the new report counts
    have hunheard : ∀ r ∈ l.reports, hear r ≠ true := fun r hr hstop =>
      hstops ⟨hx.asked r hr hstop, hopen, by rw [hjudged]; exact nofun⟩
    exact (attempt_tells hlistener h).forall_mem (fun r hr hstop => absurd hstop (hunheard r hr))
      fun r hcount hbest _ => ⟨hcount.symm, hbest.symm⟩
  | @report l =>
    rw [hlistener]
    exact (Ledger.tells_report hear l).forall_mem hheeds fun r hcount hbest _ =>
      ⟨hcount.symm, hbest.symm⟩

/-- Attempts and reports only become more. -/
theorem Acts.grows (hlistener : plan.listener = some hear) (h : plan.Acts x y) :
    x.2.attempts ≤ y.2.attempts ∧ x.2.reports ⊆ y.2.reports := by
  cases h with
  | quiet => exact ⟨Nat.le_refl _, List.Subset.refl _⟩
  | @check stage stage' l =>
    exact ⟨Nat.le_of_eq (plan.check_attempts l).symm, by rw [(plan.check_reports l).1]; exact fun _ h => h⟩
  | @enter stage stage' l m hgoing hopen program hjudged h =>
    have hcount := attempt_attempts h
    exact ⟨by dsimp only; omega, (attempt_tells hlistener h).subset⟩
  | @report l =>
    rw [hlistener]
    exact ⟨Nat.le_refl _, (Ledger.tells_report hear l).subset⟩

theorem Passes.grows (hlistener : plan.listener = some hear) (h : plan.Passes strategy around x y) :
    x.2.attempts ≤ y.2.attempts ∧ x.2.reports ⊆ y.2.reports := by
  induction h with
  | refl => exact ⟨Nat.le_refl _, List.Subset.refl _⟩
  | tail _ hlast ih =>
    obtain ⟨hattempts, hreports⟩ := hlast.acts.grows hlistener
    exact ⟨Nat.le_trans ih.1 hattempts, List.Subset.trans ih.2 hreports⟩

/-- A program that is under way in an unsolved search is entered next. -/
theorem Acts.enters (h : plan.Acts x y) (hopen : x.2.solved = false) (hsome : x.1.judged ≠ []) :
    x.2.attempts < y.2.attempts := by
  cases h with
  | quiet hgoing hdone =>
    rcases hdone with hsolved | hnone
    · rw [hopen] at hsolved
      cases hsolved
    · exact absurd hnone hsome
  | check hgoing hdone => exact absurd hdone hsome
  | enter hgoing hopen program hjudged h => exact Nat.lt_of_succ_le (Nat.le_of_eq (attempt_attempts h).symm)
  | report => exact absurd rfl hsome

/-- From every moment before it a search goes on to its end. -/
theorem Passes.onward {start : Stage σ × Ledger} {l : Ledger} (hx : plan.Passes strategy around start x)
    (hend : plan.Passes strategy around start (.over, l)) (hgoing : x.1 ≠ .over) :
    ∃ y, plan.Proceeds strategy around x y ∧ plan.Passes strategy around y (.over, l) := by
  have hunique : Relator.RightUnique (plan.Proceeds strategy around) := fun _ _ _ h h' => h.unique h'
  rcases Relation.ReflTransGen.total_of_right_unique hunique hx hend with h | h
  · rcases Relation.ReflTransGen.cases_head h with rfl | hnext
    · exact absurd rfl hgoing
    · exact hnext
  · rcases Relation.ReflTransGen.cases_head h with rfl | ⟨y, hy, -⟩
    · exact absurd rfl hgoing
    · exact absurd hy not_proceeds_over

/-- **A search heeds its listener exactly if it never goes on with the rest of a chunk.** -/
theorem Passes.heeds_iff (hlistener : plan.listener = some hear) {stopped : Bool} {l : Ledger}
    (hend : plan.Passes strategy around (.opening, { stopAsked := stopped }) (.over, l)) :
    Heeds hear l ↔ ∀ scene, plan.Passes strategy around (.opening, { stopAsked := stopped }) scene →
      ¬ GoesOn scene := by
  constructor
  · rintro hheeds scene hscene ⟨hasked, hopen, hsome⟩
    -- going on enters one program more than the report has counted
    have hprompt := hscene.prompt hlistener
    obtain ⟨r, hr, hstop⟩ := hprompt.heard hasked hsome
    obtain ⟨next, hstep, hrest⟩ := hscene.onward hend fun hover => hsome (by rw [hover]; rfl)
    have hmore := hstep.acts.enters hopen hsome
    obtain ⟨hattempts, hlater⟩ := hrest.grows hlistener
    have hkept := List.Subset.trans (hstep.acts.grows hlistener).2 hlater
    have hcount := (hheeds r (hkept hr) hstop).1
    have hearlier := hprompt.earlier r hr
    dsimp only at hattempts
    omega
  · intro hstops
    -- as long as no scene goes on, what is entered comes before the stop
    have hkeeps : ∀ {x y : Stage σ × Ledger},
        plan.Passes strategy around (.opening, { stopAsked := stopped }) x ∧ Heeds hear x.2 →
        plan.Proceeds strategy around x y →
        plan.Passes strategy around (.opening, { stopAsked := stopped }) y ∧ Heeds hear y.2 :=
      fun hx hstep => ⟨hx.1.tail hstep,
        hstep.acts.heeds hlistener (hx.1.prompt hlistener) (hstops _ hx.1) hx.2⟩
    exact (Passes.invariant hkeeps hend ⟨Relation.ReflTransGen.refl, fun _ hr => (nomatch hr)⟩).2

/-- Where only one program is under way at a time, no chunk has a rest. -/
theorem Prompt.not_goesOn (hx : plan.Prompt strategy hear x) (hpace : plan.pace strategy = 1) :
    ¬ GoesOn x := by
  rintro ⟨hasked, -, hsome⟩
  obtain ⟨r, hr, hstop⟩ := hx.heard hasked hsome
  have hsoon := hx.soon r hr hstop
  have hearlier := hx.earlier r hr
  have hunderWay := List.length_pos_iff.2 hsome
  omega

end Plan

section Levels

variable {σ : Type} (level : Level) (options : Options) (evaluation : Evaluation.Options)
  (around : Circumstances σ) (hear : Listener)

theorem pace_planOf_le :
    (planOf level options evaluation around).pace options.strategy ≤ max 1 options.workers.toNat := by
  cases options.strategy with
  | beam => exact Nat.le_refl _
  | random => exact Nat.le_max_left _ _

/-- By chance, or with one worker, it is one. -/
theorem pace_planOf_eq_one (h : options.strategy = .random ∨ options.workers ≤ 1) :
    (planOf level options evaluation around).pace options.strategy = 1 := by
  rcases h with h | h
  · rw [h]
    rfl
  · have hle := pace_planOf_le level options evaluation around
    have hpos := (planOf level options evaluation around).pace_pos options.strategy
    omega

/-- **When a search heeds its listener.**  Whatever is entered after the report at which the listener asks for
a stop is less than a chunk.  Nothing is, and what was best then is returned, exactly if the search never
goes on with the rest of a chunk after a stop was asked for; so by chance, and with one worker, the next
program is not entered any more. -/
theorem conduct_heeds_iff :
    (∀ l, conduct level options evaluation { around with listener := some hear } = .ok l →
      (∀ r ∈ l.reports, hear r = true →
        r.attempts ≤ l.attempts ∧ l.attempts < r.attempts + max 1 options.workers.toNat) ∧
      (Heeds hear l ↔ ∀ scene,
        Visits level options evaluation { around with listener := some hear } scene → ¬ GoesOn scene) ∧
      (options.strategy = .random ∨ options.workers ≤ 1 → Heeds hear l)) ∧
    (Simulation.Headed level.spawner →
      (level.start (evaluation.maxTicks.getD Simulation.defaultMaxSteps)).isOk = true →
        ∃ l, conduct level options evaluation { around with listener := some hear } = .ok l) := by
  refine ⟨fun l hl => ?_, fun hheaded hstarts => conduct_ok hheaded hstarts options _⟩
  -- the books are those in which the stages end
  have hend : Visits level options evaluation { around with listener := some hear } (.over, l) :=
    (Plan.run_eq_ok_iff rfl).1 hl
  have hprompt := Plan.Passes.prompt rfl hend
  have hiff := Plan.Passes.heeds_iff rfl hend
  refine ⟨fun r hr hstop => ⟨hprompt.earlier r hr, ?_⟩, hiff, fun hone => hiff.2 fun scene hscene => ?_⟩
  · exact Nat.lt_of_lt_of_le (hprompt.soon r hr hstop)
      (Nat.add_le_add_left (pace_planOf_le level options evaluation _) r.attempts)
  · exact (Plan.Passes.prompt rfl hscene).not_goesOn (pace_planOf_eq_one level options evaluation _ hone)

end Levels

open Evaluation (doorstep)

/-- Asks for a stop after so many attempts. -/
def askingAfter (attempts : Nat) : Listener := fun r => decide (attempts ≤ r.attempts)

/-- One worker does not get to the program that would solve the level. -/
theorem conduct_heeds_one_worker :
    ∃ l, conduct doorstep { threeSteps with workers := 1, progressEvery := some 1 } {}
        { unhurried with listener := some (askingAfter 2) } = .ok l ∧
      Heeds (askingAfter 2) l ∧ (l.attempts, l.solved, l.cancelled) = (2, false, true) := by
  obtain ⟨hheeds, hreturns⟩ := conduct_heeds_iff doorstep
    { threeSteps with workers := 1, progressEvery := some 1 } {} unhurried (askingAfter 2)
  obtain ⟨l, hl⟩ := hreturns (by decide) (by decide +kernel)
  have hfound : ((conduct doorstep { threeSteps with workers := 1, progressEvery := some 1 } {}
      { unhurried with listener := some (askingAfter 2) }).map fun l =>
        (l.attempts, l.solved, l.cancelled)).toOption = some (2, false, true) := by
    decide +kernel
  rw [hl] at hfound
  exact ⟨l, hl, (hheeds l hl).2.2 (Or.inr (by decide)), Option.some.inj hfound⟩

/-- Three workers do: the stop that is asked for at the second report is not looked at before the third
program has been entered, and the search returns that one as if nobody had asked. -/
theorem not_heeds_in_chunk :
    ∃ l, conduct doorstep { threeSteps with workers := 3, progressEvery := some 1 } {}
        { unhurried with listener := some (askingAfter 2) } = .ok l ∧
      ¬ Heeds (askingAfter 2) l ∧ (l.attempts, l.solved, l.cancelled) = (3, true, false) := by
  have hfound : ((conduct doorstep { threeSteps with workers := 3, progressEvery := some 1 } {}
      { unhurried with listener := some (askingAfter 2) }).map fun l =>
        ((l.attempts, l.solved, l.cancelled), l.reports.map Report.attempts)).toOption
      = some ((3, true, false), [3, 3, 2, 1]) := by
    decide +kernel
  cases hl : conduct doorstep { threeSteps with workers := 3, progressEvery := some 1 } {}
      { unhurried with listener := some (askingAfter 2) } with
  | error fault =>
    rw [hl] at hfound
    cases hfound
  | ok l =>
    rw [hl] at hfound
    obtain ⟨hfound, hreports⟩ := Prod.mk.inj (Option.some.inj hfound)
    refine ⟨l, rfl, fun hheeds => ?_, hfound⟩
    -- there is a report with two attempts, and the listener asks for a stop at it
    have htwo : 2 ∈ l.reports.map Report.attempts := by
      rw [hreports]
      decide
    obtain ⟨r, hr, hcount⟩ := List.mem_map.1 htwo
    have hstop : askingAfter 2 r = true := by
      rw [askingAfter, hcount]
      rfl
    have hsame := (hheeds r hr hstop).1
    rw [hcount, (Prod.mk.inj hfound).1] at hsame
    cases hsame

end Search

end RobotPuzzle
