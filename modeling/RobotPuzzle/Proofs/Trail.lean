/-
  More attempts only take a search further.

  1. **The trail** (`Plan.Tries`) — what a search tries next, whatever its budgets are, however many programs
     are judged at a time, and whenever it checks or reports.  There is one way on from everywhere
     (`Tries.unique`); on it programs are only ever entered, and none behind one that solves the level
     (`trail_grows`).
  2. **Searches on the trail** (`Stands`) — an unhindered search is somewhere on the trail at every moment.  It
     leaves off before the end of the trail only with a program that solves the level, or with all
     attempts used up (`exists_trail`); from then on nothing more is entered (`Rests`), so it does not
     matter which programs of a chunk or a layer it still has in hand.
  3. **Two searches** (`conduct_extends`) — so of two searches that differ in the attempts allowed, the one is
     a stretch of the other: how many attempts are left has no part in what is tried next, and none in
     how the dice fall.

  The crux is that the attempts allowed come into a search at its checks only, and the trail has none.  So
  one trail serves both searches, and since there is one way on from everywhere, one of the two has come
  at least as far on it as the other.

  The trail knows of programs, results and dice, but of no checks and no clock.  So two searches that
  differ in their attempts and in how the time passes walk on the same trail, one further than the other;
  that is why no comparison of two searches step by step is needed.
-/
import RobotPuzzle.Proofs.Budgets
import RobotPuzzle.Proofs.LayerCount

namespace RobotPuzzle

namespace Search

/-! ## The trail

  The agenda forgets of a stage what checks have decided: how many of the programs at hand are in the
  chunk, and how many behind it. -/

namespace Ledger

/-- The books of the trials alone, without checks, reports and stops. -/
def bare (l : Ledger) : Ledger :=
  { records := l.records, attempts := l.attempts, best := l.best, solved := l.solved }

theorem SameTrials.bare {l m : Ledger} (h : l.SameTrials m) : m.bare = l.bare := by
  rw [Ledger.bare, Ledger.bare, h.records, h.attempts, h.best, h.solved]

theorem sameTrials_of_bare {l m : Ledger} (h : m.bare = l.bare) : l.SameTrials m := by
  obtain ⟨hrecords, hattempts, hbest, hsolved, -⟩ := Ledger.mk.inj h
  exact ⟨hrecords, hattempts, hbest, hsolved⟩

end Ledger

/-- What a search is to try next. -/
inductive Agenda (σ : Type) where
  /-- the empty program -/
  | root
  /-- the frontier is to be lengthened -/
  | layer (depth : Nat) (frontier : List Program)
  /-- the children of the frontier, in chunks or not -/
  | sweep (depth : Nat) (frontier : List Program) (before : Ledger) (programs : List Program)
  /-- the present program is to be changed -/
  | walking (left : Nat) (current : Program) (dice : σ)
  /-- the changed program is to be tried -/
  | candidate (left : Nat) (program : Program) (dice : σ)
  /-- nothing -/
  | done

/-- What is to be tried next in a stage.  It makes no difference which programs are judged already. -/
def Stage.agenda {σ : Type} : Stage σ → Agenda σ
  | .opening | .root => .root
  | .layer depth frontier => .layer depth frontier
  | .pending depth frontier before programs => .sweep depth frontier before.bare programs
  | .batch depth frontier before chunk behind => .sweep depth frontier before.bare (chunk ++ behind)
  | .walking left current dice => .walking left current dice
  | .candidate left program dice => .candidate left program dice
  | .closing | .over => .done

namespace Plan

variable {σ : Type}

/-- What comes next on the trail. -/
inductive Tries (plan : Plan) (strategy : Strategy) (around : Circumstances σ) :
    Agenda σ × Ledger → Agenda σ × Ledger → Prop
  /-- the empty program comes first -/
  | root {l result} (hopen : l.solved = false) (hjudge : plan.judge [] = .ok result) :
      Tries plan strategy around (.root, l)
        ((plan.firstStage strategy around (l.enter ⟨[], result⟩)).agenda, l.enter ⟨[], result⟩)
  /-- then layer by layer -/
  | lengthen {depth frontier l} (hdepth : depth < plan.maxDepth) :
      Tries plan strategy around (.layer depth frontier, l)
        (.sweep depth frontier l (plan.children frontier), l)
  /-- down to the depth allowed -/
  | deepest {depth frontier l} (hdepth : plan.maxDepth ≤ depth) :
      Tries plan strategy around (.layer depth frontier, l) (.done, l)
  /-- of a layer, program by program -/
  | enter {depth frontier before program rest l result} (hopen : l.solved = false)
      (hjudge : plan.judge program = .ok result) :
      Tries plan strategy around (.sweep depth frontier before (program :: rest), l)
        (.sweep depth frontier before rest, l.enter ⟨program, result⟩)
  /-- the best of a layer, and what was kept before it, are the next frontier -/
  | leave {depth frontier before l} (hopen : l.solved = false) :
      Tries plan strategy around (.sweep depth frontier before [], l)
        ((plan.nextStage depth frontier before l : Stage σ).agenda, l)
  /-- a changed program that is short enough is the next to be tried -/
  | change {left current dice l} (hopen : l.solved = false)
      (hfits : (mutate around.dice plan.actions current dice).1.length ≤ plan.maxDepth) :
      Tries plan strategy around (.walking (left + 1) current dice, l)
        (.candidate left (mutate around.dice plan.actions current dice).1
          (mutate around.dice plan.actions current dice).2, l)
  /-- one that is too long is cut, and not tried -/
  | overshoot {left current dice l} (hopen : l.solved = false)
      (hlong : plan.maxDepth < (mutate around.dice plan.actions current dice).1.length) :
      Tries plan strategy around (.walking (left + 1) current dice, l)
        (.walking left (mutate around.dice plan.actions current dice).1.dropLast
          (mutate around.dice plan.actions current dice).2, l)
  /-- the rounds are used up, or the level is solved -/
  | rest {left current dice l} (hdone : left = 0 ∨ l.solved = true) :
      Tries plan strategy around (.walking left current dice, l) (.done, l)
  /-- what was tried last is changed next -/
  | walk {left program dice l result} (hopen : l.solved = false)
      (hjudge : plan.judge program = .ok result) :
      Tries plan strategy around (.candidate left program dice, l)
        (.walking left program dice, l.enter ⟨program, result⟩)

/-- One comes from here to there on the trail. -/
def Trail (plan : Plan) (strategy : Strategy) (around : Circumstances σ) :
    Agenda σ × Ledger → Agenda σ × Ledger → Prop :=
  Relation.ReflTransGen (plan.Tries strategy around)

section Trails

variable {plan : Plan} {strategy : Strategy} {around : Circumstances σ} {x y z : Agenda σ × Ledger}

/-- At most one thing comes next: what is to be tried and the guards leave one constructor, and judging
the program that it tries has one result. -/
theorem Tries.unique (h : plan.Tries strategy around x y) (h' : plan.Tries strategy around x z) :
    y = z := by
  -- as for the stages, but with no checks among the guards
  cases h with
  | root _ hjudge =>
    cases h' with
    | root _ hagain => rw [Except.ok.inj (hjudge.symm.trans hagain)]
  | lengthen hdepth =>
    cases h' with
    | lengthen _ => rfl
    | deepest hdeep => exact absurd hdepth (Nat.not_lt.2 hdeep)
  | deepest hdeep =>
    cases h' with
    | lengthen hdepth => exact absurd hdepth (Nat.not_lt.2 hdeep)
    | deepest _ => rfl
  | enter _ hjudge =>
    cases h' with
    | enter _ hagain => rw [Except.ok.inj (hjudge.symm.trans hagain)]
  | leave _ =>
    cases h' with
    | leave _ => rfl
  | change hopen hfits =>
    cases h' with
    | change _ _ => rfl
    | overshoot _ hlong => exact absurd hlong (Nat.not_lt.2 hfits)
    | rest hdone => exact absurd hdone (not_left_off (Nat.succ_ne_zero _) hopen)
  | overshoot hopen hlong =>
    cases h' with
    | change _ hfits => exact absurd hlong (Nat.not_lt.2 hfits)
    | overshoot _ _ => rfl
    | rest hdone => exact absurd hdone (not_left_off (Nat.succ_ne_zero _) hopen)
  | rest hdone =>
    cases h' with
    | change hopen _ | overshoot hopen _ =>
      exact absurd hdone (not_left_off (Nat.succ_ne_zero _) hopen)
    | rest _ => rfl
  | walk _ hjudge =>
    cases h' with
    | walk _ hagain => rw [Except.ok.inj (hjudge.symm.trans hagain)]

/-- Neither the number of attempts nor the time has a part in it. -/
theorem Tries.congr (maxAttempts : Nat) (watch : Watch) (h : plan.Tries strategy around x y) :
    Tries { plan with maxAttempts, watch } strategy { around with watch } x y := by
  cases h with
  | root hopen hjudge => exact .root hopen hjudge
  | lengthen hdepth => exact .lengthen hdepth
  | deepest hdepth => exact .deepest hdepth
  | enter hopen hjudge => exact .enter hopen hjudge
  | leave hopen => exact .leave hopen
  | change hopen hfits => exact .change hopen hfits
  | overshoot hopen hlong => exact .overshoot hopen hlong
  | rest hdone => exact .rest hdone
  | walk hopen hjudge => exact .walk hopen hjudge

theorem Trail.congr (maxAttempts : Nat) (watch : Watch) (h : plan.Trail strategy around x y) :
    Trail { plan with maxAttempts, watch } strategy { around with watch } x y := by
  induction h with
  | refl => exact Relation.ReflTransGen.refl
  | tail _ hlast ih => exact ih.tail (hlast.congr maxAttempts watch)

theorem Tries.books (h : plan.Tries strategy around x y) :
    y.2 = x.2 ∨ (x.2.solved = false ∧ ∃ r, y.2 = x.2.enter r) := by
  cases h with
  | root hopen _ | enter hopen _ | walk hopen _ => exact Or.inr ⟨hopen, _, rfl⟩
  | _ => exact Or.inl rfl

/-- On the trail the trials stay as they are, or more programs are entered, as no program before solves
the level. -/
theorem trail_grows (h : plan.Trail strategy around x y) :
    y.2 = x.2 ∨ (x.2.solved = false ∧ x.2.attempts < y.2.attempts ∧ x.2.records <:+ y.2.records) := by
  induction h with
  | refl => exact Or.inl rfl
  | tail _ hlast ih =>
    rcases hlast.books with hsame | ⟨hopen, r, henter⟩
    · rw [hsame]
      exact ih
    · rw [henter]
      refine Or.inr ?_
      rcases ih with hsame | ⟨hopen', hlt, hsuffix⟩
      · rw [hsame] at hopen ⊢
        exact ⟨hopen, Nat.lt_succ_self _, List.suffix_cons _ _⟩
      · exact ⟨hopen', Nat.lt_succ_of_lt hlt, hsuffix.trans (List.suffix_cons _ _)⟩

/-- Past the beginning, at least the empty program has been entered. -/
theorem trail_from_root {agenda : Agenda σ} {m : Ledger}
    (h : plan.Trail strategy around (.root, {}) (agenda, m)) :
    agenda = .root ∧ m = {} ∨ m.records ≠ [] := by
  rcases Relation.ReflTransGen.cases_head h with hsame | ⟨_, hfirst, hrest⟩
  · obtain ⟨hroot, hnew⟩ := Prod.mk.inj hsame
    exact Or.inl ⟨hroot.symm, hnew.symm⟩
  · refine Or.inr ?_
    cases hfirst with
    | @root _ result =>
      rcases trail_grows hrest with hsame | ⟨-, -, hsuffix⟩
      · have hfirst : m = Ledger.enter {} ⟨[], result⟩ := hsame
        rw [hfirst]
        exact List.cons_ne_nil _ _
      · exact List.ne_nil_of_mem (hsuffix.subset List.mem_cons_self)

end Trails

/-! ## Searches on the trail

  A search that has used up its attempts may stop with programs at hand, and goes through some more stages
  before it ends.  On these it is not on the trail any more, but nothing is entered either. -/

/-- A program solves the level, or all attempts are used up. -/
def Spent (plan : Plan) (l : Ledger) : Prop := l.solved = true ∨ plan.maxAttempts ≤ l.attempts

/-- Nothing more will be entered. -/
def Rests (plan : Plan) : Stage σ × Ledger → Prop
  | (.opening, l) => plan.maxAttempts ≤ l.attempts
  | (.layer _ _, l) | (.pending _ _ _ _, l) | (.walking _ _ _, l) | (.closing, l) | (.over, l) =>
    plan.Spent l
  | _ => False

/-- A moment of a search that is on the trail, where it goes on unless nothing more is entered. -/
def Stands (plan : Plan) (strategy : Strategy) (around : Circumstances σ) (x : Stage σ × Ledger) : Prop :=
  ∃ agenda, plan.Trail strategy around (.root, {}) (agenda, x.2.bare) ∧
    (agenda = x.1.agenda ∨ plan.Rests x)

section Searches

variable {plan : Plan} {strategy : Strategy} {around : Circumstances σ} {x y : Stage σ × Ledger}
  {l m : Ledger}

theorem bare_check (plan : Plan) (l : Ledger) : (plan.check l).1.bare = l.bare :=
  (Ledger.sameTrials_check plan.watch plan.maxTimeMs plan.maxAttempts l).bare

theorem bare_report (plan : Plan) (l : Ledger) : (l.report plan.listener).bare = l.bare :=
  (Ledger.sameTrials_report plan.listener l).bare

theorem Spent.of_sameTrials (h : plan.Spent l) (hsame : l.SameTrials m) : plan.Spent m := by
  rw [Spent, hsame.solved, hsame.attempts]
  exact h

theorem Spent.check (h : plan.Spent l) : plan.Spent (plan.check l).1 :=
  h.of_sameTrials (Ledger.sameTrials_check _ _ _ l)

/-- A check allows nothing any more. -/
theorem Spent.not_allowed (h : plan.Spent l) (hopen : l.solved = false) : (plan.check l).2 = 0 := by
  have hallows := check_allows plan l
  rw [check_attempts] at hallows
  rcases h with hsolved | hle
  · rw [hopen] at hsolved
    cases hsolved
  · omega

/-- With all attempts spent the first stage rests. -/
theorem Spent.firstStage (h : plan.Spent l) : plan.Rests (plan.firstStage strategy around l, l) := by
  unfold Plan.firstStage
  split
  · exact h
  · cases strategy with
    | beam => exact h
    | random => exact h

/-- So does the stage behind a layer. -/
theorem Spent.nextStage (h : plan.Spent l) (depth : Nat) (frontier : List Program) (before : Ledger) :
    plan.Rests ((plan.nextStage depth frontier before l : Stage σ), l) := by
  unfold Plan.nextStage
  split
  · exact h
  · split
    · exact h
    · exact h

/-- Where nothing more will be entered, it stays so. -/
theorem Rests.proceeds (hx : plan.Rests x) (h : plan.Proceeds strategy around x y) :
    plan.Rests y ∧ y.2.bare = x.2.bare := by
  cases h with
  | @setOut l hallowed =>
    -- no attempts are left, so no check allows any
    have hallows := check_allows plan l
    have hle : plan.maxAttempts ≤ l.attempts := hx
    rw [check_attempts] at hallows
    omega
  | @skip l =>
    -- what rests is spent, and stays so at every stage
    have hspent : plan.Spent l := Or.inr hx
    exact ⟨hspent.check.firstStage, bare_check plan l⟩
  | lengthen | deepest | rest => exact ⟨hx, rfl⟩
  | judge _ hopen hallowed | change hopen hallowed | overshoot hopen hallowed =>
    exact absurd (Spent.not_allowed hx hopen) hallowed
  | cutOff => exact ⟨(Spent.check hx).nextStage _ _ _, bare_check plan _⟩
  | leave => exact ⟨Spent.nextStage hx _ _ _, rfl⟩
  | halt => exact ⟨Spent.check hx, bare_check plan _⟩
  | close => exact ⟨Spent.of_sameTrials hx (Ledger.sameTrials_report _ _), bare_report plan _⟩
  | begin | enter | finish | drop | walk => cases hx

/-- A program is entered on the trail. -/
theorem Trail.entered {start : Agenda σ × Ledger} {agenda : Agenda σ} (next : Ledger → Agenda σ)
    {program : Program} (htrail : plan.Trail strategy around start (agenda, l.bare))
    (h : plan.attempt program l = .ok m)
    (hnext : ∀ result, plan.judge program = .ok result →
      plan.Tries strategy around (agenda, l.bare)
        (next (l.bare.enter ⟨program, result⟩), l.bare.enter ⟨program, result⟩)) :
    plan.Trail strategy around start (next m.bare, m.bare) := by
  obtain ⟨result, hjudge, rfl⟩ := attempt_cases h
  rw [(Ledger.sameTrials_reportIfDue _ _ _).bare]
  exact htrail.tail (hnext result hjudge)

/-- A check that was not hindered and allows nothing finds all attempts used up. -/
theorem Unhindered.spent (h : plan.Unhindered (plan.check l).1) (hnone : (plan.check l).2 = 0) :
    plan.Spent (plan.check l).1 := by
  have hallows := h.check.2
  refine Spent.check (Or.inr ?_)
  omega

/-- **An unhindered search stays on the trail.** -/
theorem Stands.proceeds (hx : plan.Stands strategy around x) (h : plan.Proceeds strategy around x y)
    (hfree : plan.Unhindered y.2) : plan.Stands strategy around y := by
  obtain ⟨agenda, htrail, rfl | hrests⟩ := hx
  · cases h with
    | setOut =>
      -- a check leaves the trail where it is
      rw [← bare_check] at htrail
      exact ⟨_, htrail, Or.inl rfl⟩
    | skip hnone =>
      rw [← bare_check] at htrail
      exact ⟨_, htrail, Or.inr (hfree.spent hnone).firstStage⟩
    | begin hopen h =>
      -- an entry is one step of the trail
      have hnext := Trail.entered (fun m => (plan.firstStage strategy around m).agenda) htrail h
        fun _ hjudge => .root hopen hjudge
      exact ⟨_, hnext, Or.inl rfl⟩
    | lengthen hdepth => exact ⟨_, htrail.tail (.lengthen hdepth), Or.inl rfl⟩
    | deepest hdepth => exact ⟨_, htrail.tail (.deepest hdepth), Or.inl rfl⟩
    | judge =>
      rw [← bare_check] at htrail
      refine ⟨_, htrail, Or.inl ?_⟩
      rw [Stage.agenda, Stage.agenda, List.take_append_drop]
    | cutOff _ _ hnone =>
      rw [← bare_check] at htrail
      exact ⟨_, htrail, Or.inr ((hfree.spent hnone).nextStage _ _ _)⟩
    | @leave depth frontier before pending l hdone =>
      cases hs : l.solved with
      | true => exact ⟨_, htrail, Or.inr (Spent.nextStage (Or.inl hs) _ _ _)⟩
      | false =>
        obtain rfl : pending = [] := hdone.resolve_right (by rw [hs]; exact Bool.false_ne_true)
        exact ⟨_, htrail.tail (.leave hs), Or.inl rfl⟩
    | enter hopen h =>
      have hnext := Trail.entered (fun _ => .sweep _ _ _ _) htrail h fun _ hjudge => .enter hopen hjudge
      exact ⟨_, hnext, Or.inl rfl⟩
    | finish => exact ⟨_, htrail, Or.inl rfl⟩
    | drop hsolved => exact ⟨_, htrail, Or.inr (Or.inl hsolved)⟩
    | change hopen _ hfits =>
      have hnext := htrail.tail (.change hopen hfits)
      rw [← bare_check] at hnext
      exact ⟨_, hnext, Or.inl rfl⟩
    | overshoot hopen _ hlong =>
      have hnext := htrail.tail (.overshoot hopen hlong)
      rw [← bare_check] at hnext
      exact ⟨_, hnext, Or.inl rfl⟩
    | rest hdone => exact ⟨_, htrail.tail (.rest hdone), Or.inl rfl⟩
    | halt _ hnone =>
      rw [← bare_check] at htrail
      exact ⟨_, htrail, Or.inr (hfree.spent hnone)⟩
    | walk hopen h =>
      have hnext := Trail.entered (fun _ => .walking _ _ _) htrail h fun _ hjudge => .walk hopen hjudge
      exact ⟨_, hnext, Or.inl rfl⟩
    | close =>
      rw [← bare_report] at htrail
      exact ⟨_, htrail, Or.inl rfl⟩
  · -- off the trail the search only comes to its end
    obtain ⟨hrests, hbare⟩ := hrests.proceeds h
    rw [← hbare] at htrail
    exact ⟨agenda, htrail, Or.inr hrests⟩

/-- **Where an unhindered search ends**: somewhere on the trail, and short of its end only with a program
that solves the level or with all attempts used up. -/
theorem exists_trail (hleft : 0 < plan.maxAttempts) (stopped : Bool)
    (h : plan.run strategy around { stopAsked := stopped } = .ok l) (hfree : plan.Unhindered l) :
    ∃ agenda, plan.Trail strategy around (.root, {}) (agenda, l.bare) ∧
      (agenda = .done ∨ plan.Spent l) ∧ l.records ≠ [] := by
  have hpasses := (run_eq_ok_iff rfl).1 h
  have hstands := hpasses.invariant (P := fun x => plan.Unhindered x.2 → plan.Stands strategy around x)
    (fun hx hstep hy => (hx (hstep.unhindered hy)).proceeds hstep hy)
    (fun _ => ⟨.root, Relation.ReflTransGen.refl, Or.inl rfl⟩) hfree
  obtain ⟨agenda, htrail, hend⟩ := hstands
  refine ⟨agenda, htrail, hend, ?_⟩
  -- there are attempts left for the empty program, so at least that one has been entered
  refine (trail_from_root htrail).resolve_left fun hnew => ?_
  obtain ⟨rfl, hbare⟩ := hnew
  have hsame := Ledger.sameTrials_of_bare (l := {}) hbare
  rcases hend with hdone | hsolved | hle
  · cases hdone
  · rw [hsame.solved] at hsolved
    cases hsolved
  · rw [hsame.attempts] at hle
    exact absurd hle (Nat.not_le.2 hleft)

variable {agenda agenda' : Agenda σ} {l' : Ledger}

/-- Of two places on the trail, one is behind the other; and the one at which nothing more is entered is not
before one with more attempts. -/
theorem trail_compare (h : plan.Trail strategy around (.root, {}) (agenda, l.bare))
    (h' : plan.Trail strategy around (.root, {}) (agenda', l'.bare))
    (hend : agenda' = .done ∨ l'.solved = true ∨ l.attempts ≤ l'.attempts) :
    l.SameTrials l' ∨ (l.solved = false ∧ l.records <:+ l'.records) := by
  have hunique : Relator.RightUnique (plan.Tries strategy around) := fun _ _ _ h h' => h.unique h'
  rcases Relation.ReflTransGen.total_of_right_unique hunique h h' with hon | hback
  · exact (trail_grows hon).imp Ledger.sameTrials_of_bare fun ⟨hopen, _, hsuffix⟩ => ⟨hopen, hsuffix⟩
  · rcases trail_grows hback with hsame | ⟨hopen, hlt, -⟩
    · exact Or.inl (Ledger.sameTrials_of_bare hsame.symm)
    · rcases hend with rfl | hsolved | hle
      · rcases Relation.ReflTransGen.cases_head hback with hsame | ⟨_, hstep, -⟩
        · exact Or.inl (Ledger.sameTrials_of_bare (congrArg Prod.snd hsame))
        · cases hstep
      · exact absurd hsolved (Bool.eq_false_iff.1 hopen)
      · exact absurd hlt (Nat.not_lt.2 hle)

end Searches

end Plan

/-! ## Two searches

  The one with fewer attempts is never ahead: it has ended because of a program that solves the level,
  which the other meets as well, or with fewer attempts than the other one, or at the end of the trail. -/

/-- What the one search has tried and found, the other one has tried and found as well, and perhaps
more. -/
structure Ledger.Extends (l l' : Ledger) : Prop where
  /-- the trials of the one come first in the other, in the same order -/
  records : l.records.reverse <+: l'.records.reverse
  /-- the best of the other is no worse -/
  score : ∃ b b', l.best = some b ∧ l'.best = some b' ∧ b.result.score ≤ b'.result.score
  /-- and if the one has solved the level, they end alike -/
  solved : l.solved = true → l'.solved = true ∧ l'.program = l.program ∧ l'.best = l.best ∧
    l'.attempts = l.attempts

section Levels

variable {σ : Type} {level : Level} {options : Options} {evaluation : Evaluation.Options}
  {around : Circumstances σ}

theorem faithful_of_conduct {l : Ledger} (h : conduct level options evaluation around = .ok l) :
    Faithful (fun program => Evaluation.evaluate program level evaluation) l := by
  have hyields : (planOf level options evaluation around).Yields { stopAsked := around.stopped }
      (conduct level options evaluation around) := Plan.run_yields _ options.strategy around rfl
  rw [h] at hyields
  exact Plan.Leads.invariant (faithful_step (planOf_fair level options evaluation around)) hyields
    (faithful_new around.stopped)

variable (level options evaluation around)

/-- **More attempts only take a search further**, by length with any number of workers, or by chance with
the same dice.  Of two unhindered searches that differ in the attempts allowed, and in how the time passes,
the one with fewer attempts has tried the first of the programs that the other one has tried; so its best
score is no higher, and if it has found a program that solves the level, so has the other one, after
just as many attempts.  On a level that can be started both searches return. -/
theorem conduct_extends {m m' : Int} (hpos : 0 < m) (hle : m ≤ m') (watch : Watch) :
    (∀ l l', conduct level { options with maxAttempts := some m } evaluation around = .ok l →
      conduct level { options with maxAttempts := some m' } evaluation { around with watch } = .ok l' →
      (planOf level { options with maxAttempts := some m } evaluation around).Unhindered l →
      (planOf level { options with maxAttempts := some m' } evaluation
        { around with watch }).Unhindered l' →
      l.Extends l') ∧
    (Simulation.Headed level.spawner → ∀ s,
      level.start (evaluation.maxTicks.getD Simulation.defaultMaxSteps) = .ok s →
      ∃ l l', conduct level { options with maxAttempts := some m } evaluation around = .ok l ∧
        conduct level { options with maxAttempts := some m' } evaluation { around with watch }
          = .ok l') := by
  refine ⟨fun l l' hl hl' hfree hfree' => ?_, fun hh s hstart => ?_⟩
  · have hbudget : budget (some m) 200 ≤ budget (some m') 200 := by
      rw [budget, budget, if_pos hpos, if_pos (Int.lt_of_lt_of_le hpos hle)]
      exact Int.toNat_le_toNat hle
    have hvisits : Visits level { options with maxAttempts := some m } evaluation around (.over, l) :=
      (Plan.run_eq_ok_iff rfl).1 hl
    have hcount : l.attempts ≤ budget (some m) 200 := hvisits.bounds.attempts
    have hleft : ∀ value, 0 < budget value 200 := budget_pos (by decide)
    obtain ⟨agenda, htrail, -, hne⟩ := Plan.exists_trail (hleft (some m)) _ hl hfree
    obtain ⟨agenda', htrail', hend, hne'⟩ := Plan.exists_trail (hleft (some m')) _ hl' hfree'
    -- the same trail, whatever is allowed
    have htrail := htrail.congr (budget (some m') 200) watch
    have hcompare : l.SameTrials l' ∨ (l.solved = false ∧ l.records <:+ l'.records) := by
      refine Plan.trail_compare htrail htrail' (hend.imp_right (Or.imp_right fun hspent => ?_))
      exact hcount.trans (hbudget.trans hspent)
    have hsuffix : l.records <:+ l'.records := by
      rcases hcompare with hsame | ⟨-, hsuffix⟩
      · rw [hsame.records]
      · exact hsuffix
    refine ⟨List.reverse_prefix.2 hsuffix, ?_, fun hsolved => ?_⟩
    · obtain ⟨b, hb, -, -, hlead, -⟩ := (faithful_of_conduct hl).best hne
      obtain ⟨b', hb', -, -, -, hmax⟩ := (faithful_of_conduct hl').best hne'
      exact ⟨b, b', hb, hb', hmax b (hsuffix.subset hlead.mem)⟩
    · rcases hcompare with hsame | ⟨hopen, -⟩
      · refine ⟨hsame.solved.trans hsolved, ?_, hsame.best, hsame.attempts⟩
        rw [Ledger.program, hsame.best, Ledger.program]
      · rw [hsolved] at hopen
        cases hopen
  · have hsure : (planOf level { options with maxAttempts := some m } evaluation around).Sure :=
      planOf_sure hh hstart
    have hsure' : (planOf level { options with maxAttempts := some m' } evaluation
        { around with watch }).Sure := planOf_sure hh hstart
    obtain ⟨l, hl⟩ := hsure.run_ok options.strategy around (l := { stopAsked := around.stopped }) rfl
    obtain ⟨l', hl'⟩ := hsure'.run_ok options.strategy { around with watch }
      (l := { stopAsked := around.stopped }) rfl
    exact ⟨l, l', hl, hl'⟩

end Levels

open Evaluation (doorstep)

/-- Two attempts do not suffice to find the step that solves the level, and three do, with the clock
running. -/
theorem conduct_extends_doorstep :
    ∃ l l', conduct doorstep { threeSteps with maxAttempts := some 2 } {} unhurried = .ok l ∧
      conduct doorstep { threeSteps with maxAttempts := some 3 } {}
        { unhurried with watch := fun k => { elapsedMs := min k 1499 } } = .ok l' ∧
      l.solved = false ∧ l'.solved = true ∧ l.Extends l' := by
  have hopen : ((conduct doorstep { threeSteps with maxAttempts := some 2 } {} unhurried).map
      Ledger.solved).toOption = some false := by decide +kernel
  have hfound : ((conduct doorstep { threeSteps with maxAttempts := some 3 } {}
      { unhurried with watch := fun k => { elapsedMs := min k 1499 } }).map
        Ledger.solved).toOption = some true := by decide +kernel
  have hu : (planOf doorstep { threeSteps with maxAttempts := some 2 } {} unhurried).Undisturbed :=
    undisturbed_unhurried _ _ _ (fun _ => rfl) fun _ => show 0 < 1500 by decide
  have hu' : (planOf doorstep { threeSteps with maxAttempts := some 3 } {}
      { unhurried with watch := fun k => { elapsedMs := min k 1499 } }).Undisturbed := by
    refine undisturbed_unhurried _ _ _ (fun _ => rfl) fun k => ?_
    show min k 1499 < 1500
    omega
  -- the two searches differ in their attempts and in their watches
  obtain ⟨hextends, hreturns⟩ := conduct_extends doorstep threeSteps {} unhurried
    (show (0 : Int) < 2 by decide) (show (2 : Int) ≤ 3 by decide)
    fun k => { elapsedMs := min k 1499 }
  obtain ⟨s, hs⟩ : ∃ s, doorstep.start Simulation.defaultMaxSteps = .ok s := ⟨_, rfl⟩
  obtain ⟨l, l', hl, hl'⟩ := hreturns (by decide) s hs
  rw [hl] at hopen
  rw [hl'] at hfound
  exact ⟨l, l', hl, hl', Option.some.inj hopen, Option.some.inj hfound,
    hextends l l' hl hl' (hu.unhindered rfl hl) (hu'.unhindered rfl hl')⟩

end Search

end RobotPuzzle
