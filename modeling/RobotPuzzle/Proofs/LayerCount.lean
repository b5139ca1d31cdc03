/-
  How many programs an unsolved search by length tries.

  1. **Unhindered** (`Plan.Unhindered`) — no check has noticed a stop, and each was made in time.  Then a check
     allows just the attempts that are left, and all earlier books are unhindered as well.
  2. **Full frontiers** (`fill`) — every program of a full frontier has a child for every action, and the
     beam cuts off what it does not hold; so the number of programs up to a depth is a sum (`upTo`).
  3. **Each stage** (`Counts`) — while no program solves the level, every frontier is full, and attempts and
     pending programs together are as many as there are programs up to the next depth.  How many
     programs make a chunk is of no account, and wherever a check allows no more, all attempts are used up.
  4. **The search** (`conduct_attempts`) — so at its end the attempts are all programs up to the greatest
     depth, or all that were allowed.

  The crux is that the count is kept within a layer as a sum, `attempts + left`, which neither checks nor
  entries change.  It is only between layers that one has to say how many there are next, and there the
  frontier is known to be full.

  The closed form counts programs of a layer by the width of the beam, so it has to say how wide a layer
  really is: `fill` is that number, and it is less than the beam only in the first layers, or where the
  vocabulary has one action or none.  That the vocabulary may name an action twice makes programs be tried
  twice; they are counted twice.
-/
import Mathlib.Algebra.BigOperators.Intervals
import Mathlib.Algebra.Order.BigOperators.Group.Finset
import RobotPuzzle.Proofs.Scenes
import RobotPuzzle.Proofs.Stages
import RobotPuzzle.Proofs.WideBeam

namespace RobotPuzzle

namespace Search

namespace Plan

variable {σ : Type} {plan : Plan} {l m : Ledger}

/-! ## Unhindered

  Being unhindered is about the end of a search and tells of all checks before it.  So it is handed back
  step by step, from the later books to the earlier ones. -/

/-- No check has noticed that the search should stop, and each was made in time. -/
structure Unhindered (plan : Plan) (l : Ledger) : Prop where
  /-- the search has not been stopped -/
  uncancelled : l.cancelled = false
  /-- nor has any check been made too late -/
  inTime : ∀ k < l.checks, (plan.watch k).elapsedMs < plan.maxTimeMs

/-- Books with as many checks, of which none has noticed a stop, are as unhindered. -/
theorem Unhindered.of_eq (h : plan.Unhindered m) (hcancelled : m.cancelled = l.cancelled)
    (hchecks : m.checks = l.checks) : plan.Unhindered l := by
  refine ⟨hcancelled.symm.trans h.uncancelled, ?_⟩
  rw [← hchecks]
  exact h.inTime

/-- A check that was not hindered allows the attempts that are left. -/
theorem Unhindered.check (h : plan.Unhindered (plan.check l).1) :
    plan.Unhindered l ∧ (plan.check l).2 = plan.maxAttempts - l.attempts := by
  obtain ⟨hcancelled, hinTime⟩ := h
  unfold Plan.check Ledger.check at hcancelled hinTime ⊢
  dsimp only at hcancelled hinTime ⊢
  split at hcancelled
  · cases hcancelled
  · rename_i hunasked
    rw [if_neg hunasked] at hinTime ⊢
    split at hinTime
    · rename_i hlate
      exact absurd (hinTime l.checks (Nat.lt_succ_self _)) (Nat.not_lt.2 hlate)
    · rename_i hearly
      rw [if_neg hearly] at hcancelled ⊢
      exact ⟨⟨hcancelled, fun k hk => hinTime k (Nat.lt_succ_of_lt hk)⟩, rfl⟩

theorem Unhindered.report {listener : Option Listener} (h : plan.Unhindered (l.report listener)) :
    plan.Unhindered l := by
  cases listener with
  | none => exact h
  | some hear => exact h.of_eq rfl rfl

theorem Unhindered.attempt {program : Program} (h : plan.attempt program l = .ok m)
    (hm : plan.Unhindered m) : plan.Unhindered l := by
  obtain ⟨result, -, rfl⟩ := attempt_cases h
  unfold Ledger.reportIfDue at hm
  split at hm
  · exact hm.report.of_eq rfl rfl
  · exact hm.of_eq rfl rfl

/-- Books that are unhindered were so before. -/
theorem Proceeds.unhindered {strategy : Strategy} {around : Circumstances σ} {x y : Stage σ × Ledger}
    (h : plan.Proceeds strategy around x y) (hy : plan.Unhindered y.2) : plan.Unhindered x.2 := by
  cases h with
  | begin _ h | enter _ h | walk _ h => exact hy.attempt h
  | close => exact hy.report
  | lengthen | deepest | leave | finish | drop | rest => exact hy
  | _ => exact hy.check.1

/-- Nor has any program solved the level before, if none has in the end. -/
theorem Proceeds.unsolved {strategy : Strategy} {around : Circumstances σ} {x y : Stage σ × Ledger}
    (h : plan.Proceeds strategy around x y) (hy : y.2.solved = false) : x.2.solved = false := by
  rcases h.books with hsame | ⟨hopen, -⟩
  · exact hsame.solved.symm.trans hy
  · exact hopen

end Plan

/-! ## Full frontiers

  Numbers only.  A layer that holds no program at all ends the search early, and then the sums stop
  growing, too. -/

/-- How many programs a full frontier of that depth holds, with so many actions and a beam that wide. -/
def fill (actions width : Nat) : Nat → Nat
  | 0 => 1
  | depth + 1 => min width (actions * fill actions width depth)

/-- How many programs there are in full frontiers and their children up to that depth. -/
def upTo (actions width depth : Nat) : Nat :=
  1 + ∑ d ∈ Finset.range depth, actions * fill actions width d

section Counting

variable {actions width d e : Nat}

/-- Up to the next depth there are the children of this frontier more. -/
theorem upTo_succ : upTo actions width (d + 1) = upTo actions width d + actions * fill actions width d := by
  rw [upTo, upTo, Finset.sum_range_succ, Nat.add_assoc]

theorem upTo_mono (h : d ≤ e) : upTo actions width d ≤ upTo actions width e :=
  Nat.add_le_add_left (Finset.sum_le_sum_of_subset (Finset.range_mono h)) 1

/-- Behind an empty frontier there is nothing. -/
theorem upTo_of_fill_eq_zero (hzero : fill actions width d = 0) (h : d ≤ e) :
    upTo actions width e = upTo actions width d := by
  have hall : fill actions width e = 0 ∧ upTo actions width e = upTo actions width d := by
    induction e, h using Nat.le_induction with
    | base => exact ⟨hzero, rfl⟩
    | succ e _ ih =>
      obtain ⟨hfill, hupTo⟩ := ih
      refine ⟨?_, ?_⟩
      · rw [fill, hfill, Nat.mul_zero, Nat.min_zero]
      · rw [upTo_succ, hfill, Nat.mul_zero, hupTo, Nat.add_zero]
  exact hall.2

end Counting

/-! ## Each stage

  There is a statement for each stage of a search by length, and none for walks, which do not occur in it.
-/

namespace Plan

variable {σ : Type} {plan : Plan} {l m : Ledger}

/-- How many programs of the plan are tried up to that depth, if there are attempts enough. -/
def amount (plan : Plan) (depth : Nat) : Nat := upTo plan.actions.length plan.beamWidth depth

/-- A full frontier, and books in which all programs up to its depth have been tried. -/
structure Full (plan : Plan) (depth : Nat) (frontier : List Program) (l : Ledger) : Prop where
  /-- the depth is within the greatest depth -/
  within : depth ≤ plan.maxDepth
  /-- the frontier is as wide as it can be -/
  full : frontier.length = fill plan.actions.length plan.beamWidth depth
  /-- and all programs so far have been tried -/
  attempts : l.attempts = plan.amount depth

/-- A full frontier is being lengthened: so many programs of the next depth are still to be tried. -/
structure Filling (plan : Plan) (depth : Nat) (frontier : List Program) (before l : Ledger)
    (left : Nat) : Prop where
  /-- the frontier is full -/
  full : plan.Full depth frontier before
  /-- and may be lengthened -/
  deeper : depth < plan.maxDepth
  /-- what has been tried and what is left make up the next depth -/
  attempts : l.attempts + left = plan.amount (depth + 1)

/-- How far the books of a stage have come while no program solves the level. -/
def Counts (plan : Plan) (l : Ledger) : Stage σ → Prop
  | .opening | .root => l.attempts = 0
  | .layer depth frontier => plan.Full depth frontier l ∧ l.attempts ≤ plan.maxAttempts
  | .pending depth frontier before programs =>
    plan.Filling depth frontier before l programs.length ∧ l.attempts ≤ plan.maxAttempts
  | .batch depth frontier before chunk behind =>
    plan.Filling depth frontier before l (chunk.length + behind.length) ∧
      l.attempts + chunk.length ≤ plan.maxAttempts
  | .walking _ _ _ | .candidate _ _ _ => False
  | .closing | .over => l.attempts = min plan.maxAttempts (plan.amount plan.maxDepth)

section Layers

variable {depth left : Nat} {frontier : List Program} {before : Ledger}

/-- With the children of a full frontier one comes to the number up to the next depth. -/
theorem amount_children (h : plan.Full depth frontier before) :
    before.attempts + (plan.children frontier).length = plan.amount (depth + 1) := by
  rw [h.attempts, length_children, h.full, Nat.mul_comm]
  exact upTo_succ.symm

theorem Full.lengthen (h : plan.Full depth frontier l) (hdepth : depth < plan.maxDepth) :
    plan.Filling depth frontier l l (plan.children frontier).length :=
  ⟨h, hdepth, amount_children h⟩

/-- Entering programs leaves as many fewer to be tried. -/
theorem Filling.of_attempts {less : Nat} (h : plan.Filling depth frontier before l left)
    (hm : m.attempts + less = l.attempts + left) : plan.Filling depth frontier before m less :=
  ⟨h.full, h.deeper, hm.trans h.attempts⟩

/-- As many are kept of a layer as the beam holds, or as there are. -/
theorem length_keep {records : List Record} :
    (plan.keep records).length = min plan.beamWidth records.length := by
  rw [keep, List.length_map, List.length_take, (ranked_perm records).length_eq]

/-- The records since then are as many as the attempts since then. -/
theorem length_since (hrecords : l.records.length = l.attempts) (before : Ledger) :
    (l.since before).length = l.attempts - before.attempts := by
  rw [Ledger.since, List.length_reverse, List.length_take, hrecords]
  omega

/-- Behind a layer, either it has been tried in full and the next frontier is full again, or all
attempts are used up. -/
theorem Filling.nextStage (h : plan.Filling depth frontier before l left)
    (hrecords : l.records.length = l.attempts) (hopen : l.solved = false)
    (hle : l.attempts ≤ plan.maxAttempts) (hdone : left = 0 ∨ plan.maxAttempts ≤ l.attempts) :
    plan.Counts l (plan.nextStage depth frontier before l : Stage σ) := by
  have hall := amount_children h.full
  have hcount := h.attempts
  have hmono : plan.amount (depth + 1) ≤ plan.amount plan.maxDepth := upTo_mono h.deeper
  unfold Plan.nextStage
  rw [hopen, Bool.false_or]
  split
  · rename_i hshort
    -- the layer has been broken off, which happens only when all attempts are used up
    have hlt := of_decide_eq_true hshort
    show l.attempts = min plan.maxAttempts (plan.amount plan.maxDepth)
    omega
  · rename_i hfull
    have hge := Nat.not_lt.1 (mt decide_eq_true hfull)
    have hl : l.attempts = plan.amount (depth + 1) := by omega
    -- the layer is whole, and as many of its programs are kept as there is room for
    have hkeep : (plan.keep (l.since before)).length
        = fill plan.actions.length plan.beamWidth (depth + 1) := by
      have hsince : (l.since before).length
          = plan.actions.length * fill plan.actions.length plan.beamWidth depth := by
        rw [length_since hrecords, hl, ← hall, Nat.add_sub_cancel_left, length_children, h.full.full,
          Nat.mul_comm]
      rw [length_keep, hsince, fill]
    split
    · rename_i hempty
      -- with nothing kept, no deeper layer has any program
      rw [List.isEmpty_iff.1 hempty] at hkeep
      have hend : plan.amount plan.maxDepth = plan.amount (depth + 1) :=
        upTo_of_fill_eq_zero hkeep.symm h.deeper
      show l.attempts = min plan.maxAttempts (plan.amount plan.maxDepth)
      omega
    · exact ⟨⟨h.deeper, hkeep, hl⟩, hle⟩

end Layers

/-- Behind the empty program comes the first frontier, unless there are no actions. -/
theorem counts_firstStage (around : Circumstances σ) (hopen : l.solved = false)
    (hcount : l.attempts = 1) (hleft : 0 < plan.maxAttempts) :
    plan.Counts l (plan.firstStage .beam around l) := by
  unfold firstStage
  rw [hopen, Bool.or_false]
  split
  · rename_i hempty
    have hone : plan.amount plan.maxDepth = 1 := by
      rw [amount, upTo, List.isEmpty_iff.1 hempty]
      simp
    show l.attempts = min plan.maxAttempts (plan.amount plan.maxDepth)
    omega
  · exact ⟨⟨Nat.zero_le _, rfl, hcount⟩, by omega⟩

/-- As many records as attempts, and all counted while nothing hinders the search and no program solves
the level. -/
structure Counted (plan : Plan) (scene : Stage σ × Ledger) : Prop where
  /-- every attempt is in the records -/
  recorded : scene.2.records.length = scene.2.attempts
  /-- at every stage the attempts are those that the closed form counts -/
  stage : plan.Unhindered scene.2 → scene.2.solved = false → plan.Counts scene.2 scene.1

theorem recorded_attempt {program : Program} (h : plan.attempt program l = .ok m)
    (hl : l.records.length = l.attempts) : m.records.length = m.attempts := by
  obtain ⟨result, -, rfl⟩ := attempt_cases h
  obtain ⟨hrecords, hattempts, -, -⟩ :=
    Ledger.sameTrials_reportIfDue plan.listener plan.every (l.enter ⟨program, result⟩)
  rw [hrecords, hattempts]
  exact congrArg Nat.succ hl

theorem Proceeds.recorded {strategy : Strategy} {around : Circumstances σ} {x y : Stage σ × Ledger}
    (h : plan.Proceeds strategy around x y) (hx : x.2.records.length = x.2.attempts) :
    y.2.records.length = y.2.attempts := by
  rcases h.books with hsame | ⟨-, program, h⟩
  · rw [hsame.records, hsame.attempts]
    exact hx
  · exact recorded_attempt h hx

/-- **One stage after the other keeps the count.** -/
theorem Counted.proceeds {around : Circumstances σ} (hleft : 0 < plan.maxAttempts)
    {x y : Stage σ × Ledger} (hx : plan.Counted x) (h : plan.Proceeds .beam around x y) :
    plan.Counted y := by
  refine ⟨h.recorded hx.recorded, fun hfree hopen => ?_⟩
  have hrecords := h.recorded hx.recorded
  have hopen' := h.unsolved hopen
  have hstage := hx.stage (h.unhindered hfree) hopen'
  cases h with
  | setOut hallowed => exact (check_attempts plan _).trans hstage
  | @skip l hnone =>
    -- there are attempts left at the beginning
    have hallows := hfree.check.2
    have hnew : l.attempts = 0 := hstage
    omega
  | begin _ h =>
    exact counts_firstStage around hopen ((attempt_attempts h).trans (congrArg Nat.succ hstage)) hleft
  | lengthen hdepth => exact ⟨hstage.1.lengthen hdepth, hstage.2⟩
  | @deepest depth frontier l hdepth =>
    obtain ⟨hfull, hle⟩ := hstage
    have hall := hfull.attempts
    rw [Nat.le_antisymm hfull.within hdepth] at hall
    exact hall.trans (Nat.min_eq_right (hall.symm.trans_le hle)).symm
  | @judge depth frontier before pending l hmore _ hallowed =>
    obtain ⟨hfilling, hle⟩ := hstage
    have hcount := check_attempts plan l
    have hroom := check_allows plan l
    refine ⟨hfilling.of_attempts ?_, ?_⟩
    · rw [hcount, List.length_take, List.length_drop]
      dsimp only
      omega
    · rw [List.length_take]
      dsimp only at hle ⊢
      omega
  | @cutOff depth frontier before pending l hmore _ hnone =>
    obtain ⟨hfilling, hle⟩ := hstage
    have hcount := check_attempts plan l
    have hallows := hfree.check.2
    refine (hfilling.of_attempts (congrArg (· + pending.length) hcount)).nextStage hrecords hopen ?_
      (Or.inr ?_)
    · exact hcount.trans_le hle
    · omega
  | @leave depth frontier before pending l hdone =>
    refine hstage.1.nextStage hrecords hopen hstage.2 (Or.inl ?_)
    rcases hdone with rfl | hsolved
    · rfl
    · rw [hsolved] at hopen'
      cases hopen'
  | @enter depth frontier before program rest behind l m _ h =>
    obtain ⟨hfilling, hroom⟩ := hstage
    have hcount : m.attempts = l.attempts + 1 := attempt_attempts h
    rw [List.length_cons] at hroom hfilling
    refine ⟨hfilling.of_attempts ?_, ?_⟩
    all_goals
      dsimp only at hroom ⊢
      omega
  | @finish depth frontier before behind l =>
    obtain ⟨hfilling, hroom⟩ := hstage
    refine ⟨hfilling.of_attempts ?_, hroom⟩
    rw [List.length_nil, Nat.zero_add]
  | drop hsolved hjudge =>
    rw [hsolved] at hopen'
    cases hopen'
  | change | overshoot | rest | halt | walk => cases hstage
  | close => exact (Ledger.sameTrials_report _ _).attempts.trans hstage

end Plan

/-! ## The search

  What is left is to read the count off the last stage, and to see that a search which nobody disturbs is
  one that was not hindered. -/

section Levels

variable {σ : Type} {level : Level} {options : Options} {evaluation : Evaluation.Options}
  {around : Circumstances σ}

/-- A search that nobody disturbs is unhindered to its end. -/
theorem Plan.Undisturbed.unhindered (hu : (planOf level options evaluation around).Undisturbed)
    (hstopped : around.stopped = false) {l : Ledger}
    (hl : conduct level options evaluation around = .ok l) :
    (planOf level options evaluation around).Unhindered l := by
  have hyields : (planOf level options evaluation around).Yields { stopAsked := around.stopped }
      (conduct level options evaluation around) := Plan.run_yields _ options.strategy around rfl
  rw [hl] at hyields
  exact ⟨hu.cancelled hstopped rfl hyields, fun k _ => hu.inTime k⟩

/-- **How many programs an unsolved search by length tries**: all of them up to the greatest depth, or as
many as are allowed.  The vocabulary may be empty and may name an action twice, and any number of
programs may be judged at a time. -/
theorem conduct_attempts (hbeam : options.strategy = .beam) {l : Ledger}
    (hl : conduct level options evaluation around = .ok l) (hopen : l.solved = false)
    (hfree : (planOf level options evaluation around).Unhindered l) :
    l.attempts = min options.attempts
      (1 + ∑ d ∈ Finset.range options.depth,
        options.actions.length * fill options.actions.length options.width d) := by
  rw [conduct, hbeam, Plan.run_eq_ok_iff rfl] at hl
  have hleft : 0 < (planOf level options evaluation around).maxAttempts :=
    budget_pos (by decide) options.maxAttempts
  have hcounted := hl.invariant (fun hx h => Plan.Counted.proceeds hleft hx h) ⟨rfl, fun _ _ => rfl⟩
  exact hcounted.stage hfree hopen

end Levels

open Evaluation (doorstep)

/-- Steps that lead nowhere, one of them listed twice, with a beam for all programs of one step. -/
def idleSteps : Options :=
  { actions := [.wait, .turnLeft, .wait], maxDepth := some 2, beamWidth := some 3, workers := 2 }

/-- All programs of at most two steps are tried: one, three and nine. -/
theorem conduct_attempts_idle :
    ∃ l, conduct doorstep idleSteps {} unhurried = .ok l ∧ l.solved = false ∧
      (planOf doorstep idleSteps {} unhurried).Unhindered l ∧ l.attempts = 13 := by
  have hu : (planOf doorstep idleSteps {} unhurried).Undisturbed :=
    undisturbed_unhurried _ _ _ (fun _ => rfl) fun _ => show 0 < 1500 by decide
  obtain ⟨s, hs⟩ : ∃ s, doorstep.start Simulation.defaultMaxSteps = .ok s := ⟨_, rfl⟩
  have hsure : (planOf doorstep idleSteps {} unhurried).Sure := planOf_sure (by decide) hs
  obtain ⟨l, hl⟩ := hsure.run_ok .beam unhurried (l := {}) rfl
  have hexplores := Plan.run_explores hu ⟨by decide, by decide⟩ unhurried rfl rfl (l := {}) rfl
  rw [hl] at hexplores
  -- none of the thirteen programs solves the level, by evaluating each
  have hfails : ∀ d ≤ 2, ∀ p ∈ (planOf doorstep idleSteps {} unhurried).layer d,
      ((Evaluation.evaluate p doorstep {}).map Evaluation.Result.solved).toOption = some false := by
    decide +kernel
  have hopen : l.solved = false := by
    refine Bool.eq_false_iff.2 fun hsolved => ?_
    obtain ⟨d, hd, p, hp, result, hjudge, hfound⟩ := hexplores.solved_iff.1 hsolved
    have hfalse := hfails d hd p hp
    rw [show Evaluation.evaluate p doorstep {} = .ok result from hjudge] at hfalse
    have hopen' : result.solved = false := Option.some.inj hfalse
    rw [hfound] at hopen'
    cases hopen'
  have hfree := hu.unhindered rfl hl
  have hcount := conduct_attempts rfl hl hopen hfree
  exact ⟨l, hl, hopen, hfree, hcount.trans (by decide)⟩

end Search

end RobotPuzzle
