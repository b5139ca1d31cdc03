/-
  A search keeps to its vocabulary and to its budgets.

  1. **Fitting programs** (`Plan.Fits`) — the programs of the layers within the depth.  A change by chance
     leads from a layer to one that is at most one deeper (`mutate_layer`), and without its last step a
     program is back in the layer before (`dropLast_layer`); that is all a walk needs.
  2. **Frugal books** (`Frugal`) — what has been entered, what is best and what has been reported fits, and
     the attempts are within their number.
  3. **Each stage** (`Keeps`) — what is judged in a stage fits, and there are attempts left for it.  A chunk
     brings its own attempts along; a frontier is part of one layer and no wider than the beam.
  4. **Every moment** (`Within.proceeds`) — one stage after the other keeps all that, so it holds at every
     moment of a search, and the search is its stages (`conduct_within`).

  The crux is that programs are told by their layer, that is by their length together with their
  vocabulary.  A frontier lies in one layer, children in the next one, and a change by chance leads at
  most one layer further; so whatever a stage holds fits before it is judged.

  The statement is about scenes, that is a stage of the search together with its books, and `Visits` lists
  them all.  Since the list of scenes could be anything, the theorem also says that it is the right one: a
  search returns just what the last scene holds, and fails just where a scene has a program that cannot be
  judged.  The three budgets are those in force, with what is assumed where nothing is said.
-/
import RobotPuzzle.Proofs.Stages
import RobotPuzzle.Proofs.WideBeam

namespace RobotPuzzle

namespace Search

/-! ## Fitting programs

  Each way to get a new program is one lemma on layers: adding a step, taking the last one away, and
  changing one. -/

namespace Plan

variable {σ : Type} {plan : Plan}

/-- A program of a layer within the depth. -/
def Fits (plan : Plan) (p : Program) : Prop := ∃ d ≤ plan.maxDepth, p ∈ plan.layer d

/-- The empty program fits, whatever the depth. -/
theorem fits_nil (plan : Plan) : plan.Fits [] :=
  ⟨0, Nat.zero_le _, List.mem_singleton_self _⟩

/-- So does the program to show, which is the empty one while there is no best. -/
theorem fits_shown {best : Option Record} (h : ∀ r ∈ best, plan.Fits r.program) :
    plan.Fits ((best.map Record.program).getD []) := by
  cases best with
  | none => exact plan.fits_nil
  | some r => exact h r rfl

theorem length_of_mem_layer {d : Nat} {p : Program} (h : p ∈ plan.layer d) : p.length = d := by
  obtain ⟨as, -, rfl, rfl⟩ := mem_layer.1 h
  exact List.length_map _

theorem children_layer {d : Nat} {frontier : List Program} (h : frontier ⊆ plan.layer d) :
    plan.children frontier ⊆ plan.layer (d + 1) := by
  intro p hp
  obtain ⟨q, hq, a, ha, rfl⟩ := mem_children.1 hp
  exact mem_children.2 ⟨q, h hq, a, ha, rfl⟩

/-- Without its last step a program is in the layer before, and the empty program stays where it is. -/
theorem dropLast_layer {d : Nat} {p : Program} (h : p ∈ plan.layer d) :
    p.dropLast ∈ plan.layer (d - 1) := by
  obtain ⟨as, has, rfl, rfl⟩ := mem_layer.1 h
  refine mem_layer.2 ⟨as.dropLast, fun a ha => has a (List.dropLast_subset as ha), ?_, ?_⟩
  · exact List.length_dropLast
  · exact List.map_dropLast.symm

/-- A program that is lengthened is one layer further, or where it was if there is no such action. -/
theorem lengthen_layer {d : Nat} {p : Program} (h : p ∈ plan.layer d) (index : Nat) :
    ∃ e ≤ d + 1, lengthen plan.actions index p ∈ plan.layer e := by
  unfold lengthen
  split
  · rename_i a ha
    exact ⟨d + 1, Nat.le_refl _, mem_children.2 ⟨p, h, a, List.mem_of_getElem? ha, rfl⟩⟩
  · exact ⟨d, Nat.le_succ d, h⟩

/-- To change a step keeps the layer. -/
theorem exchange_layer {d : Nat} {p : Program} (h : p ∈ plan.layer d) (place index : Nat) :
    exchange plan.actions place index p ∈ plan.layer d := by
  unfold exchange
  split
  · rename_i a ha
    obtain ⟨as, has, rfl, rfl⟩ := mem_layer.1 h
    refine mem_layer.2 ⟨as.set place a, fun b hb => ?_, List.length_set, List.map_set.symm⟩
    rcases List.mem_or_eq_of_mem_set hb with hb | rfl
    · exact has b hb
    · exact List.mem_of_getElem? ha
  · exact h

/-- A change by chance stays in the vocabulary, and adds one step at most. -/
theorem mutate_layer {d : Nat} {p : Program} (h : p ∈ plan.layer d) (dice : Dice σ) (s : σ) :
    ∃ e ≤ d + 1, (mutate dice plan.actions p s).1 ∈ plan.layer e := by
  unfold mutate
  dsimp only
  split
  · exact lengthen_layer h _
  · split
    · exact ⟨d, Nat.le_succ d, exchange_layer h _ _⟩
    · exact ⟨d - 1, by omega, dropLast_layer h⟩

theorem Fits.mutate {p : Program} (h : plan.Fits p) (dice : Dice σ) (s : σ)
    (hfits : (mutate dice plan.actions p s).1.length ≤ plan.maxDepth) :
    plan.Fits (Search.mutate dice plan.actions p s).1 := by
  obtain ⟨d, -, hp⟩ := h
  obtain ⟨e, -, he⟩ := mutate_layer hp dice s
  rw [length_of_mem_layer he] at hfits
  exact ⟨e, hfits, he⟩

/-- A program that has become too long fits again without its last step. -/
theorem Fits.mutate_dropLast {p : Program} (h : plan.Fits p) (dice : Dice σ) (s : σ) :
    plan.Fits (Search.mutate dice plan.actions p s).1.dropLast := by
  obtain ⟨d, hd, hp⟩ := h
  obtain ⟨e, hle, he⟩ := mutate_layer hp dice s
  exact ⟨e - 1, by omega, dropLast_layer he⟩

/-! ## Frugal books

  Each thing that can happen to the books keeps them frugal.  An entry needs an attempt that is left, and
  what is entered must fit. -/

/-- Books in which nothing goes beyond the plan. -/
structure Frugal (plan : Plan) (l : Ledger) : Prop where
  /-- all that has been entered fits -/
  recorded : ∀ r ∈ l.records, plan.Fits r.program
  /-- so does the best of it -/
  best : ∀ r ∈ l.best, plan.Fits r.program
  /-- reports are within the attempts, and what they show fits -/
  reported : ∀ r ∈ l.reports, r.attempts ≤ plan.maxAttempts ∧ ∀ b ∈ r.best, plan.Fits b.program
  /-- no more attempts than are allowed -/
  attempts : l.attempts ≤ plan.maxAttempts

variable {l m : Ledger}

theorem frugal_new (plan : Plan) (stopped : Bool) : plan.Frugal { stopAsked := stopped } where
  recorded := fun _ hr => (nomatch hr)
  best := fun _ hr => (nomatch hr)
  reported := fun _ hr => (nomatch hr)
  attempts := Nat.zero_le _

/-- Books with the same entries are frugal as well, if no report has come that says something else. -/
theorem Frugal.of_sameTrials (hl : plan.Frugal l) (h : l.SameTrials m)
    (hreported : ∀ r ∈ m.reports, r ∈ l.reports ∨ (r.attempts = l.attempts ∧ r.best = l.best)) :
    plan.Frugal m := by
  refine ⟨?_, ?_, fun r hr => ?_, ?_⟩
  · rw [h.records]
    exact hl.recorded
  · rw [h.best]
    exact hl.best
  · rcases hreported r hr with hr | ⟨hattempts, hbest⟩
    · exact hl.reported r hr
    · rw [hattempts, hbest]
      exact ⟨hl.attempts, hl.best⟩
  · rw [h.attempts]
    exact hl.attempts

theorem Frugal.check (hl : plan.Frugal l) : plan.Frugal (plan.check l).1 := by
  refine hl.of_sameTrials (Ledger.sameTrials_check _ _ _ l) fun r hr => Or.inl ?_
  rw [← (plan.check_reports l).1]
  exact hr

/-- A check that allows anything leaves room for an attempt. -/
theorem attempts_lt_of_allowed (h : (plan.check l).2 ≠ 0) :
    (plan.check l).1.attempts < plan.maxAttempts := by
  have hallows := check_allows plan l
  omega

/-- A report shows what is best, and how many attempts there have been. -/
theorem Frugal.report (hl : plan.Frugal l) (listener : Option Listener) :
    plan.Frugal (l.report listener) := by
  refine hl.of_sameTrials (Ledger.sameTrials_report listener l) fun r hr => ?_
  cases listener with
  | none => exact Or.inl hr
  | some hear =>
    rcases List.mem_cons.1 hr with rfl | hr
    · exact Or.inr ⟨rfl, rfl⟩
    · exact Or.inl hr

theorem Frugal.reportIfDue (hl : plan.Frugal l) (listener : Option Listener) (every : Nat) :
    plan.Frugal (l.reportIfDue listener every) := by
  unfold Ledger.reportIfDue
  split
  · exact Frugal.report (l := { l with lastReport := l.attempts })
      ⟨hl.recorded, hl.best, hl.reported, hl.attempts⟩ listener
  · exact hl

/-- An attempt that is left may be made, with a program that fits. -/
theorem Frugal.attempt {program : Program} (hl : plan.Frugal l) (hfits : plan.Fits program)
    (hleft : l.attempts < plan.maxAttempts) (h : plan.attempt program l = .ok m) : plan.Frugal m := by
  obtain ⟨result, -, rfl⟩ := attempt_cases h
  have henter : plan.Frugal (l.enter ⟨program, result⟩) := by
    refine ⟨List.forall_mem_cons.2 ⟨hfits, hl.recorded⟩, fun r hr => ?_, hl.reported, hleft⟩
    unfold Ledger.enter at hr
    dsimp only at hr
    split at hr
    · rw [← Option.some.inj hr]
      exact hfits
    · exact hl.best r hr
  exact henter.reportIfDue plan.listener plan.every

/-! ## Each stage

  A stage holds programs that are still to be judged, and a frontier with the books from before it.  What
  has to be known of them is what will be asked when the stage proceeds. -/

/-- A part of a layer within the depth, no wider than the beam. -/
structure Frontier (plan : Plan) (depth : Nat) (frontier : List Program) : Prop where
  /-- the depth is within the greatest depth -/
  within : depth ≤ plan.maxDepth
  /-- the beam is wide enough -/
  width : frontier.length ≤ plan.beamWidth
  /-- all programs have the length of the depth -/
  layer : frontier ⊆ plan.layer depth

/-- A frontier is being lengthened: these programs are still to be tried, and `before` are the books
from before the first. -/
structure Lengthens (plan : Plan) (depth : Nat) (frontier : List Program) (before l : Ledger)
    (programs : List Program) : Prop where
  /-- what is lengthened is a frontier -/
  frontier : plan.Frontier depth frontier
  /-- and may be lengthened -/
  deeper : depth < plan.maxDepth
  /-- what is left to try has one step more -/
  children : programs ⊆ plan.layer (depth + 1)
  /-- the books have only grown since -/
  earlier : before.attempts ≤ l.attempts
  /-- and what has been entered since has one step more, too -/
  entered : ∀ r ∈ l.since before, r.program ∈ plan.layer (depth + 1)

/-- What a stage asks of itself and of the books. -/
def Keeps (plan : Plan) (l : Ledger) : Stage σ → Prop
  | .root => l.attempts < plan.maxAttempts
  | .layer depth frontier => plan.Frontier depth frontier
  | .pending depth frontier before programs => plan.Lengthens depth frontier before l programs
  | .batch depth frontier before chunk behind =>
    plan.Lengthens depth frontier before l (chunk ++ behind) ∧
      l.attempts + chunk.length ≤ plan.maxAttempts
  | .walking _ current _ => plan.Fits current
  | .candidate _ program _ => plan.Fits program ∧ l.attempts < plan.maxAttempts
  | _ => True

namespace Lengthens

variable {depth : Nat} {frontier programs : List Program} {before : Ledger}

/-- The children of a frontier are to be tried, and nothing has been entered yet. -/
theorem begins (h : plan.Frontier depth frontier) (hdepth : depth < plan.maxDepth) (l : Ledger) :
    plan.Lengthens depth frontier l l (plan.children frontier) where
  frontier := h
  deeper := hdepth
  children := children_layer h.layer
  earlier := Nat.le_refl _
  entered := by
    intro r hr
    rw [Ledger.since, Nat.sub_self] at hr
    cases hr

/-- Some of the programs are enough. -/
theorem mono {others : List Program} (h : plan.Lengthens depth frontier before l programs)
    (hsub : others ⊆ programs) : plan.Lengthens depth frontier before l others :=
  ⟨h.frontier, h.deeper, fun _ hp => h.children (hsub hp), h.earlier, h.entered⟩

/-- The same, with books that have the same entries. -/
theorem of_sameTrials (h : plan.Lengthens depth frontier before l programs) (hsame : l.SameTrials m) :
    plan.Lengthens depth frontier before m programs := by
  refine ⟨h.frontier, h.deeper, h.children, ?_, ?_⟩
  · rw [hsame.attempts]
    exact h.earlier
  · rw [Ledger.since, hsame.attempts, hsame.records]
    exact h.entered

/-- The same, after a check. -/
theorem check (h : plan.Lengthens depth frontier before l programs) :
    plan.Lengthens depth frontier before (plan.check l).1 programs :=
  h.of_sameTrials (Ledger.sameTrials_check _ _ _ l)

/-- A chunk is no longer than the check allows. -/
theorem chunk (h : plan.Lengthens depth frontier before l programs)
    (hl : l.attempts ≤ plan.maxAttempts) :
    plan.Keeps (plan.check l).1 (.batch depth frontier before
      (programs.take (min (plan.check l).2 plan.chunk))
      (programs.drop (min (plan.check l).2 plan.chunk)) : Stage σ) := by
  refine ⟨?_, ?_⟩
  · rw [List.take_append_drop]
    exact h.check
  · have hroom := check_allows plan l
    have hcount := check_attempts plan l
    rw [List.length_take]
    omega

/-- The first of the programs has been entered. -/
theorem enter {r : Record} (h : plan.Lengthens depth frontier before l (r.program :: programs)) :
    plan.Lengthens depth frontier before (l.enter r) programs := by
  obtain ⟨hr, hrest⟩ := List.cons_subset.1 h.children
  refine ⟨h.frontier, h.deeper, hrest, Nat.le_succ_of_le h.earlier, ?_⟩
  have hsince : (l.enter r).since before = l.since before ++ [r] := by
    show ((r :: l.records).take (l.attempts + 1 - before.attempts)).reverse = _
    rw [Nat.succ_sub h.earlier, List.take_succ_cons, List.reverse_cons]
    rfl
  rw [hsince]
  exact List.forall_mem_append.2 ⟨h.entered, List.forall_mem_singleton.2 hr⟩

/-- The first of the programs has been tried. -/
theorem attempt {program : Program}
    (h : plan.Lengthens depth frontier before l (program :: programs))
    (hm : plan.attempt program l = .ok m) : plan.Lengthens depth frontier before m programs := by
  obtain ⟨result, -, rfl⟩ := attempt_cases hm
  exact (enter (r := ⟨program, result⟩) h).of_sameTrials (Ledger.sameTrials_reportIfDue _ _ _)

/-- What is kept of a layer is a frontier again. -/
theorem keep (h : plan.Lengthens depth frontier before l programs) :
    plan.Frontier (depth + 1) (plan.keep (l.since before)) := by
  refine ⟨h.deeper, length_keep_le plan _, fun p hp => ?_⟩
  obtain ⟨r, hr, rfl⟩ := List.mem_map.1 hp
  exact h.entered r ((ranked_perm _).mem_iff.1 (List.mem_of_mem_take hr))

/-- What follows when all have been tried. -/
theorem nextStage (h : plan.Lengthens depth frontier before l programs) :
    plan.Keeps l (plan.nextStage depth frontier before l : Stage σ) := by
  unfold Plan.nextStage
  split
  · trivial
  · split
    · trivial
    · exact h.keep

end Lengthens

/-- The stage that a search begins with. -/
theorem keeps_firstStage (hwidth : 0 < plan.beamWidth) (strategy : Strategy)
    (around : Circumstances σ) (l : Ledger) :
    plan.Keeps l (plan.firstStage strategy around l) := by
  unfold firstStage
  split
  · trivial
  · cases strategy with
    | beam => exact ⟨Nat.zero_le _, hwidth, List.Subset.refl _⟩
    | random => exact plan.fits_nil

/-- What a stage is about to judge fits. -/
theorem Keeps.judged {stage : Stage σ} (h : plan.Keeps l stage) : ∀ p ∈ stage.judged, plan.Fits p := by
  intro p hp
  cases stage with
  | root =>
    rw [List.mem_singleton.1 hp]
    exact plan.fits_nil
  | batch depth frontier before chunk behind =>
    exact ⟨depth + 1, h.1.deeper, h.1.children (List.mem_append_left behind hp)⟩
  | candidate left program dice =>
    rw [List.mem_singleton.1 hp]
    exact h.1
  | _ => cases hp

/-- A frontier is part of one layer and no wider than the beam. -/
theorem Keeps.frontier {stage : Stage σ} (h : plan.Keeps l stage) {depth : Nat}
    {frontier : List Program} (hfrontier : stage.frontier? = some (depth, frontier)) :
    plan.Frontier depth frontier := by
  cases stage with
  | layer d programs =>
    cases hfrontier
    exact h
  | pending d programs before pending =>
    cases hfrontier
    exact Lengthens.frontier h
  | batch d programs before chunk behind =>
    cases hfrontier
    exact h.1.frontier
  | _ => cases hfrontier

/-! ## Every moment

  `Proceeds` has one rule for each way from a stage to the next one, and the case of a rule is the lemma
  on what that way does. -/

/-- A moment at which nothing goes beyond the plan. -/
structure Within (plan : Plan) (scene : Stage σ × Ledger) : Prop where
  /-- nothing in the books does -/
  books : plan.Frugal scene.2
  /-- and nothing that is under way -/
  stage : plan.Keeps scene.2 scene.1

/-- **One stage after the other keeps everything within the plan.** -/
theorem Within.proceeds {strategy : Strategy} {around : Circumstances σ} (hwidth : 0 < plan.beamWidth)
    {x y : Stage σ × Ledger} (hx : plan.Within x) (h : plan.Proceeds strategy around x y) :
    plan.Within y := by
  obtain ⟨hbooks, hstage⟩ := hx
  cases h with
  | setOut hallowed => exact ⟨hbooks.check, attempts_lt_of_allowed hallowed⟩
  | skip hnone => exact ⟨hbooks.check, keeps_firstStage hwidth strategy around _⟩
  | begin hopen h =>
    exact ⟨hbooks.attempt plan.fits_nil hstage h, keeps_firstStage hwidth strategy around _⟩
  | lengthen hdepth => exact ⟨hbooks, Lengthens.begins hstage hdepth _⟩
  | deepest hdepth => exact ⟨hbooks, trivial⟩
  | judge hmore hopen hallowed => exact ⟨hbooks.check, Lengthens.chunk hstage hbooks.attempts⟩
  | cutOff hmore hopen hnone => exact ⟨hbooks.check, (Lengthens.check hstage).nextStage⟩
  | leave hdone => exact ⟨hbooks, Lengthens.nextStage hstage⟩
  | enter hopen h =>
    -- one more is entered and one fewer is left of the chunk, so there is as much room as before
    obtain ⟨hlengthens, hroom⟩ := hstage
    rw [List.length_cons] at hroom
    have hcount := attempt_attempts h
    refine ⟨hbooks.attempt ⟨_, hlengthens.deeper, hlengthens.children List.mem_cons_self⟩ ?_ h,
      hlengthens.attempt h, ?_⟩
    all_goals
      dsimp only at hroom hcount ⊢
      omega
  | finish => exact ⟨hbooks, hstage.1⟩
  | drop hsolved hjudge => exact ⟨hbooks, hstage.1.mono (List.subset_append_right _ _)⟩
  | change hopen hallowed hfits =>
    exact ⟨hbooks.check, Fits.mutate hstage _ _ hfits, attempts_lt_of_allowed hallowed⟩
  | overshoot hopen hallowed hlong => exact ⟨hbooks.check, Fits.mutate_dropLast hstage _ _⟩
  | rest hdone => exact ⟨hbooks, trivial⟩
  | halt hopen hnone => exact ⟨hbooks.check, trivial⟩
  | walk hopen h => exact ⟨hbooks.attempt hstage.1 hstage.2 h, hstage.1⟩
  | close => exact ⟨hbooks.report plan.listener, trivial⟩

end Plan

/-! ## The search

  A budget that is not positive is not in force, and then the usual one is. -/

/-- A sequence of actions of the vocabulary, within the depth. -/
def Options.Holds (options : Options) (p : Program) : Prop :=
  ∃ as, p = Program.ofActions as ∧ options.Allows as

/-- A moment at which nothing goes beyond the options. -/
structure Options.Bounds {σ : Type} (options : Options) (scene : Stage σ × Ledger) : Prop where
  /-- what is under way is made of the vocabulary and short enough -/
  judged : ∀ p ∈ scene.1.judged, options.Holds p
  /-- so is what has been entered -/
  recorded : ∀ r ∈ scene.2.records, options.Holds r.program
  /-- so is what has been reported, within the attempts -/
  reported : ∀ r ∈ scene.2.reports, options.Holds r.program ∧ r.attempts ≤ options.attempts
  /-- so is what would be returned now -/
  returned : options.Holds scene.2.program
  /-- a frontier is no deeper and no wider than allowed, and of one length -/
  frontier : ∀ depth frontier, scene.1.frontier? = some (depth, frontier) →
    depth ≤ options.depth ∧ frontier.length ≤ options.width ∧
      ∀ p ∈ frontier, options.Holds p ∧ p.length = depth
  /-- no more attempts than allowed -/
  attempts : scene.2.attempts ≤ options.attempts

/-- The budget in force is that one: the one that is asked for, if it is positive, and else the usual
one. -/
structure InForce (value : Option Int) (usual n : Nat) : Prop where
  /-- a positive one is taken as it is -/
  asked : ∀ b, value = some b → 0 < b → (n : Int) = b
  /-- anything else, or nothing, stands for the usual one -/
  usual : (∀ b, value = some b → b ≤ 0) → n = usual

/-- The budget that the search goes by is the one in force. -/
theorem inForce_budget (value : Option Int) (usual : Nat) :
    InForce value usual (budget value usual) := by
  cases value with
  | none => exact ⟨fun b h => (nomatch h), fun _ => rfl⟩
  | some n =>
    constructor
    · intro b h hb
      obtain rfl := Option.some.inj h
      rw [budget, if_pos hb, Int.toNat_of_nonneg (Int.le_of_lt hb)]
    · intro h
      rw [budget, if_neg (Int.not_lt.2 (h n rfl))]

/-- The search on the level comes to that moment. -/
def Visits {σ : Type} (level : Level) (options : Options) (evaluation : Evaluation.Options)
    (around : Circumstances σ) : Stage σ × Ledger → Prop :=
  (planOf level options evaluation around).Passes options.strategy around
    (.opening, { stopAsked := around.stopped })

section Levels

variable {σ : Type} {level : Level} {options : Options} {evaluation : Evaluation.Options}
  {around : Circumstances σ}

/-- To fit the plan is to be a sequence of allowed actions, within the depth. -/
theorem fits_iff {p : Program} :
    (planOf level options evaluation around).Fits p ↔ options.Holds p := by
  constructor
  · rintro ⟨d, hd, hp⟩
    obtain ⟨as, has, rfl, rfl⟩ := Plan.mem_layer.1 hp
    exact ⟨as, rfl, has, hd⟩
  · rintro ⟨as, rfl, has, hd⟩
    exact ⟨as.length, hd, Plan.mem_layer.2 ⟨as, has, rfl, rfl⟩⟩

/-- At every moment of the search all is within the options. -/
theorem Visits.bounds {scene : Stage σ × Ledger} (h : Visits level options evaluation around scene) :
    options.Bounds scene := by
  have hwidth : 0 < (planOf level options evaluation around).beamWidth :=
    budget_pos (by decide) options.beamWidth
  obtain ⟨hbooks, hstage⟩ : (planOf level options evaluation around).Within scene :=
    Plan.Passes.invariant (fun hx => hx.proceeds hwidth) h ⟨Plan.frugal_new _ _, trivial⟩
  refine ⟨fun p hp => fits_iff.1 (hstage.judged p hp),
    fun r hr => fits_iff.1 (hbooks.recorded r hr), fun r hr => ?_,
    fits_iff.1 (Plan.fits_shown hbooks.best), fun depth frontier hfrontier => ?_, hbooks.attempts⟩
  · obtain ⟨hcount, hfits⟩ := hbooks.reported r hr
    exact ⟨fits_iff.1 (Plan.fits_shown hfits), hcount⟩
  · obtain ⟨hdepth, hwidth, hlayer⟩ := hstage.frontier hfrontier
    refine ⟨hdepth, hwidth, fun p hp => ⟨fits_iff.1 ⟨depth, hdepth, hlayer hp⟩, ?_⟩⟩
    exact Plan.length_of_mem_layer (hlayer hp)

variable (level options evaluation around)

/-- **A search keeps to its vocabulary and to its budgets** at every moment, by length or by chance, with
any dice, any number of workers, and whatever its checks find.  Its moments are all there is to it: they
come to an end with just what it returns, or with a program that cannot be judged. -/
theorem conduct_within :
    (∀ scene, Visits level options evaluation around scene → options.Bounds scene) ∧
    (∀ l, conduct level options evaluation around = .ok l ↔
      Visits level options evaluation around (.over, l)) ∧
    (∀ fault, conduct level options evaluation around = .error fault ↔
      ∃ scene, Visits level options evaluation around scene ∧
        ∃ p rest, scene.1.judged = p :: rest ∧ Evaluation.evaluate p level evaluation = .error fault) ∧
    InForce options.maxAttempts 200 options.attempts ∧ InForce options.maxDepth 25 options.depth ∧
    InForce options.beamWidth 8 options.width :=
  ⟨fun _ h => h.bounds, fun _ => Plan.run_eq_ok_iff rfl, fun _ => Plan.run_eq_error_iff rfl,
    inForce_budget _ _, inForce_budget _ _, inForce_budget _ _⟩

end Levels

end Search

end RobotPuzzle
