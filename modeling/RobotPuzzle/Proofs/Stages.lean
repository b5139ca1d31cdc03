/-
  A search, stage by stage.

  1. **Stages** — what a search is about at any moment: it sets out with the empty program, lengthens a
     frontier, tries the programs of a layer chunk by chunk, walks, or comes to its end (`Stage`).  Each
     stage tells which programs are being judged at that moment; of a chunk all are, entered or not.
  2. **Steps** — `Plan.Proceeds` says how one stage follows another, and what becomes of the books.  It
     leaves nothing out: a check, a chunk, an entry and a change by chance are steps of their own.
  3. **The search is its stages** (`run_goes`) — whatever a search returns, its stages lead there; and where
     it fails, they lead to a stage in which a program is judged that cannot be.
  4. **One way only** (`Proceeds.unique`) — at most one stage follows another, so the stages lead nowhere
     else: what a search returns, and how it fails, can be read off them (`run_eq_ok_iff`,
     `run_eq_error_iff`).
  5. **Invariants** — what every step keeps holds at every moment of a search (`Passes.invariant`).

  The crux is the fourth point.  That the stages lead to what a search returns is shown along the recursion
  of the search; the converse would need another induction, over stages, but follows at once if no stage
  has two successors.

  The search itself is written with loops and early returns.  Here it becomes a relation between scenes,
  with a rule for each step, so that an invariant of searches can be shown by cases on the rules.  That
  the relation is the search, and not just something that the search obeys, is what the last two theorems
  are for: they are equivalences.
-/
import RobotPuzzle.Proofs.Trials

namespace RobotPuzzle

namespace Search

/-! ## Stages

  A stage has what the search needs to go on from there, apart from the books; so a moment of a search is
  a stage with its books. -/

/-- What a search is about. -/
inductive Stage (σ : Type) where
  /-- nothing has been tried, and the first check is to come -/
  | opening
  /-- the empty program is judged -/
  | root
  /-- the frontier, of that depth, is to be lengthened -/
  | layer (depth : Nat) (frontier : List Program)
  /-- of the children of the frontier these are still to be tried; `before` are the books from before the
  first of them -/
  | pending (depth : Nat) (frontier : List Program) (before : Ledger) (programs : List Program)
  /-- of the children of the frontier a chunk has been judged, and is entered before those behind it -/
  | batch (depth : Nat) (frontier : List Program) (before : Ledger) (chunk behind : List Program)
  /-- the present program is to be changed, with so many rounds left -/
  | walking (left : Nat) (current : Program) (dice : σ)
  /-- the changed program is judged -/
  | candidate (left : Nat) (program : Program) (dice : σ)
  /-- the last report is to be made -/
  | closing
  /-- there is nothing more to do -/
  | over

namespace Stage

variable {σ : Type}

/-- The programs that are being judged. -/
def judged : Stage σ → List Program
  | root => [[]]
  | batch _ _ _ chunk _ => chunk
  | candidate _ program _ => [program]
  | _ => []

/-- The frontier, and its depth. -/
def frontier? : Stage σ → Option (Nat × List Program)
  | layer depth frontier => some (depth, frontier)
  | pending depth frontier _ _ => some (depth, frontier)
  | batch depth frontier _ _ _ => some (depth, frontier)
  | _ => none

end Stage

namespace Plan

variable {σ : Type}

/-- The stage behind the empty program. -/
def firstStage (plan : Plan) (strategy : Strategy) (around : Circumstances σ) (l : Ledger) : Stage σ :=
  if plan.actions.isEmpty || l.solved then .closing
  else
    match strategy with
    | .beam => .layer 0 [[]]
    | .random => .walking around.rounds [] around.seeded

/-- The stage behind a layer: the next one, unless the layer has not been tried in full. -/
def nextStage (plan : Plan) (depth : Nat) (frontier : List Program) (before l : Ledger) : Stage σ :=
  if l.solved || l.attempts < before.attempts + (plan.children frontier).length then .closing
  else if (plan.keep (l.since before)).isEmpty then .closing
  else .layer (depth + 1) (plan.keep (l.since before))

/-! ## Steps

  The rules follow the recursion of the search.  Each has the guards under which the search takes that
  way, and there are no others. -/

/-- How one stage of a search follows another. -/
inductive Proceeds (plan : Plan) (strategy : Strategy) (around : Circumstances σ) :
    Stage σ × Ledger → Stage σ × Ledger → Prop
  /-- the first check allows an attempt -/
  | setOut {l} (hallowed : (plan.check l).2 ≠ 0) :
      Proceeds plan strategy around (.opening, l) (.root, (plan.check l).1)
  /-- the first check allows none, and the empty program is left out -/
  | skip {l} (hnone : (plan.check l).2 = 0) :
      Proceeds plan strategy around (.opening, l)
        (plan.firstStage strategy around (plan.check l).1, (plan.check l).1)
  /-- the empty program is entered, and the strategy takes over -/
  | begin {l m} (hopen : l.solved = false) (h : plan.attempt [] l = .ok m) :
      Proceeds plan strategy around (.root, l) (plan.firstStage strategy around m, m)
  /-- all programs of the frontier are lengthened by each action -/
  | lengthen {depth frontier l} (hdepth : depth < plan.maxDepth) :
      Proceeds plan strategy around (.layer depth frontier, l)
        (.pending depth frontier l (plan.children frontier), l)
  /-- programs as long as allowed are not lengthened -/
  | deepest {depth frontier l} (hdepth : plan.maxDepth ≤ depth) :
      Proceeds plan strategy around (.layer depth frontier, l) (.closing, l)
  /-- a chunk is cut off the pending programs, as large as the check allows -/
  | judge {depth frontier before pending l} (hmore : pending ≠ []) (hopen : l.solved = false)
      (hallowed : (plan.check l).2 ≠ 0) :
      Proceeds plan strategy around (.pending depth frontier before pending, l)
        (.batch depth frontier before (pending.take (min (plan.check l).2 plan.chunk))
          (pending.drop (min (plan.check l).2 plan.chunk)), (plan.check l).1)
  /-- the check allows none, and the rest of the layer is left -/
  | cutOff {depth frontier before pending l} (hmore : pending ≠ []) (hopen : l.solved = false)
      (hnone : (plan.check l).2 = 0) :
      Proceeds plan strategy around (.pending depth frontier before pending, l)
        (plan.nextStage depth frontier before (plan.check l).1, (plan.check l).1)
  /-- the layer is through, or the level is solved -/
  | leave {depth frontier before pending l} (hdone : pending = [] ∨ l.solved = true) :
      Proceeds plan strategy around (.pending depth frontier before pending, l)
        (plan.nextStage depth frontier before l, l)
  /-- the programs of a chunk are entered one after the other -/
  | enter {depth frontier before program rest behind l m} (hopen : l.solved = false)
      (h : plan.attempt program l = .ok m) :
      Proceeds plan strategy around (.batch depth frontier before (program :: rest) behind, l)
        (.batch depth frontier before rest behind, m)
  /-- the whole chunk is entered -/
  | finish {depth frontier before behind l} :
      Proceeds plan strategy around (.batch depth frontier before [] behind, l)
        (.pending depth frontier before behind, l)
  /-- what was judged beside a solution is not entered -/
  | drop {depth frontier before program rest behind l result} (hsolved : l.solved = true)
      (hjudge : plan.judge program = .ok result) :
      Proceeds plan strategy around (.batch depth frontier before (program :: rest) behind, l)
        (.pending depth frontier before behind, l)
  /-- the changed program is short enough to be judged -/
  | change {left current dice l} (hopen : l.solved = false) (hallowed : (plan.check l).2 ≠ 0)
      (hfits : (mutate around.dice plan.actions current dice).1.length ≤ plan.maxDepth) :
      Proceeds plan strategy around (.walking (left + 1) current dice, l)
        (.candidate left (mutate around.dice plan.actions current dice).1
          (mutate around.dice plan.actions current dice).2, (plan.check l).1)
  /-- it is too long: its last action is dropped, and the round is used up -/
  | overshoot {left current dice l} (hopen : l.solved = false) (hallowed : (plan.check l).2 ≠ 0)
      (hlong : plan.maxDepth < (mutate around.dice plan.actions current dice).1.length) :
      Proceeds plan strategy around (.walking (left + 1) current dice, l)
        (.walking left (mutate around.dice plan.actions current dice).1.dropLast
          (mutate around.dice plan.actions current dice).2, (plan.check l).1)
  /-- no round is left, or the level is solved -/
  | rest {left current dice l} (hdone : left = 0 ∨ l.solved = true) :
      Proceeds plan strategy around (.walking left current dice, l) (.closing, l)
  /-- the check allows no attempt -/
  | halt {left current dice l} (hopen : l.solved = false) (hnone : (plan.check l).2 = 0) :
      Proceeds plan strategy around (.walking (left + 1) current dice, l)
        (.closing, (plan.check l).1)
  /-- the changed program is entered, and is the next one to be changed -/
  | walk {left program dice l m} (hopen : l.solved = false) (h : plan.attempt program l = .ok m) :
      Proceeds plan strategy around (.candidate left program dice, l) (.walking left program dice, m)
  /-- the last report tells of the books as they are -/
  | close {l} : Proceeds plan strategy around (.closing, l) (.over, l.report plan.listener)

/-- A step enters one program, while none solves the level, or leaves the trials as they are. -/
theorem Proceeds.books {plan : Plan} {strategy : Strategy} {around : Circumstances σ}
    {x y : Stage σ × Ledger} (h : plan.Proceeds strategy around x y) :
    x.2.SameTrials y.2 ∨ (x.2.solved = false ∧ ∃ program, plan.attempt program x.2 = .ok y.2) := by
  cases h with
  | begin hopen h | enter hopen h | walk hopen h => exact Or.inr ⟨hopen, _, h⟩
  | lengthen | deepest | leave | finish | drop | rest => exact Or.inl ⟨rfl, rfl, rfl, rfl⟩
  | close => exact Or.inl (Ledger.sameTrials_report _ _)
  | _ => exact Or.inl (Ledger.sameTrials_check _ _ _ _)

/-- A search comes from one moment to another. -/
def Passes (plan : Plan) (strategy : Strategy) (around : Circumstances σ) :
    Stage σ × Ledger → Stage σ × Ledger → Prop :=
  Relation.ReflTransGen (plan.Proceeds strategy around)

/-- What every step keeps holds at every moment. -/
theorem Passes.invariant {plan : Plan} {strategy : Strategy} {around : Circumstances σ}
    {P : Stage σ × Ledger → Prop}
    (hstep : ∀ {x y : Stage σ × Ledger}, P x → plan.Proceeds strategy around x y → P y)
    {x y : Stage σ × Ledger} (h : plan.Passes strategy around x y) (hx : P x) : P y := by
  induction h with
  | refl => exact hx
  | tail _ hlast ih => exact hstep ih hlast

/-! ## The search is its stages

  One lemma for each function of the search, with the stage where it begins and the stage where it ends.
-/

/-- The next program cannot be judged. -/
def FailsAt (plan : Plan) (fault : Level.StartFault) (scene : Stage σ × Ledger) : Prop :=
  ∃ program rest, scene.1.judged = program :: rest ∧ plan.judge program = .error fault

/-- The stages lead to where the outcome is, or to a program that cannot be judged. -/
def Goes (plan : Plan) (strategy : Strategy) (around : Circumstances σ) (here : Stage σ × Ledger)
    (there : Ledger → Stage σ) : Except Level.StartFault Ledger → Prop
  | .ok m => plan.Passes strategy around here (there m, m)
  | .error fault => ∃ scene, plan.Passes strategy around here scene ∧ plan.FailsAt fault scene

section Outcomes

variable {plan : Plan} {strategy : Strategy} {around : Circumstances σ}
  {here mid : Stage σ × Ledger} {there last : Ledger → Stage σ} {x : Except Level.StartFault Ledger}

theorem Goes.after (h : plan.Passes strategy around here mid)
    (hx : plan.Goes strategy around mid there x) : plan.Goes strategy around here there x := by
  cases x with
  | ok m => exact Relation.ReflTransGen.trans h hx
  | error fault =>
    obtain ⟨scene, hscene, hjudge⟩ := hx
    exact ⟨scene, Relation.ReflTransGen.trans h hscene, hjudge⟩

theorem Goes.step (h : plan.Proceeds strategy around here mid)
    (hx : plan.Goes strategy around mid there x) : plan.Goes strategy around here there x :=
  Goes.after (Relation.ReflTransGen.single h) hx

/-- One part of a search after the other, which starts `there`. -/
theorem Goes.bind (there : Ledger → Stage σ) {next : Ledger → Except Level.StartFault Ledger}
    (h : plan.Goes strategy around here there x)
    (hnext : ∀ m, x = .ok m → plan.Goes strategy around (there m, m) last (next m)) :
    plan.Goes strategy around here last (x >>= next) := by
  cases x with
  | ok m => exact Goes.after h (hnext m rfl)
  | error fault => exact h

/-- A program that is judged is entered, or it cannot be judged. -/
theorem attempt_goes {program : Program} {rest : List Program} {stage : Stage σ} {l : Ledger}
    (hjudged : stage.judged = program :: rest)
    (henter : ∀ m, plan.attempt program l = .ok m →
      plan.Proceeds strategy around (stage, l) (there m, m)) :
    plan.Goes strategy around (stage, l) there (plan.attempt program l) := by
  cases h : plan.attempt program l with
  | ok m => exact Relation.ReflTransGen.single (henter m h)
  | error fault => exact ⟨_, Relation.ReflTransGen.refl, program, rest, hjudged, attempt_error h⟩

section Layers

variable {depth : Nat} {frontier : List Program} {before : Ledger}

/-- A chunk is entered program by program.  Once a program solves the level, those behind it are judged
and dropped. -/
theorem attemptEach_goes {behind : List Program} :
    ∀ (chunk : List Program) (l : Ledger),
      plan.Goes strategy around (.batch depth frontier before chunk behind, l)
        (fun _ => .pending depth frontier before behind) (plan.attemptEach chunk l) := by
  intro chunk
  induction chunk with
  | nil => exact fun l => Relation.ReflTransGen.single .finish
  | cons program rest ih =>
    intro l
    unfold attemptEach
    split
    · rename_i hsolved
      cases hjudge : plan.judge program with
      | ok result => exact Relation.ReflTransGen.single (.drop hsolved hjudge)
      | error fault => exact ⟨_, Relation.ReflTransGen.refl, program, rest, rfl, hjudge⟩
    · rename_i hopen
      refine Goes.bind (fun _ => .batch depth frontier before rest behind) ?_ fun m _ => ih m
      exact attempt_goes rfl fun m h => .enter (Bool.eq_false_iff.2 hopen) h

/-- The children of a frontier are tried chunk by chunk, by induction on how many are left. -/
theorem attemptAll_goes (pending : List Program) (l : Ledger) :
    plan.Goes strategy around (.pending depth frontier before pending, l)
      (plan.nextStage depth frontier before) (plan.attemptAll pending l) := by
  rw [attemptAll_eq]
  split
  · rename_i hdone
    exact Relation.ReflTransGen.single (.leave hdone)
  · rename_i hmore
    obtain ⟨hne, hsolved⟩ := not_or.1 hmore
    have hopen : l.solved = false := Bool.eq_false_iff.2 hsolved
    split
    · rename_i hnone
      exact Relation.ReflTransGen.single (.cutOff hne hopen hnone)
    · rename_i hallowed
      have := plan.chunk_shortens hne hallowed
      refine Goes.step (.judge hne hopen hallowed) (Goes.bind _ (attemptEach_goes _ _) fun m _ => ?_)
      exact attemptAll_goes (pending.drop (min (plan.check l).2 plan.chunk)) m
termination_by pending.length

/-- Layer by layer, by induction on how many layers are left. -/
theorem beam_goes :
    ∀ (layers depth : Nat) (frontier : List Program) (l : Ledger), depth + layers = plan.maxDepth →
      plan.Goes strategy around (.layer depth frontier, l) (fun _ => .closing)
        (plan.beam layers frontier l) := by
  intro layers
  induction layers with
  | zero =>
    intro depth frontier l hdepth
    exact Relation.ReflTransGen.single (.deepest (by omega))
  | succ layers ih =>
    intro depth frontier l hdepth
    unfold beam
    refine Goes.step (.lengthen (by omega)) (Goes.bind _ (attemptAll_goes _ l) fun m _ => ?_)
    -- solved or spent, with nothing kept, or with a layer to go on from
    unfold nextStage
    split
    · exact Relation.ReflTransGen.refl
    · dsimp only
      split
      · exact Relation.ReflTransGen.refl
      · exact ih (depth + 1) _ m (by omega)

end Layers

/-- Round by round, by induction on how many rounds are left. -/
theorem walk_goes :
    ∀ (left : Nat) (current : Program) (dice : σ) (l : Ledger),
      plan.Goes strategy around (.walking left current dice, l) (fun _ => .closing)
        (plan.walk around.dice left current dice l) := by
  intro left
  induction left with
  | zero => exact fun current dice l => Relation.ReflTransGen.single (.rest (Or.inl rfl))
  | succ left ih =>
    intro current dice l
    unfold walk
    split
    · rename_i hsolved
      exact Relation.ReflTransGen.single (.rest (Or.inr hsolved))
    · -- a round: no more attempts are allowed, the program is too long, or it is judged
      rename_i hopen
      dsimp only
      have hopen' : l.solved = false := Bool.eq_false_iff.2 hopen
      split
      · rename_i hnone
        exact Relation.ReflTransGen.single (.halt hopen' hnone)
      · rename_i hallowed
        split
        · rename_i hlong
          exact Goes.step (.overshoot hopen' hallowed hlong) (ih _ _ _)
        · rename_i hfits
          refine Goes.step (.change hopen' hallowed (Nat.not_lt.1 hfits)) ?_
          refine Goes.bind (fun _ => .walking left _ _) ?_ fun m _ => ih _ _ m
          exact attempt_goes rfl fun m h => .walk ((check_solved plan l).trans hopen') h

/-- **A search is its stages**: they lead to what it returns, or to a program that cannot be judged. -/
theorem run_goes (plan : Plan) (strategy : Strategy) (around : Circumstances σ) {l : Ledger}
    (hopen : l.solved = false) :
    plan.Goes strategy around (.opening, l) (fun _ => .over) (plan.run strategy around l) := by
  unfold run
  refine Goes.bind (plan.firstStage strategy around) ?_ fun m _ => ?_
  · unfold attemptEmpty
    dsimp only
    split
    · rename_i hnone
      exact Relation.ReflTransGen.single (.skip hnone)
    · -- the empty program is judged if the first check allows it
      rename_i hallowed
      refine Goes.step (.setOut hallowed) (attempt_goes rfl fun m h => .begin ?_ h)
      exact (check_solved plan l).trans hopen
  · refine Goes.bind (fun _ => .closing) ?_ fun m _ => Relation.ReflTransGen.single .close
    unfold goOn firstStage
    split
    · exact Relation.ReflTransGen.refl
    · -- behind it the two strategies part
      cases strategy with
      | beam => exact beam_goes plan.maxDepth 0 [[]] m (Nat.zero_add _)
      | random => exact walk_goes around.rounds [] around.seeded m

end Outcomes

/-! ## One way only

  Stages follow each other in one way only, and at the last stage nothing follows.  Two ways from the same
  moment to an end therefore lead to the same end. -/

section Uniqueness

variable {plan : Plan} {strategy : Strategy} {around : Circumstances σ} {x y z : Stage σ × Ledger}

/-- One leaves off where nothing is left or the level is solved, so not where more is left and it is not. -/
theorem not_left_off {p : Prop} {l : Ledger} (hmore : ¬ p) (hopen : l.solved = false) :
    ¬ (p ∨ l.solved = true) := by
  rintro (hdone | hsolved)
  · exact hmore hdone
  · rw [hopen] at hsolved
    cases hsolved

/-- At most one stage follows.  Each step carries the guards that set it apart from the other steps out of
its stage: a check allows more or it does not, a program solves the level or it does not, a frontier is
deep enough or it is not.  Where the same step is taken twice, only what an attempt makes of the books
could differ, and an attempt has one outcome. -/
theorem Proceeds.unique (h : plan.Proceeds strategy around x y)
    (h' : plan.Proceeds strategy around x z) : y = z := by
  -- what differs from the diagonal is excluded by a guard: a check, a depth, a length or the end
  cases h with
  | setOut hallowed =>
    cases h' with
    | setOut _ => rfl
    | skip hnone => exact absurd hnone hallowed
  | skip hnone =>
    cases h' with
    | setOut hallowed => exact absurd hnone hallowed
    | skip _ => rfl
  | begin _ hm =>
    cases h' with
    | begin _ hn => rw [Except.ok.inj (hm.symm.trans hn)]
  | lengthen hdepth =>
    cases h' with
    | lengthen _ => rfl
    | deepest hdeep => exact absurd hdepth (Nat.not_lt.2 hdeep)
  | deepest hdeep =>
    cases h' with
    | lengthen hdepth => exact absurd hdepth (Nat.not_lt.2 hdeep)
    | deepest _ => rfl
  | judge hmore hopen hallowed =>
    cases h' with
    | judge _ _ _ => rfl
    | cutOff _ _ hnone => exact absurd hnone hallowed
    | leave hdone => exact absurd hdone (not_left_off hmore hopen)
  | cutOff hmore hopen hnone =>
    cases h' with
    | judge _ _ hallowed => exact absurd hnone hallowed
    | cutOff _ _ _ => rfl
    | leave hdone => exact absurd hdone (not_left_off hmore hopen)
  | leave hdone =>
    cases h' with
    | judge hmore hopen _ => exact absurd hdone (not_left_off hmore hopen)
    | cutOff hmore hopen _ => exact absurd hdone (not_left_off hmore hopen)
    | leave _ => rfl
  | enter hopen hm =>
    cases h' with
    | enter _ hn => rw [Except.ok.inj (hm.symm.trans hn)]
    | drop hsolved _ => exact absurd (hopen.symm.trans hsolved) Bool.false_ne_true
  | finish =>
    cases h' with
    | finish => rfl
  | drop hsolved _ =>
    cases h' with
    | enter hopen _ => exact absurd (hopen.symm.trans hsolved) Bool.false_ne_true
    | drop _ _ => rfl
  | change hopen hallowed hfits =>
    cases h' with
    | change _ _ _ => rfl
    | overshoot _ _ hlong => exact absurd hlong (Nat.not_lt.2 hfits)
    | rest hdone => exact absurd hdone (not_left_off (Nat.succ_ne_zero _) hopen)
    | halt _ hnone => exact absurd hnone hallowed
  | overshoot hopen hallowed hlong =>
    cases h' with
    | change _ _ hfits => exact absurd hlong (Nat.not_lt.2 hfits)
    | overshoot _ _ _ => rfl
    | rest hdone => exact absurd hdone (not_left_off (Nat.succ_ne_zero _) hopen)
    | halt _ hnone => exact absurd hnone hallowed
  | rest hdone =>
    cases h' with
    | change hopen _ _ | overshoot hopen _ _ | halt hopen _ =>
      exact absurd hdone (not_left_off (Nat.succ_ne_zero _) hopen)
    | rest _ => rfl
  | halt hopen hnone =>
    cases h' with
    | change _ hallowed _ | overshoot _ hallowed _ => exact absurd hnone hallowed
    | rest hdone => exact absurd hdone (not_left_off (Nat.succ_ne_zero _) hopen)
    | halt _ _ => rfl
  | walk _ hm =>
    cases h' with
    | walk _ hn => rw [Except.ok.inj (hm.symm.trans hn)]
  | close =>
    cases h' with
    | close => rfl

theorem not_proceeds_over {l : Ledger} : ¬ plan.Proceeds strategy around (.over, l) y :=
  fun h => nomatch h

theorem attempt_ne_ok {program : Program} {fault : Level.StartFault} {l m : Ledger}
    (hjudge : plan.judge program = .error fault) : plan.attempt program l ≠ .ok m := by
  intro h
  obtain ⟨result, hresult, -⟩ := attempt_cases h
  rw [hjudge] at hresult
  cases hresult

/-- Nothing follows where a program cannot be judged. -/
theorem FailsAt.not_proceeds {fault : Level.StartFault} (h : plan.FailsAt fault x) :
    ¬ plan.Proceeds strategy around x y := by
  obtain ⟨program, rest, hjudged, hjudge⟩ := h
  intro hstep
  cases hstep with
  | begin _ h | enter _ h | walk _ h =>
    cases hjudged
    exact attempt_ne_ok hjudge h
  | drop _ hresult =>
    cases hjudged
    rw [hjudge] at hresult
    cases hresult
  | _ => cases hjudged

/-- A search comes to a single end. -/
theorem Passes.end_unique (hy : plan.Passes strategy around x y) (hz : plan.Passes strategy around x z)
    (hlast : ∀ w, ¬ plan.Proceeds strategy around y w)
    (hlast' : ∀ w, ¬ plan.Proceeds strategy around z w) : y = z := by
  have hunique : Relator.RightUnique (plan.Proceeds strategy around) := fun _ _ _ h h' => h.unique h'
  rcases Relation.ReflTransGen.total_of_right_unique hunique hy hz with h | h
  · rcases Relation.ReflTransGen.cases_head h with rfl | ⟨w, hw, -⟩
    · rfl
    · exact absurd hw (hlast w)
  · rcases Relation.ReflTransGen.cases_head h with rfl | ⟨w, hw, -⟩
    · rfl
    · exact absurd hw (hlast' w)

variable {l m : Ledger} {fault : Level.StartFault}

/-- **What a search returns** is where its stages end. -/
theorem run_eq_ok_iff (hopen : l.solved = false) :
    plan.run strategy around l = .ok m ↔ plan.Passes strategy around (.opening, l) (.over, m) := by
  have hgoes := run_goes plan strategy around hopen
  constructor
  · intro h
    rw [h] at hgoes
    exact hgoes
  · intro h
    cases hrun : plan.run strategy around l with
    | ok last =>
      rw [hrun] at hgoes
      -- nothing follows the end, so both have come to the same end
      cases hgoes.end_unique h (fun _ => not_proceeds_over) fun _ => not_proceeds_over
      rfl
    | error fault =>
      rw [hrun] at hgoes
      obtain ⟨scene, hscene, hfails⟩ := hgoes
      -- nor does anything follow a program that cannot be judged
      cases hscene.end_unique h (fun _ => hfails.not_proceeds) fun _ => not_proceeds_over
      obtain ⟨program, rest, hjudged, -⟩ := hfails
      cases hjudged

/-- **How a search fails** is where its stages come to a program that cannot be judged. -/
theorem run_eq_error_iff (hopen : l.solved = false) :
    plan.run strategy around l = .error fault ↔
      ∃ scene, plan.Passes strategy around (.opening, l) scene ∧ plan.FailsAt fault scene := by
  have hgoes := run_goes plan strategy around hopen
  constructor
  · intro h
    rw [h] at hgoes
    exact hgoes
  · rintro ⟨scene, hscene, hfails⟩
    cases hrun : plan.run strategy around l with
    | ok last =>
      rw [hrun] at hgoes
      cases hscene.end_unique hgoes (fun _ => hfails.not_proceeds) fun _ => not_proceeds_over
      obtain ⟨program, rest, hjudged, -⟩ := hfails
      cases hjudged
    | error fault' =>
      rw [hrun] at hgoes
      obtain ⟨scene', hscene', hfails'⟩ := hgoes
      cases hscene.end_unique hscene' (fun _ => hfails.not_proceeds) fun _ => hfails'.not_proceeds
      -- both have failed at the same program, and judging has one outcome
      obtain ⟨program, rest, hjudged, hjudge⟩ := hfails
      obtain ⟨program', rest', hjudged', hjudge'⟩ := hfails'
      rw [hjudged] at hjudged'
      cases hjudged'
      rw [hjudge] at hjudge'
      cases hjudge'
      rfl

end Uniqueness

end Plan

end Search

end RobotPuzzle
