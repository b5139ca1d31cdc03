/-
  A wide search by length misses nothing and finds a shortest program.

  1. **Layers** (`Plan.layer`) — all programs of one length over the vocabulary.  Lengthening every program
     of a layer gives the next one, whatever the order (`children_perm`), and ranking drops nothing as long
     as the layer fits into the beam (`keep_perm`).
  2. **A sweep** (`Plan.Sweeps`) — trying pending programs while the attempts suffice and nobody disturbs:
     either all of them are tried and fail, or the program found is one of them and solves the level, or
     one of them cannot be judged.  It does not matter how many are judged at a time.
  3. **Layer by layer** (`Plan.Through`) — all programs up to some length have been tried and have failed, and
     just as many attempts are used up.  One layer more keeps that or ends the search (`attemptAll_layer`);
     so a search that finds a program has been through all shorter ones (`beam_explores`).
  4. **The search** (`conduct_wide`) — a level is reported as solved exactly if a sequence of actions within
     the depth solves it, and then the program found is as short as any of them.

  The crux is that order does not matter up to the end.  Ranking reorders a layer, chunks cut it up, and
  the next frontier is another list than the layer; but it is a permutation of it, and which programs have
  been tried and whether one of them solves the level can be told from that.

  `Explores` is what such a search is shown to do: it goes through the layers in order and stops in the
  first one that has a solution.  Completeness and least length are both read off that.  The assumptions
  are numbers that can be computed from the options, and that nobody disturbs, since a search that is
  stopped proves nothing.
-/
import Mathlib.Algebra.BigOperators.Intervals
import Mathlib.Algebra.Order.BigOperators.Group.Finset
import RobotPuzzle.Proofs.BestTried
import RobotPuzzle.Proofs.Workers

namespace RobotPuzzle

namespace Search

namespace Plan

variable {plan : Plan} {l m : Ledger}

/-! ## Layers

  Programs may occur twice, where an action is listed twice.  So layers are lists, and their lengths are
  powers all the same. -/

/-- The programs of that length over the vocabulary. -/
def layer (plan : Plan) : Nat → List Program
  | 0 => [[]]
  | d + 1 => plan.children (plan.layer d)

theorem length_layer (plan : Plan) (d : Nat) : (plan.layer d).length = plan.actions.length ^ d := by
  induction d with
  | zero => rfl
  | succ d ih => rw [layer, length_children, ih, Nat.pow_succ]

theorem mem_children {frontier : List Program} {p : Program} :
    p ∈ plan.children frontier ↔ ∃ q ∈ frontier, ∃ a ∈ plan.actions, q ++ [Node.act a] = p := by
  simp only [children, List.mem_flatMap, List.mem_map]

/-- A frontier in another order has the same children in another order. -/
theorem children_perm {frontier other : List Program} (h : frontier.Perm other) :
    (plan.children frontier).Perm (plan.children other) :=
  h.flatMap_right _

/-- A layer has all sequences of allowed actions of that length. -/
theorem mem_layer {d : Nat} {p : Program} :
    p ∈ plan.layer d ↔
      ∃ as, (∀ a ∈ as, a ∈ plan.actions) ∧ as.length = d ∧ p = Program.ofActions as := by
  induction d generalizing p with
  | zero =>
    rw [layer, List.mem_singleton]
    constructor
    · rintro rfl
      exact ⟨[], fun _ ha => (nomatch ha), rfl, rfl⟩
    · rintro ⟨as, -, hlength, rfl⟩
      rw [List.length_eq_zero_iff.1 hlength]
      rfl
  | succ d ih =>
    rw [layer, mem_children]
    constructor
    · rintro ⟨q, hq, a, ha, rfl⟩
      obtain ⟨as, has, hlength, rfl⟩ := ih.1 hq
      refine ⟨as ++ [a], ?_, ?_, ?_⟩
      · exact List.forall_mem_append.2 ⟨has, List.forall_mem_singleton.2 ha⟩
      · rw [List.length_append, hlength, List.length_singleton]
      · rw [Program.ofActions, Program.ofActions, List.map_append, List.map_singleton]
    · rintro ⟨as, has, hlength, rfl⟩
      -- the last action is the one that was appended
      obtain rfl | ⟨before, a, rfl⟩ := List.eq_nil_or_concat' as
      · cases hlength
      obtain ⟨hbefore, ha⟩ := List.forall_mem_append.1 has
      refine ⟨Program.ofActions before, ih.2 ⟨before, hbefore, ?_, rfl⟩, a,
        ha a List.mem_cons_self, ?_⟩
      · rw [List.length_append, List.length_singleton] at hlength
        omega
      · rw [Program.ofActions, Program.ofActions, List.map_append, List.map_singleton]

/-- Ranking drops nothing of what fits into the beam. -/
theorem keep_perm {records : List Record} (h : records.length ≤ plan.beamWidth) :
    (plan.keep records).Perm (records.map Record.program) := by
  have hlength := (ranked_perm records).length_eq
  rw [keep, List.take_of_length_le (by omega)]
  exact (ranked_perm records).map _

/-! ## Sweeps

  What is said of a sweep can be put together for lists of programs one behind the other, so that chunks
  need no statement of their own. -/

/-- The program can be judged and does not solve the level. -/
def Fails (plan : Plan) (p : Program) : Prop :=
  ∃ result, plan.judge p = .ok result ∧ result.solved = false

/-- The program solves the level. -/
def Solves (plan : Plan) (p : Program) : Prop :=
  ∃ result, plan.judge p = .ok result ∧ result.solved = true

/-- A program that fails does not solve the level. -/
theorem Fails.not_solves {p : Program} (h : plan.Fails p) : ¬ plan.Solves p := by
  rintro ⟨result', hresult', hsolved⟩
  obtain ⟨result, hresult, hfails⟩ := h
  rw [hresult] at hresult'
  cases hresult'
  rw [hfails] at hsolved
  cases hsolved

/-- From these books to those, all pending programs were tried, and all failed. -/
structure Exhausted (plan : Plan) (pending : List Program) (l m : Ledger) : Prop where
  /-- the level is still unsolved -/
  unsolved : m.solved = false
  /-- each of them was counted -/
  attempts : m.attempts = l.attempts + pending.length
  /-- none of them solves the level -/
  failed : ∀ p ∈ pending, plan.Fails p
  /-- they were entered in their order -/
  entered : ∃ tried : List Record, tried.map Record.program = pending ∧
    m.records = tried.reverse ++ l.records

/-- The program found is one of those and solves the level. -/
structure Found (plan : Plan) (programs : List Program) (m : Ledger) : Prop where
  /-- the books know of it -/
  solved : m.solved = true
  /-- it was among them -/
  mem : m.program ∈ programs
  /-- and it does solve the level -/
  solves : plan.Solves m.program

/-- The pending programs were tried up to the first that solves the level or cannot be judged. -/
def Sweeps (plan : Plan) (pending : List Program) (l : Ledger) :
    Except Level.StartFault Ledger → Prop
  | .ok m => plan.Exhausted pending l m ∨ plan.Found pending m
  | .error fault => ∃ p ∈ pending, plan.judge p = .error fault

theorem Exhausted.nil (hopen : l.solved = false) : plan.Exhausted [] l l where
  unsolved := hopen
  attempts := rfl
  failed := fun _ hp => (nomatch hp)
  entered := ⟨[], rfl, rfl⟩

/-- Some programs after others. -/
theorem Exhausted.append {first rest : List Program} {k : Ledger} (h : plan.Exhausted first l k)
    (h' : plan.Exhausted rest k m) : plan.Exhausted (first ++ rest) l m := by
  obtain ⟨tried, hprograms, hrecords⟩ := h.entered
  obtain ⟨tried', hprograms', hrecords'⟩ := h'.entered
  refine ⟨h'.unsolved, ?_, List.forall_mem_append.2 ⟨h.failed, h'.failed⟩, tried ++ tried', ?_, ?_⟩
  · rw [h'.attempts, h.attempts, List.length_append, Nat.add_assoc]
  · rw [List.map_append, hprograms, hprograms']
  · rw [hrecords', hrecords, List.reverse_append, List.append_assoc]

/-- What was tried is what has been entered since. -/
theorem Exhausted.since {pending : List Program} (h : plan.Exhausted pending l m) :
    (m.since l).map Record.program = pending := by
  obtain ⟨tried, hprograms, hrecords⟩ := h.entered
  have hcount : m.attempts - l.attempts = tried.reverse.length := by
    rw [h.attempts, ← hprograms, List.length_map, List.length_reverse]
    omega
  rw [Ledger.since, hrecords, hcount, List.take_left, List.reverse_reverse, hprograms]

theorem Found.mono {programs others : List Program} (h : plan.Found programs m)
    (hsub : programs ⊆ others) : plan.Found others m :=
  ⟨h.solved, hsub h.mem, h.solves⟩

/-- What has been found is a matter of the trials. -/
theorem Found.of_sameTrials {programs : List Program} (h : plan.Found programs l)
    (hsame : l.SameTrials m) : plan.Found programs m := by
  have hprogram : m.program = l.program := by rw [Ledger.program, hsame.best, Ledger.program]
  refine ⟨?_, ?_, ?_⟩
  · rw [hsame.solved]
    exact h.solved
  · rw [hprogram]
    exact h.mem
  · rw [hprogram]
    exact h.solves

section Outcomes

variable {first rest : List Program} {x : Except Level.StartFault Ledger}
  {next : Ledger → Except Level.StartFault Ledger}

/-- Books with the same trials may come first. -/
theorem Sweeps.of_sameTrials {k : Ledger} (hsame : l.SameTrials k) (h : plan.Sweeps first k x) :
    plan.Sweeps first l x := by
  cases x with
  | error fault => exact h
  | ok m =>
    refine h.imp_left fun hm => ⟨hm.unsolved, ?_, hm.failed, ?_⟩
    · rw [hm.attempts, hsame.attempts]
    · rw [← hsame.records]
      exact hm.entered

/-- One sweep after the other; the second one stops where the first one has found a program. -/
theorem Sweeps.append (h : plan.Sweeps first l x)
    (hgo : ∀ m, x = .ok m → plan.Exhausted first l m → plan.Sweeps rest m (next m))
    (hstop : ∀ m, m.solved = true →
      next m = .ok m ∨ ∃ p ∈ rest, ∃ fault, plan.judge p = .error fault ∧ next m = .error fault) :
    plan.Sweeps (first ++ rest) l (x >>= next) := by
  cases x with
  | error fault =>
    obtain ⟨p, hp, hjudge⟩ := h
    exact ⟨p, List.mem_append_left _ hp, hjudge⟩
  | ok m =>
    show plan.Sweeps (first ++ rest) l (next m)
    rcases h with hexhausted | hfound
    · -- nothing found in the first sweep: the second one decides
      have hrest := hgo m rfl hexhausted
      cases hnext : next m with
      | error fault =>
        rw [hnext] at hrest
        obtain ⟨p, hp, hjudge⟩ := hrest
        exact ⟨p, List.mem_append_right _ hp, hjudge⟩
      | ok last =>
        rw [hnext] at hrest
        exact hrest.imp hexhausted.append fun hfound => hfound.mono (List.subset_append_right _ _)
    · -- found in the first: the second one has nothing to do, or meets a program that cannot be
      -- judged
      rcases hstop m hfound.solved with hm | ⟨p, hp, fault, hjudge, hm⟩
      · rw [hm]
        exact Or.inr (hfound.mono (List.subset_append_left _ _))
      · rw [hm]
        exact ⟨p, List.mem_append_right _ hp, hjudge⟩

end Outcomes

/-- One program. -/
theorem attempt_sweeps (program : Program) (hopen : l.solved = false) :
    plan.Sweeps [program] l (plan.attempt program l) := by
  cases h : plan.attempt program l with
  | error fault => exact ⟨program, List.mem_singleton_self _, attempt_error h⟩
  | ok m =>
    obtain ⟨result, hjudge, rfl⟩ := attempt_cases h
    have hsame := Ledger.sameTrials_reportIfDue plan.listener plan.every
      (l.enter ⟨program, result⟩)
    -- the books are solved by this entry, or not at all
    have hsolved : (l.enter ⟨program, result⟩).solved = result.solved := by
      show (l.solved || result.solved) = result.solved
      rw [hopen, Bool.false_or]
    cases hs : result.solved with
    | false =>
      refine Or.inl ⟨?_, hsame.attempts, ?_, [⟨program, result⟩], rfl, hsame.records⟩
      · rw [hsame.solved, hsolved, hs]
      · exact List.forall_mem_singleton.2 ⟨result, hjudge, hs⟩
    | true =>
      -- the first program to solve the level takes the lead
      have hovertakes : l.overtakes ⟨program, result⟩ = true := by
        rw [Ledger.overtakes, hs, hopen]
        rfl
      have hbest : (l.enter ⟨program, result⟩).best = some ⟨program, result⟩ := by
        rw [Ledger.enter, if_pos hovertakes]
      have hprogram := Ledger.program_of_best hbest
      have hfound : plan.Found [program] (l.enter ⟨program, result⟩) := by
        refine ⟨hsolved.trans hs, ?_, ?_⟩
        · rw [hprogram]
          exact List.mem_singleton_self _
        · rw [hprogram]
          exact ⟨result, hjudge, hs⟩
      exact Or.inr (hfound.of_sameTrials hsame)

/-- A chunk, program by program. -/
theorem attemptEach_sweeps :
    ∀ (programs : List Program) {l : Ledger}, l.solved = false →
      plan.Sweeps programs l (plan.attemptEach programs l) := by
  intro programs
  induction programs with
  | nil => exact fun hopen => Or.inl (Exhausted.nil hopen)
  | cons program rest ih =>
    intro l hopen
    rw [attemptEach, if_neg (Bool.eq_false_iff.1 hopen)]
    refine (attempt_sweeps program hopen).append (fun m _ hm => ih hm.unsolved) ?_
    -- behind a program that solves the level one more is judged, and only its fault is seen
    intro m hsolved
    cases rest with
    | nil => exact Or.inl rfl
    | cons p others =>
      rw [attemptEach, if_pos hsolved]
      cases hjudge : plan.judge p with
      | ok result => exact Or.inl rfl
      | error fault => exact Or.inr ⟨p, List.mem_cons_self, fault, hjudge, rfl⟩

/-- A check allows the attempts that are left and changes nothing that was tried. -/
theorem Undisturbed.check_allows_left (hu : plan.Undisturbed) (hl : l.stopAsked = false) :
    ∃ k, plan.check l = (k, plan.maxAttempts - l.attempts) ∧ l.SameTrials k ∧ k.stopAsked = false :=
  ⟨_, hu.check_eq hl, ⟨rfl, rfl, rfl, rfl⟩, hl⟩

/-- With enough attempts left, chunks make no difference to what is tried. -/
theorem attemptAll_sweeps (hu : plan.Undisturbed) (pending : List Program) (l : Ledger)
    (hopen : l.solved = false) (hl : l.stopAsked = false)
    (hleft : l.attempts + pending.length ≤ plan.maxAttempts) :
    plan.Sweeps pending l (plan.attemptAll pending l) := by
  obtain ⟨k, hcheck, hsame, hk⟩ := hu.check_allows_left hl
  have hkopen : k.solved = false := hsame.solved.trans hopen
  have hkcount := hsame.attempts
  rw [attemptAll_eq, hcheck]
  dsimp only
  split
  · rename_i hdone
    rcases hdone with rfl | hsolved
    · exact Or.inl (Exhausted.nil hopen)
    · rw [hopen] at hsolved
      cases hsolved
  · rename_i hmore
    have hne : pending ≠ [] := (not_or.1 hmore).1
    have hpos := List.length_pos_iff.2 hne
    split
    · omega
    · rename_i hsome
      have hshort := plan.chunk_shortens hne hsome
      have hn : min (plan.maxAttempts - l.attempts) plan.chunk ≤ plan.maxAttempts - l.attempts :=
        Nat.min_le_left _ _
      -- how many programs make a chunk is of no account from here on
      generalize min (plan.maxAttempts - l.attempts) plan.chunk = n at hshort hn ⊢
      have hall : plan.Sweeps (pending.take n ++ pending.drop n) k
          (plan.attemptEach (pending.take n) k >>= plan.attemptAll (pending.drop n)) := by
        refine (attemptEach_sweeps (pending.take n) hkopen).append (fun m hm hexhausted => ?_)
          (fun m hsolved => ?_)
        · have hcount := hexhausted.attempts
          rw [List.length_take] at hcount
          have hstop : m.stopAsked = false := by
            refine hu.stopAsked hk (attemptEach_yields (pending.take n) k ?_) hm
            rw [List.length_take]
            omega
          refine attemptAll_sweeps hu (pending.drop n) m hexhausted.unsolved hstop ?_
          rw [List.length_drop]
          omega
        · rw [attemptAll_eq, if_pos (Or.inr hsolved)]
          exact Or.inl rfl
      rw [List.take_append_drop] at hall
      exact hall.of_sameTrials hsame
termination_by pending.length

/-! ## Layer by layer

  `Through` says where a search has come, and `Explores` what it has told in the end.  From the one to the
  other there are as many layers as are left. -/

/-- How many programs there are up to that length. -/
def total (plan : Plan) (d : Nat) : Nat := ∑ i ∈ Finset.range (d + 1), plan.actions.length ^ i

theorem total_succ (plan : Plan) (d : Nat) :
    plan.total (d + 1) = plan.total d + plan.actions.length ^ (d + 1) :=
  Finset.sum_range_succ _ _

theorem total_mono {d e : Nat} (h : d ≤ e) : plan.total d ≤ plan.total e :=
  Finset.sum_le_sum_of_subset (Finset.range_mono (Nat.succ_le_succ h))

/-- All programs shorter than that fail. -/
def Barren (plan : Plan) (n : Nat) : Prop := ∀ i < n, ∀ p ∈ plan.layer i, plan.Fails p

theorem Barren.succ {n : Nat} (h : plan.Barren n) (hn : ∀ p ∈ plan.layer n, plan.Fails p) :
    plan.Barren (n + 1) := by
  intro i hi p hp
  rcases Nat.lt_succ_iff_lt_or_eq.1 hi with hi | rfl
  · exact h i hi p hp
  · exact hn p hp

/-- The beam and the attempts suffice for all programs within the depth. -/
structure Ample (plan : Plan) : Prop where
  /-- no layer below the last is cut -/
  width : plan.actions.length ^ (plan.maxDepth - 1) ≤ plan.beamWidth
  /-- and there is an attempt for every program -/
  attempts : plan.total plan.maxDepth ≤ plan.maxAttempts

/-- Books in which all programs up to that length have been tried, and have failed. -/
structure Through (plan : Plan) (d : Nat) (l : Ledger) : Prop where
  /-- nothing has solved the level -/
  unsolved : l.solved = false
  /-- nobody has asked for a stop -/
  unasked : l.stopAsked = false
  /-- the attempts are as many as the programs tried -/
  attempts : l.attempts = plan.total d
  /-- no program of that length or less solves the level -/
  barren : plan.Barren (d + 1)

/-- A search tells of all programs within the depth: all fail, or it has found one that solves the level
and all shorter ones fail, or one of them cannot be judged. -/
def Explores (plan : Plan) : Except Level.StartFault Ledger → Prop
  | .ok m => (m.solved = false ∧ plan.Barren (plan.maxDepth + 1)) ∨
      ∃ d ≤ plan.maxDepth, plan.Barren d ∧ plan.Found (plan.layer d) m
  | .error fault => ∃ d ≤ plan.maxDepth, ∃ p ∈ plan.layer d, plan.judge p = .error fault

/-- What is tried after a frontier that is a whole layer is the next layer. -/
theorem attemptAll_layer (hu : plan.Undisturbed) (hample : plan.Ample) {d : Nat}
    {frontier : List Program} (hd : d + 1 ≤ plan.maxDepth) (hfrontier : frontier.Perm (plan.layer d))
    (hl : plan.Through d l) :
    match plan.attemptAll (plan.children frontier) l with
    | .ok m =>
      (plan.Through (d + 1) m ∧ m.attempts = l.attempts + (plan.children frontier).length ∧
        ((m.since l).map Record.program).Perm (plan.layer (d + 1))) ∨
      plan.Found (plan.layer (d + 1)) m
    | .error fault => ∃ p ∈ plan.layer (d + 1), plan.judge p = .error fault := by
  have hperm : (plan.children frontier).Perm (plan.layer (d + 1)) := children_perm hfrontier
  have hlength : (plan.children frontier).length = plan.actions.length ^ (d + 1) := by
    rw [hperm.length_eq, length_layer]
  -- there are attempts enough for the whole layer
  have hleft : l.attempts + (plan.children frontier).length ≤ plan.maxAttempts := by
    have hmono := plan.total_mono hd
    have hattempts := hample.attempts
    rw [hl.attempts, hlength, ← total_succ]
    omega
  have hsweeps := attemptAll_sweeps hu _ l hl.unsolved hl.unasked hleft
  cases h : plan.attemptAll (plan.children frontier) l with
  | error fault =>
    rw [h] at hsweeps
    obtain ⟨p, hp, hjudge⟩ := hsweeps
    exact ⟨p, hperm.mem_iff.1 hp, hjudge⟩
  | ok m =>
    rw [h] at hsweeps
    rcases hsweeps with hexhausted | hfound
    · -- the layer has been tried in full, and nobody has asked to stop
      have hstop := hu.stopAsked hl.unasked (attemptAll_yields _ l) h
      have hcount := hexhausted.attempts
      refine Or.inl ⟨⟨hexhausted.unsolved, hstop, ?_, ?_⟩, hcount, ?_⟩
      · rw [hcount, hl.attempts, hlength, total_succ]
      · exact hl.barren.succ fun p hp => hexhausted.failed p (hperm.mem_iff.2 hp)
      · rw [hexhausted.since]
        exact hperm
    · exact Or.inr (hfound.mono hperm.subset)

/-- **So many layers further**, from a frontier that is a whole layer. -/
theorem beam_explores (hu : plan.Undisturbed) (hample : plan.Ample) (hactions : plan.actions ≠ []) :
    ∀ (layers d : Nat) (frontier : List Program) {l : Ledger}, d + layers = plan.maxDepth →
      (layers ≠ 0 → frontier.Perm (plan.layer d)) → plan.Through d l →
      plan.Explores (plan.beam layers frontier l) := by
  intro layers
  induction layers with
  | zero =>
    intro d frontier l hd _ hl
    rw [Nat.add_zero] at hd
    have hbarren := hl.barren
    rw [hd] at hbarren
    exact Or.inl ⟨hl.unsolved, hbarren⟩
  | succ layers ih =>
    intro d frontier l hd hfrontier hl
    have hlayer := attemptAll_layer hu hample (by omega) (hfrontier (Nat.succ_ne_zero _)) hl
    rw [beam]
    cases h : plan.attemptAll (plan.children frontier) l with
    | error fault =>
      rw [h] at hlayer
      obtain ⟨p, hp, hjudge⟩ := hlayer
      exact ⟨d + 1, by omega, p, hp, hjudge⟩
    | ok after =>
      rw [h] at hlayer
      show plan.Explores (if _ then _ else _)
      rcases hlayer with ⟨hafter, hcount, hperm⟩ | hfound
      · -- the layer has been tried in full, so the search is not cut off here
        have hmore : ¬ ((after.solved ||
            decide (after.attempts < l.attempts + (plan.children frontier).length)) = true) := by
          rw [hafter.unsolved, Bool.false_or, decide_eq_true_iff]
          omega
        rw [if_neg hmore]
        have hkeep : layers ≠ 0 → (plan.keep (after.since l)).Perm (plan.layer (d + 1)) := by
          -- the last layer need not fit into the beam, since nothing is lengthened any more
          intro hlayers
          refine (keep_perm ?_).trans hperm
          have hlength := hperm.length_eq
          rw [List.length_map, length_layer] at hlength
          rw [hlength]
          exact (Nat.pow_le_pow_right (List.length_pos_iff.2 hactions) (by omega)).trans hample.width
        have hgo := ih (d + 1) (plan.keep (after.since l)) (by omega) hkeep hafter
        split
        · rename_i hempty
          by_cases hlayers : layers = 0
          · rw [hlayers] at hgo
            exact hgo
          · -- a layer is never empty
            have hlength := (hkeep hlayers).length_eq
            rw [List.isEmpty_iff.1 hempty, length_layer, List.length_nil] at hlength
            have hpos := Nat.pow_pos (List.length_pos_iff.2 hactions) (n := d + 1)
            omega
        · exact hgo
      · rw [if_pos (by rw [hfound.solved, Bool.true_or])]
        exact Or.inr ⟨d + 1, by omega, hl.barren, hfound⟩

/-- A report at the end changes nothing of this. -/
theorem Explores.report {x : Except Level.StartFault Ledger} (h : plan.Explores x) :
    plan.Explores (x >>= fun l => pure (l.report plan.listener)) := by
  cases x with
  | error fault => exact h
  | ok m =>
    have hsame := Ledger.sameTrials_report plan.listener m
    refine Or.imp ?_ ?_ h
    · rintro ⟨hopen, hbarren⟩
      exact ⟨hsame.solved.trans hopen, hbarren⟩
    · rintro ⟨d, hd, hbarren, hfound⟩
      exact ⟨d, hd, hbarren, hfound.of_sameTrials hsame⟩

/-- Without a vocabulary there is nothing but the empty program. -/
theorem Barren.of_no_actions (hactions : plan.actions = []) (h : plan.Barren 1) (n : Nat) :
    plan.Barren n := by
  intro i _ p hp
  cases i with
  | zero => exact h 0 Nat.one_pos p hp
  | succ i =>
    have hlength := plan.length_layer (i + 1)
    rw [hactions, List.length_nil, Nat.zero_pow (Nat.succ_pos i)] at hlength
    rw [List.length_eq_zero_iff.1 hlength] at hp
    cases hp

/-- **A whole search by length**, from new books. -/
theorem run_explores {σ : Type} (hu : plan.Undisturbed) (hample : plan.Ample)
    (around : Circumstances σ) (hopen : l.solved = false) (hl : l.stopAsked = false)
    (hnew : l.attempts = 0) : plan.Explores (plan.run .beam around l) := by
  have htotal : plan.total 0 = 1 := Finset.sum_range_one _
  have hleft : 0 < plan.maxAttempts := by
    have hmono := plan.total_mono (Nat.zero_le plan.maxDepth)
    have hattempts := hample.attempts
    omega
  obtain ⟨k, hcheck, hsame, hk⟩ := hu.check_allows_left hl
  have hkopen : k.solved = false := hsame.solved.trans hopen
  have hkcount : k.attempts = 0 := hsame.attempts.trans hnew
  have hempty : plan.attemptEmpty l = plan.attempt [] k := by
    unfold attemptEmpty
    rw [hcheck]
    dsimp only
    rw [if_neg (by omega)]
  have hsweeps : plan.Sweeps [[]] k (plan.attempt [] k) := attempt_sweeps [] hkopen
  have hyields : plan.Yields k (plan.attempt [] k) := attempt_yields [] hkopen (by omega)
  rw [run, hempty]
  cases h : plan.attempt [] k with
  | error fault =>
    rw [h] at hsweeps
    obtain ⟨p, hp, hjudge⟩ := hsweeps
    exact ⟨0, Nat.zero_le _, p, hp, hjudge⟩
  | ok m =>
    rw [h] at hsweeps
    refine Explores.report ?_
    rcases hsweeps with hexhausted | hfound
    · have hthrough : plan.Through 0 m := by
        refine ⟨hexhausted.unsolved, hu.stopAsked hk hyields h, ?_, ?_⟩
        · rw [hexhausted.attempts, hkcount, htotal]
          rfl
        · exact Barren.succ (fun i hi => absurd hi (Nat.not_lt_zero i)) hexhausted.failed
      -- without a vocabulary the search ends here, but then there are no longer programs either
      by_cases hactions : plan.actions = []
      · have hdone : (plan.actions.isEmpty || m.solved) = true := by
          rw [hactions]
          rfl
        rw [goOn, if_pos hdone]
        exact Or.inl ⟨hexhausted.unsolved, hthrough.barren.of_no_actions hactions _⟩
      · have hmore : ¬ ((plan.actions.isEmpty || m.solved) = true) := by
          rw [hexhausted.unsolved, Bool.or_false, List.isEmpty_iff]
          exact hactions
        rw [goOn, if_neg hmore]
        exact beam_explores hu hample hactions plan.maxDepth 0 [[]] (Nat.zero_add _)
          (fun _ => List.Perm.refl _) hthrough
    · have hdone : (plan.actions.isEmpty || m.solved) = true := by
        rw [hfound.solved, Bool.or_true]
      rw [goOn, if_pos hdone]
      exact Or.inr ⟨0, Nat.zero_le _, fun i hi => absurd hi (Nat.not_lt_zero i), hfound⟩

/-- What has been found solves the level, and no shorter program does. -/
theorem Explores.shortest (h : plan.Explores (.ok m)) (hsolved : m.solved = true) :
    ∃ d ≤ plan.maxDepth, m.program ∈ plan.layer d ∧ plan.Solves m.program ∧
      ∀ e, ∀ p ∈ plan.layer e, plan.Solves p → d ≤ e := by
  rcases h with ⟨hopen, -⟩ | ⟨d, hd, hbarren, hfound⟩
  · rw [hsolved] at hopen
    cases hopen
  · refine ⟨d, hd, hfound.mem, hfound.solves, fun e p hp hsolves => ?_⟩
    exact Nat.not_lt.1 fun he => (hbarren e he p hp).not_solves hsolves

/-- The level is solved exactly if some program within the depth solves it. -/
theorem Explores.solved_iff (h : plan.Explores (.ok m)) :
    m.solved = true ↔ ∃ d ≤ plan.maxDepth, ∃ p ∈ plan.layer d, plan.Solves p := by
  constructor
  · intro hsolved
    obtain ⟨d, hd, hmem, hsolves, -⟩ := h.shortest hsolved
    exact ⟨d, hd, m.program, hmem, hsolves⟩
  · rintro ⟨d, hd, p, hp, hsolves⟩
    rcases h with ⟨-, hbarren⟩ | ⟨_, _, _, hfound⟩
    · exact absurd hsolves (hbarren d (Nat.lt_succ_of_le hd) p hp).not_solves
    · exact hfound.solved

end Plan

/-! ## The search

  The statements about layers are put in terms of sequences of actions, without the plan. -/

/-- A sequence of actions of the vocabulary, within the depth. -/
def Options.Allows (options : Options) (as : List Action) : Prop :=
  (∀ a ∈ as, a ∈ options.actions) ∧ as.length ≤ options.depth

section Levels

variable {σ : Type} {level : Level} {options : Options} {evaluation : Evaluation.Options}
  {around : Circumstances σ}

/-- The actions, one after the other, solve the level. -/
def SolvedBy (level : Level) (evaluation : Evaluation.Options) (as : List Action) : Prop :=
  ∃ r, Evaluation.evaluate (Program.ofActions as) level evaluation = .ok r ∧ r.solved = true

/-- The programs of the layers within the depth are those of the sequences that the options allow. -/
theorem exists_layer_iff {P : Program → Prop} :
    (∃ d ≤ (planOf level options evaluation around).maxDepth,
      ∃ p ∈ (planOf level options evaluation around).layer d, P p) ↔
      ∃ as, options.Allows as ∧ P (Program.ofActions as) := by
  constructor
  · rintro ⟨d, hd, p, hp, h⟩
    obtain ⟨as, has, rfl, rfl⟩ := Plan.mem_layer.1 hp
    exact ⟨as, ⟨has, hd⟩, h⟩
  · rintro ⟨as, ⟨has, hd⟩, h⟩
    exact ⟨as.length, hd, _, Plan.mem_layer.2 ⟨as, has, rfl, rfl⟩, h⟩

/-- **A wide search by length is complete and finds a shortest program.**  The beam holds all programs that
are lengthened once more, the attempts suffice for all programs within the depth, and nobody disturbs.
Then the level is reported as solved exactly if some sequence of actions within the depth solves it, and
what is returned is then such a sequence of the least length.  The search fails only with the fault of
such a sequence, so never on a level that can be started and whose robots have headings. -/
theorem conduct_wide (hbeam : options.strategy = .beam) (hstopped : around.stopped = false)
    (hu : (planOf level options evaluation around).Undisturbed)
    (hwidth : options.actions.length ^ (options.depth - 1) ≤ options.width)
    (hattempts : ∑ d ∈ Finset.range (options.depth + 1), options.actions.length ^ d
      ≤ options.attempts) :
    (∀ l, conduct level options evaluation around = .ok l →
      (l.solved = true ↔ ∃ as, options.Allows as ∧ SolvedBy level evaluation as) ∧
      (l.solved = true → ∃ as, l.program = Program.ofActions as ∧ options.Allows as ∧
        SolvedBy level evaluation as ∧
        ∀ other, options.Allows other → SolvedBy level evaluation other →
          as.length ≤ other.length)) ∧
    (∀ fault, conduct level options evaluation around = .error fault →
      ∃ as, options.Allows as ∧
        Evaluation.evaluate (Program.ofActions as) level evaluation = .error fault) ∧
    (Simulation.Headed level.spawner → ∀ s,
      level.start (evaluation.maxTicks.getD Simulation.defaultMaxSteps) = .ok s →
        ∃ l, conduct level options evaluation around = .ok l) := by
  -- the run over layers, with the width and the attempts that it needs
  have hexplores : (planOf level options evaluation around).Explores
      (conduct level options evaluation around) := by
    rw [conduct, hbeam]
    exact Plan.run_explores hu ⟨hwidth, hattempts⟩ around rfl hstopped rfl
  refine ⟨fun l hl => ?_, fun fault hfault => ?_, fun hh s hstart => ?_⟩
  · rw [hl] at hexplores
    refine ⟨hexplores.solved_iff.trans exists_layer_iff, fun hsolved => ?_⟩
    obtain ⟨d, hd, hmem, hsolves, hleast⟩ := hexplores.shortest hsolved
    -- a program of a layer is a list of so many actions
    obtain ⟨as, has, rfl, hprogram⟩ := Plan.mem_layer.1 hmem
    rw [hprogram] at hsolves
    refine ⟨as, hprogram, ⟨has, hd⟩, hsolves, fun other hother hsolves' => ?_⟩
    exact hleast _ _ (Plan.mem_layer.2 ⟨other, hother.1, rfl, rfl⟩) hsolves'
  · rw [hfault] at hexplores
    exact exists_layer_iff.1 hexplores
  · exact (planOf_sure hh hstart).run_ok options.strategy around rfl

end Levels

/-- Two steps in front of an exit. -/
def hallway : Level := { grid := [[0, 0, 2]], spawner := { pose := ⟨⟨0, 0⟩, 1⟩ }, maxTicks := some 3 }

/-- A beam and attempts for two steps, with one action listed twice, and two workers. -/
def twoSteps : Options :=
  { actions := [.wait, .moveForward, .wait], maxAttempts := some 13, maxDepth := some 2
    beamWidth := some 3, workers := 2 }

theorem solvedBy_hallway : SolvedBy hallway {} [.moveForward, .moveForward] :=
  Evaluation.exists_of_evaluate_eq (show ((Evaluation.evaluate
    (Program.ofActions [.moveForward, .moveForward]) hallway {}).map
      Evaluation.Result.solved).toOption = some true by decide +kernel)

/-- Two steps lead to the exit, so the search finds a shortest way. -/
theorem conduct_wide_hallway :
    ∃ l as, conduct hallway twoSteps {} unhurried = .ok l ∧ l.solved = true ∧
      l.program = Program.ofActions as ∧ as.length ≤ 2 ∧
      ∀ other, twoSteps.Allows other → SolvedBy hallway {} other → as.length ≤ other.length := by
  have hu : (planOf hallway twoSteps {} unhurried).Undisturbed :=
    undisturbed_unhurried _ _ _ (fun _ => rfl) fun _ => show 0 < 1500 by decide
  obtain ⟨hwide, -, hok⟩ := conduct_wide (show twoSteps.strategy = .beam from rfl) rfl hu
    (by decide) (by decide)
  obtain ⟨s, hs⟩ : ∃ s, hallway.start Simulation.defaultMaxSteps = .ok s := ⟨_, rfl⟩
  obtain ⟨l, hl⟩ := hok (by decide) s hs
  obtain ⟨hiff, hshortest⟩ := hwide l hl
  have hallowed : twoSteps.Allows [.moveForward, .moveForward] := by
    constructor
    · decide
    · decide
  -- there is a program to be found, so the search has found a shortest
  have hsolved := hiff.2 ⟨_, hallowed, solvedBy_hallway⟩
  obtain ⟨as, hprogram, -, -, hleast⟩ := hshortest hsolved
  exact ⟨l, as, hl, hsolved, hprogram, hleast _ hallowed solvedBy_hallway, hleast⟩

end Search

end RobotPuzzle
