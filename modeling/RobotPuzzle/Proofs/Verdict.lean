/-
  The status of a run is exact, and every run ends.

  1. **The verdict** — `verdict_cases` says what each of the three verdicts means.  The start and the tick
     come to the status in different ways, and both are exact (`StatusExact`): won is to have met the
     quota, lost is to have missed it for good, and a run that goes on still can.
  2. **Progress** — a sound raft always finds its next stop, and what the rafts change can be painted; so
     the only thing that can stop a tick is a robot that would enter with no heading
     (`tick_ok`).
  3. **The end** — a run that still runs after some ticks has counted every one of them and is below its
     step limit (`statesAfter_running`).  So `max 1 maxSteps` ticks are enough for every run, whatever
     numbers the level has (`reaches_statusExact`).

  The crux of the end is that nothing can stop a tick.  A tick could fail at three places: a robot without
  a heading, a raft without a next stop, a change painted beside the board.  The last two are excluded by
  the invariants of the rafts (`Afloat`), which hold from the start on for every board; the first one is a
  property of the spawner, which no tick changes.

  No number is excluded: the quota may be zero or less, the limit negative, and there may be nobody to
  enter.  In all of these cases the start is not judged but the first tick is, which is why the bound on
  the length of a run is `max 1 maxSteps`.
-/
import RobotPuzzle.Proofs.Fleet
import RobotPuzzle.Proofs.Idle

namespace RobotPuzzle

namespace Simulation

/-! ## The verdict -/

/-- The verdict asks for the quota first, then for the limit, then for whether anybody can still do
something; so each answer says that the questions before it were answered with no. -/
theorem verdict_cases {saved required steps maxSteps : Int} {active remaining : Bool}
    {status : Status} (h : verdict saved required steps maxSteps active remaining = status) :
    (status = .won ∧ required ≤ saved) ∨
      (status = .lost ∧ saved < required ∧
        (maxSteps ≤ steps ∨ (active = false ∧ remaining = false))) ∨
      (status = .running ∧ saved < required ∧ steps < maxSteps ∧
        (active = true ∨ remaining = true)) := by
  unfold verdict at h
  split at h
  · rename_i hquota
    exact Or.inl ⟨h.symm, hquota⟩
  · rename_i hquota
    have hmissed : saved < required := Int.not_le.1 hquota
    split at h
    · rename_i hlimit
      exact Or.inr (Or.inl ⟨h.symm, hmissed, Or.inl hlimit⟩)
    · rename_i hlimit
      have hbelow : steps < maxSteps := Int.not_le.1 hlimit
      split at h
      · -- the limit is not reached: is anybody active, or still to enter?
        rename_i hnobody
        rw [Bool.and_eq_true, Bool.not_eq_true', Bool.not_eq_true'] at hnobody
        exact Or.inr (Or.inl ⟨h.symm, hmissed, Or.inr hnobody⟩)
      · rename_i hsomebody
        refine Or.inr (Or.inr ⟨h.symm, hmissed, hbelow, ?_⟩)
        cases active with
        | true => exact Or.inl rfl
        | false =>
          cases remaining with
          | true => exact Or.inr rfl
          | false => exact absurd rfl hsomebody

/-- The status says how the run stands. -/
structure StatusExact (s : State) : Prop where
  /-- won means that the quota is met -/
  won : s.status = .won ↔ s.requiredSaved ≤ s.savedCount
  /-- lost means that it is not, and that no tick is left or nobody could still be saved -/
  lost : s.status = .lost → s.savedCount < s.requiredSaved ∧
    (s.maxSteps ≤ s.stepCount ∨ (s.activeCount = 0 ∧ s.remainingSpawns = 0))
  /-- after a tick, a running run has ticks left and somebody who could be saved -/
  running : s.status = .running → 0 < s.stepCount →
    s.stepCount < s.maxSteps ∧ (0 < s.activeCount ∨ 0 < s.remainingSpawns)

/-- At the start a run is won or goes on; it is never lost before the first tick, whatever the numbers
are. -/
theorem statusExact_start {grid : Grid} {spawner : Spawner} {exits : List Cell}
    {maxSteps requiredSaved : Int} {s : State}
    (h : start grid spawner exits maxSteps requiredSaved = .ok s) :
    StatusExact s ∧ s.stepCount = 0 := by
  obtain ⟨entered, hs⟩ := start_cases h
  rw [hs.state]
  refine ⟨?_, rfl⟩
  by_cases hquota : requiredSaved ≤ (entered.map (markExit grid exits)).countP Robot.saved
  · rw [if_pos hquota]
    exact ⟨⟨fun _ => hquota, fun _ => rfl⟩, fun hlost => Status.noConfusion hlost,
      fun hrun => Status.noConfusion hrun⟩
  · rw [if_neg hquota]
    refine ⟨⟨fun hwon => Status.noConfusion hwon, fun hmet => absurd hmet hquota⟩,
      fun hlost => Status.noConfusion hlost, fun _ hsteps => ?_⟩
    -- no tick has been counted yet
    exact absurd hsteps (Int.lt_irrefl 0)

/-- The verdict asks whether anybody blocks, the statement how many do. -/
theorem activeCount_pos_iff {s : State} : 0 < s.activeCount ↔ s.robots.any Robot.blocking = true := by
  unfold State.activeCount
  rw [List.countP_pos_iff, List.any_eq_true]

/-- The end of a tick that goes through its phases: the counts that the verdict is given are those of the
state it is given for. -/
theorem statusExact_settle (s : State) (entry : Entry) (signal : Bool) (grid : Grid)
    (ferried : List Robot) (rafts : List Raft) :
    StatusExact (settle s entry signal grid ferried rafts) := by
  generalize ht : settle s entry signal grid ferried rafts = t
  have hstatus : verdict t.savedCount t.requiredSaved t.stepCount t.maxSteps
      (t.robots.any Robot.blocking) (t.spawnedCount < t.spawner.count) = t.status := by
    subst ht
    rfl
  -- some are still to enter just if fewer have entered than there are to be
  have hremaining : 0 < t.remainingSpawns ↔ t.spawnedCount < t.spawner.count := by
    unfold State.remainingSpawns
    omega
  rcases verdict_cases hstatus with ⟨hwon, hmet⟩ | ⟨hlost, hmissed, hend⟩ |
    ⟨hrun, hmissed, hbelow, hsomebody⟩
  · rw [hwon] at hstatus
    refine ⟨⟨fun _ => hmet, fun _ => hwon⟩, fun hlost => ?_, fun hrun => ?_⟩
    · rw [hwon] at hlost
      cases hlost
    · rw [hwon] at hrun
      cases hrun
  · refine ⟨⟨fun hwon => ?_, fun hmet => absurd hmet (Int.not_le.2 hmissed)⟩, fun _ => ?_,
      fun hrun => ?_⟩
    · rw [hlost] at hwon
      cases hwon
    · refine ⟨hmissed, hend.imp_right fun ⟨hactive, hnone⟩ => ⟨?_, ?_⟩⟩
      · by_contra hpos
        -- the verdict was told that nobody is active
        have hany := activeCount_pos_iff.1 (Nat.pos_of_ne_zero hpos)
        rw [hactive] at hany
        cases hany
      · have hover : ¬ t.spawnedCount < t.spawner.count := of_decide_eq_false hnone
        unfold State.remainingSpawns
        omega
    · rw [hlost] at hrun
      cases hrun
  · refine ⟨⟨fun hwon => ?_, fun hmet => absurd hmet (Int.not_le.2 hmissed)⟩, fun hlost => ?_,
      fun _ _ => ⟨hbelow, ?_⟩⟩
    · rw [hrun] at hwon
      cases hwon
    · rw [hrun] at hlost
      cases hlost
    · exact hsomebody.imp activeCount_pos_iff.2 fun hleft => hremaining.2 (of_decide_eq_true hleft)

/-- So every tick leaves an exact status; a run that is over keeps the one it has. -/
theorem statusExact_tick {s t : State} {actions : List (Option Action)} (hs : StatusExact s)
    (h : tick s actions = .ok t) : StatusExact t := by
  rcases tick_cases h with ⟨-, rfl⟩ | ⟨-, entry, grid, ferried, rafts, -, -, rfl⟩
  · exact hs
  · exact statusExact_settle s entry _ grid ferried rafts

end Simulation

/-! ## The ferry step goes through

  A sound raft has a route whose stops all lie on the board, and its dock is one of them.  So the next
  stop exists, and what is painted there can be painted. -/

namespace Grid

/-- A cell that is stored can be painted. -/
theorem paintCell_ok {rows : List (List Tile)} {c : Cell} (hc : (storedIn rows c).isSome = true)
    (t : Tile) : ∃ painted, paintCell rows c t = .ok painted := by
  rw [storedIn] at hc
  split at hc
  · rename_i hpos
    obtain ⟨u, hu⟩ := Option.isSome_iff_exists.1 hc
    obtain ⟨row, hrow, hu⟩ := Option.bind_eq_some_iff.1 hu
    obtain ⟨hy, -⟩ := List.getElem?_eq_some_iff.1 hrow
    obtain ⟨hx, -⟩ := List.getElem?_eq_some_iff.1 hu
    rw [paintCell, placeOf?_of_nonneg hpos.2 hy]
    simp only [hrow, Option.getD_some, placeOf?_of_nonneg hpos.1 hx]
    exact ⟨_, rfl⟩
  · cases hc

/-- Changes to cells of the board can be painted.  Painting one of them leaves the lengths of the rows, so
the cells of the others are still stored. -/
theorem paint_ok {g : Grid} {changes : Changes} (h : changes.Paintable g.rows) :
    ∃ painted, g.paint changes = .ok painted := by
  have key : ∀ (changes : Changes) (rows : List (List Tile)),
      (∀ c ∈ changes.map Prod.fst, (storedIn rows c).isSome = true) →
      ∃ out, paintRows rows changes = .ok out := by
    intro changes
    induction changes with
    | nil => intro rows _; exact ⟨rows, rfl⟩
    | cons p rest ih =>
      obtain ⟨c, t⟩ := p
      intro rows hstored
      have hc : (storedIn rows c).isSome = true := hstored c List.mem_cons_self
      obtain ⟨mid, hmid⟩ := paintCell_ok hc t
      -- what is stored stays stored, with whatever tile
      have hrest : ∀ d ∈ rest.map Prod.fst, (storedIn mid d).isSome = true := by
        intro d hd
        rw [storedIn_paintCell hc hmid]
        split
        · rfl
        · exact hstored d (List.mem_cons_of_mem _ hd)
      obtain ⟨out, hout⟩ := ih mid hrest
      exact ⟨out, by rw [paintRows, hmid]; exact hout⟩
  obtain ⟨out, hout⟩ := key changes g.rows h.stored
  exact ⟨⟨out⟩, by rw [paint, hout]; rfl⟩

end Grid

namespace Raft

/-- A sound raft can always make its turn.  Both stops that it might sail to, the next one and the one it
remembers, are on its route. -/
theorem Sound.ferryOne_ok {rows : List (List Tile)} {raft : Raft} (hs : raft.Sound rows)
    (jetties : List Cell) (h : Harbour) : ∃ out, raft.ferryOne jetties h = .ok out := by
  unfold ferryOne
  split
  · exact ⟨_, rfl⟩
  · rename_i hlen
    split
    · -- the next stop
      obtain ⟨i, hi, -⟩ := hs.moored
      have hpos : 0 < raft.route.length := by omega
      have hnext : (raft.dock + 1) % raft.route.length = ((i + 1) % raft.route.length : Nat) := by
        rw [hi]
        rfl
      have hstop := List.getElem?_eq_getElem (Nat.mod_lt (i + 1) hpos)
      rw [sailWithRiders, hnext, stop?_natCast, hstop]
      dsimp only
      split
      · exact ⟨_, rfl⟩
      · exact ⟨_, rfl⟩
    · split
      · -- the stop it remembers
        rename_i back hpending
        obtain ⟨j, rfl, hj⟩ := hs.back back (pending_eq_some hpending).1
        rw [sailAlone, stop?_natCast, List.getElem?_eq_getElem hj]
        dsimp only
        split
        · exact ⟨_, rfl⟩
        · exact ⟨_, rfl⟩
      · exact ⟨_, rfl⟩

/-- All rafts can, one after another: the turn of one changes nothing in the others. -/
theorem ferryAll_ok {rows : List (List Tile)} (jetties : List Cell) :
    ∀ (rafts : List Raft) (h : Harbour), (∀ raft ∈ rafts, raft.Sound rows) →
      ∃ out, ferryAll jetties h rafts = .ok out := by
  intro rafts
  induction rafts with
  | nil => intro h _; exact ⟨_, rfl⟩
  | cons raft rest ih =>
    intro h hs
    obtain ⟨hraft, hrest⟩ := List.forall_mem_cons.1 hs
    obtain ⟨⟨mid, raft'⟩, hone⟩ := hraft.ferryOne_ok jetties h
    obtain ⟨⟨last, others⟩, hothers⟩ := ih mid hrest
    refine ⟨(last, raft' :: others), ?_⟩
    rw [ferryAll, hone]
    show (ferryAll jetties mid rest >>= _) = _
    rw [hothers]
    rfl

end Raft

/-- So the ferry step goes through, whoever stands where. -/
theorem ferry_ok {grid : Grid} {rafts : List Raft} (hs : ∀ raft ∈ rafts, raft.Sound grid.rows)
    (robots : List Robot) (jetties : List Cell) :
    ∃ grid' robots' rafts', ferry grid robots rafts jetties = .ok (grid', robots', rafts') := by
  obtain ⟨⟨h, rafts'⟩, hall⟩ := Raft.ferryAll_ok jetties rafts (.before robots) hs
  obtain ⟨painted, hpaint⟩ := Grid.paint_ok (Raft.ferryAll_paintable hs hall).1
  refine ⟨painted, h.robots, rafts', ?_⟩
  unfold ferry
  show (Raft.ferryAll jetties (.before robots) rafts >>= _) = _
  rw [hall]
  dsimp only [bind, Except.bind]
  rw [hpaint]
  rfl

namespace Simulation

/-! ## Robots that can enter

  A pose whose heading is not one of the four is kept as it was written, and the run fails only when a
  robot would enter with it. -/

/-- Every heading of the spawner is one of the four. -/
def Headed (spawner : Spawner) : Prop :=
  ∀ pose ∈ spawner.pose :: spawner.starts, (Direction.ofNumber? pose.heading).isSome = true

instance (spawner : Spawner) : Decidable (Headed spawner) :=
  inferInstanceAs (Decidable (∀ pose ∈ _, _))

/-- Every robot enters with the general pose or one that is listed for it. -/
theorem poseOf_mem (spawner : Spawner) (index : Nat) :
    spawner.poseOf index ∈ spawner.pose :: spawner.starts := by
  unfold Spawner.poseOf
  cases h : spawner.starts[index]? with
  | none => exact List.mem_cons_self
  | some pose => exact List.mem_cons_of_mem _ (List.mem_of_getElem? h)

/-- Where all headings are headings, everybody can enter. -/
theorem Headed.enter_ok {spawner : Spawner} (h : Headed spawner) (index : Nat) :
    ∃ r, enter spawner index = .ok r := by
  obtain ⟨heading, hh⟩ := Option.isSome_iff_exists.1 (h _ (poseOf_mem spawner index))
  rw [enter, hh]
  exact ⟨_, rfl⟩

/-- Any number of robots can, one after another. -/
theorem Headed.enterMany_ok {spawner : Spawner} (h : Headed spawner) :
    ∀ count first : Nat, ∃ robots, enterMany spawner first count = .ok robots := by
  intro count
  induction count with
  | zero => intro first; exact ⟨[], rfl⟩
  | succ count ih =>
    intro first
    obtain ⟨r, hr⟩ := h.enter_ok first
    obtain ⟨others, hothers⟩ := ih (first + 1)
    refine ⟨r :: others, ?_⟩
    rw [enterMany, hr]
    show (enterMany spawner (first + 1) count >>= _) = _
    rw [hothers]
    rfl

/-- So the run can be started. -/
theorem Headed.start_ok {spawner : Spawner} (h : Headed spawner) (grid : Grid) (exits : List Cell)
    (maxSteps requiredSaved : Int) :
    ∃ s, start grid spawner exits maxSteps requiredSaved = .ok s := by
  obtain ⟨entered, hentered⟩ := h.enterMany_ok (initialCount spawner) 0
  rw [start, hentered]
  exact ⟨_, rfl⟩

/-- And the entry of every tick goes through. -/
theorem Headed.spawnPhase_ok {s : State} (h : Headed s.spawner) :
    ∃ entry, spawnPhase s = .ok entry := by
  unfold spawnPhase
  cases entering? s with
  | none => exact ⟨_, rfl⟩
  | some index =>
    obtain ⟨r, hr⟩ := h.enter_ok index
    dsimp only
    rw [hr]
    exact ⟨_, rfl⟩

/-- **A tick goes through** where the rafts are sound and the robots have headings. -/
theorem tick_ok {s : State} (hs : Afloat s) (hh : Headed s.spawner)
    (actions : List (Option Action)) : ∃ t, tick s actions = .ok t := by
  by_cases hr : s.status = .running
  · obtain ⟨entry, hentry⟩ := hh.spawnPhase_ok
    obtain ⟨grid, ferried, rafts, hferry⟩ :=
      ferry_ok hs.sound (actedRobots s entry actions).1 s.jetties
    exact ⟨_, tick_of_phases hr hentry hferry⟩
  · exact ⟨s, tick_of_not_running hr actions⟩

/-! ## The end

  The rafts are sound in every state reached, so every tick goes through; a tick that leaves the run
  running has counted a step and compared it with the limit.  Both together bound the number of ticks. -/

/-- The rafts stay sound along a run. -/
theorem afloat_reaches {s t : State} (hs : Afloat s) (h : Reaches s t) : Afloat t :=
  h.invariant (P := Afloat) (fun hs hstep => (afloat_tick hs hstep).1) hs

/-- So in every state of a run the next tick goes through. -/
theorem reaches_ok {s t : State} (hs : Afloat s) (hh : Headed s.spawner) (h : Reaches s t)
    (actions : List (Option Action)) : ∃ u, tick t actions = .ok u := by
  refine tick_ok (afloat_reaches hs h) ?_ actions
  rw [h.sameRules.spawner]
  exact hh

/-- And so a replay of any length does, by induction on its orders. -/
theorem statesAfter_ok {s : State} (hs : Afloat s) (hh : Headed s.spawner) :
    ∀ (log : List Orders) {t : State}, Reaches s t →
      ∃ states, statesAfter t log = .ok states ∧ states.length = log.length := by
  intro log
  induction log with
  | nil => intro t _; exact ⟨[], rfl, rfl⟩
  | cons orders rest ih =>
    intro t ht
    obtain ⟨u, hu⟩ := reaches_ok hs hh ht orders
    obtain ⟨others, hothers, hlen⟩ := ih (.tick ht hu)
    refine ⟨u :: others, ?_, by rw [List.length_cons, List.length_cons, hlen]⟩
    rw [statesAfter, hu]
    show (statesAfter u rest >>= _) = _
    rw [hothers]
    rfl

/-- A run that is over stays as it is, whatever is ordered. -/
theorem eq_of_over {s t : State} (h : Reaches s t) (hs : s.status ≠ .running) : t = s :=
  h.invariant (P := fun t => t = s)
    (fun {t u _} ht hstep => by
      rw [ht, tick_of_not_running hs] at hstep
      cases hstep
      rfl) rfl

/-- A run that still runs after some ticks has counted them all, and is below its limit.  The induction is
on the orders, so the run after the first tick is the one that still runs after the others. -/
theorem statesAfter_running :
    ∀ {log : List Orders} {s : State} {states : List State} {last : State},
      statesAfter s log = .ok states → states.getLast? = some last → last.status = .running →
      s.stepCount + log.length < s.maxSteps := by
  intro log
  induction log with
  | nil =>
    intro s states last h hlast _
    cases h
    cases hlast
  | cons orders rest ih =>
    intro s states last h hlast hrun
    have hreach : Reaches s last := Reaches.of_statesAfter h (List.mem_of_getLast? hlast)
    have hs : s.status = .running := by
      by_contra hover
      rw [eq_of_over hreach hover] at hrun
      exact hover hrun
    obtain ⟨u, others, hu, hothers, rfl⟩ := statesAfter_cons_cases h
    have hcount := tick_stepCount hs hu
    have hlimit := (sameRules_tick hu).maxSteps
    rw [List.length_cons]
    cases rest with
    | nil =>
      -- the last of the ticks has left the run running
      cases hothers
      cases hlast
      have hbelow := tick_running_lt hs hu hrun
      rw [List.length_nil]
      omega
    | cons next rest =>
      have hothers' : others.getLast? = some last := by
        cases others with
        | nil =>
          obtain ⟨v, -, hothers⟩ := bind_eq_ok hothers
          obtain ⟨more, -, hothers⟩ := bind_eq_ok hothers
          cases hothers
        | cons v more => exact hlast
      have hlater := ih hothers hothers' hrun
      omega

/-- **The status is exact, and every run ends**, whatever the numbers of the level are.  In every state
that ticks lead to, the status says how the run stands; a tick of a running state counts one step, and
any other state stays as it is.  Where robots have headings, the start and every tick go through, and
at the latest after `max 1 maxSteps` ticks the run is over. -/
theorem reaches_statusExact (grid : Grid) (spawner : Spawner) (exits : List Cell)
    (maxSteps requiredSaved : Int) :
    (Headed spawner → ∃ s, start grid spawner exits maxSteps requiredSaved = .ok s) ∧
    ∀ s, start grid spawner exits maxSteps requiredSaved = .ok s →
      (∀ t, Reaches s t → StatusExact t ∧ ∀ actions,
        (t.status ≠ .running → tick t actions = .ok t) ∧
        (t.status = .running → ∀ u, tick t actions = .ok u → u.stepCount = t.stepCount + 1) ∧
        (Headed spawner → ∃ u, tick t actions = .ok u)) ∧
      (Headed spawner → ∀ log : List Orders, max 1 maxSteps ≤ log.length →
        ∃ states last, statesAfter s log = .ok states ∧ states.getLast? = some last ∧
          last.status ≠ .running) := by
  refine ⟨fun hh => hh.start_ok grid exits maxSteps requiredSaved, fun s h => ?_⟩
  obtain ⟨hafloat, -⟩ := afloat_start h
  obtain ⟨hexact, hzero⟩ := statusExact_start h
  obtain ⟨entered, hstarted⟩ := start_cases h
  have hspawner : s.spawner = spawner := by rw [hstarted.state]
  have hlimit : s.maxSteps = maxSteps := by rw [hstarted.state]
  constructor
  · intro t ht
    refine ⟨ht.invariant (P := StatusExact) statusExact_tick hexact, fun actions => ⟨?_, ?_, ?_⟩⟩
    · intro hover
      exact tick_of_not_running hover actions
    · intro hrun u hu
      exact tick_stepCount hrun hu
    · intro hh
      rw [← hspawner] at hh
      exact reaches_ok hafloat hh ht actions
  · intro hh log hlog
    rw [← hspawner] at hh
    obtain ⟨states, hstates, hlen⟩ := statesAfter_ok hafloat hh log .here
    have hne : states ≠ [] := by
      rintro rfl
      rw [List.length_nil] at hlen
      omega
    refine ⟨states, states.getLast hne, hstates, List.getLast?_eq_some_getLast hne, fun hrun => ?_⟩
    -- a run that goes on has made fewer steps than its limit, but the log is as long as that
    have hbelow := statesAfter_running hstates (List.getLast?_eq_some_getLast hne) hrun
    omega

/-- Two robots are to enter and nobody may make a step: the run is lost after its first tick. -/
theorem reaches_statusExact_noSteps :
    ∃ s states last,
      start ⟨[[.empty]]⟩ { pose := ⟨⟨0, 0⟩, 1⟩, count := 2, interval := 1 } [] (-3) 1 = .ok s ∧
      statesAfter s [[some .wait]] = .ok states ∧ states.getLast? = some last ∧
      StatusExact last ∧ last.status ≠ .running ∧ last.stepCount = 1 := by
  obtain ⟨hstart, hrun⟩ := reaches_statusExact ⟨[[.empty]]⟩
    { pose := ⟨⟨0, 0⟩, 1⟩, count := 2, interval := 1 } [] (-3) 1
  have hheaded : Headed { pose := ⟨⟨0, 0⟩, 1⟩, count := 2, interval := 1 } := by decide
  obtain ⟨s, hs⟩ := hstart hheaded
  obtain ⟨hreach, hend⟩ := hrun s hs
  obtain ⟨states, last, hstates, hlast, hover⟩ := hend hheaded [[some .wait]] (by decide)
  have hexact := (hreach last (.of_statesAfter hstates (List.mem_of_getLast? hlast))).1
  refine ⟨s, states, last, hs, hstates, hlast, hexact, hover, ?_⟩
  cases hs
  cases hstates
  cases hlast
  rfl

end Simulation

end RobotPuzzle
