/-
  Robots enter on schedule, and a robot that is kept waiting does not shift the schedule.

  1. **One tick** — a robot enters in a tick exactly if one is left, its time has come and its cell is free
     (`Opens`).  It is the one robot of the next index, and in any other tick nobody enters
     (`tick_admits`).
  2. **The schedule** — the time of the next robot is one interval for every robot that has entered, counted
     from the start of the run and not from the last entry (`OnSchedule.next`).  So nobody is on the
     board before its time (`OnSchedule.not_onBoard`).
  3. **Arrears** — robots that are overdue enter one in a tick while their cells are free
     (`catchesUp_of_onSchedule`).
  4. **Punctuality** — where nobody is overdue, a robot enters when it is due if those up to it find their
     cells free when they are due (`statesAfter_punctual`); what has been before does not matter.

  The crux is the invariant `next`: the time of the next robot depends on how many have entered, and not
  on when they have.  What is late stays late only as long as cells are taken, for the times that follow
  do not move.

  The statement goes from one tick to many.  `Admits` is what a tick does to the schedule; `CatchesUp` is
  about a run with robots overdue, and `Punctual` about one without.  Since a run may be delayed, caught
  up, and delayed again, the last two are stated for any state from which the cells are free, and not for
  the start alone.
-/
import RobotPuzzle.Proofs.Roster
import RobotPuzzle.Proofs.Verdict

namespace RobotPuzzle

namespace Simulation

/-! ## One tick

  A tick makes up its mind about the entry before anybody acts, so only the state before it counts. -/

/-- No blocking robot stands where the robot with that index enters. -/
def Free (s : State) (index : Nat) : Prop :=
  ∀ r ∈ s.robots, r.blocking = true → r.cell ≠ (s.spawner.poseOf index).cell

instance (s : State) (index : Nat) : Decidable (Free s index) :=
  inferInstanceAs (Decidable (∀ r ∈ s.robots, _))

/-- A cell is free to enter if it is not on the list of occupied cells. -/
theorem free_iff {s : State} {index : Nat} :
    Free s index ↔ (s.spawner.poseOf index).cell ∉ occupiedCells s.robots := by
  rw [mem_occupiedCells]
  exact ⟨fun h ⟨r, hr, hb, hc⟩ => h r hr hb hc, fun h r hr hb hc => h ⟨r, hr, hb, hc⟩⟩

/-- A robot can enter: one is left, its time has come, and its cell is free. -/
structure Opens (s : State) : Prop where
  /-- the count is not reached -/
  left : s.spawnedCount < s.spawner.count
  /-- the tick of the next entry has come -/
  due : ∃ tick, s.nextSpawnTick = some tick ∧ tick ≤ s.stepCount
  /-- nobody in the way stands on the cell of that robot -/
  free : Free s s.spawnedCount.toNat

theorem spawnDue_iff {s : State} (hinterval : 0 < s.spawner.interval) :
    spawnDue s = true ↔ s.spawnedCount < s.spawner.count ∧
      ∃ tick, s.nextSpawnTick = some tick ∧ tick ≤ s.stepCount := by
  unfold spawnDue
  cases s.nextSpawnTick with
  | none => simp
  | some tick => simp [hinterval]

theorem entering?_of_opens {s : State} (hinterval : 0 < s.spawner.interval) (h : Opens s) :
    entering? s = some s.spawnedCount.toNat := by
  have hdue := (spawnDue_iff hinterval).2 ⟨h.left, h.due⟩
  have hfree := free_iff.1 h.free
  simp [entering?, hdue, hfree]

/-- Only then does the tick let anybody in, and it is the next one. -/
theorem opens_of_entering? {s : State} {index : Nat} (hinterval : 0 < s.spawner.interval)
    (h : entering? s = some index) : index = s.spawnedCount.toNat ∧ Opens s := by
  obtain ⟨rfl, hdue, hfree⟩ := entering?_cases h
  obtain ⟨hleft, htime⟩ := (spawnDue_iff hinterval).1 hdue
  exact ⟨rfl, hleft, htime, free_iff.2 hfree⟩

/-- Who enters in a tick: the next robot, behind the others, or nobody. -/
structure Admits (s t : State) : Prop where
  /-- the list grows exactly if a robot can enter -/
  grows : s.robots.length < t.robots.length ↔ Opens s
  /-- then it is the next one, and the one after it is due an interval later -/
  one : Opens s → ∃ r, enter s.spawner s.spawnedCount.toNat = .ok r ∧
    Continue (Raft.haul s.rafts t.rafts) (s.robots ++ [r]) t.robots ∧
    t.spawnedCount = s.spawnedCount + 1 ∧
    t.nextSpawnTick = s.nextSpawnTick.map (· + s.spawner.interval)
  /-- otherwise the schedule stays as it is -/
  nobody : ¬ Opens s → Continue (Raft.haul s.rafts t.rafts) s.robots t.robots ∧
    t.spawnedCount = s.spawnedCount ∧ t.nextSpawnTick = s.nextSpawnTick

/-- **One tick** lets in whom it can, and tells the robots that were there apart from the one that enters
by their places: whatever happens to them in the tick, they stay in front. -/
theorem tick_admits {s t : State} {actions : List (Option Action)}
    (hinterval : 0 < s.spawner.interval) (hrun : s.status = .running)
    (h : tick s actions = .ok t) : Admits s t := by
  obtain ⟨entry, grid, ferried, rafts, hspawn, hferry, rfl⟩ := tick_eq_settle hrun h
  have hcontinue := settle_continues hferry
  have hlen := hcontinue.length_eq
  rcases spawnPhase_cases hspawn with ⟨hnone, rfl⟩ | ⟨index, r, hin, henter, rfl⟩
  · -- nobody has entered, so the door was closed
    have hclosed : ¬ Opens s := fun ho => by
      rw [entering?_of_opens hinterval ho] at hnone
      cases hnone
    refine ⟨⟨fun hgrows => ?_, fun ho => absurd ho hclosed⟩, fun ho => absurd ho hclosed,
      fun _ => ⟨hcontinue, rfl, rfl⟩⟩
    exact absurd hlen (Nat.ne_of_lt hgrows)
  · -- the one that has entered is the next by number
    obtain ⟨rfl, hopens⟩ := opens_of_entering? hinterval hin
    refine ⟨⟨fun _ => hopens, fun _ => ?_⟩, fun _ => ⟨r, henter, hcontinue, rfl, rfl⟩,
      fun hclosed => absurd hopens hclosed⟩
    show s.robots.length < (ferried.map (markExit grid s.exits)).length
    rw [← hlen, List.length_append, List.length_singleton]
    exact Nat.lt_succ_self _

theorem Admits.spawnedCount_le {s t : State} (h : Admits s t) :
    s.spawnedCount ≤ t.spawnedCount := by
  by_cases hopens : Opens s
  · obtain ⟨r, -, -, hcount, -⟩ := h.one hopens
    omega
  · exact Int.le_of_eq (h.nobody hopens).2.1.symm

/-! ## The schedule

  `last` is there for a single purpose: it says that the last robot has not entered before its time, which
  `next` alone does not. -/

/-- A run whose robots enter one after the other, at one of its states. -/
structure OnSchedule (s : State) : Prop where
  /-- the books are right -/
  roster : Roster s
  /-- robots do not all enter at the start -/
  interval : 0 < s.spawner.interval
  /-- the first one has entered -/
  begun : 1 ≤ s.spawnedCount
  /-- the time of the next robot -/
  next : s.nextSpawnTick = some (s.spawner.interval * s.spawnedCount)
  /-- the time of the last robot is over, unless it has entered at the start -/
  last : s.spawnedCount = 1 ∨ s.spawner.interval * (s.spawnedCount - 1) < s.stepCount

/-- A run of this kind starts with one robot on the board, and the next one is due after an interval. -/
theorem onSchedule_start {grid : Grid} {spawner : Spawner} {exits : List Cell}
    {maxSteps requiredSaved : Int} {s : State}
    (h : start grid spawner exits maxSteps requiredSaved = .ok s) (hcount : 1 ≤ spawner.count)
    (hinterval : 1 ≤ spawner.interval) : OnSchedule s := by
  have hroster := roster_start h
  obtain ⟨entered, hs⟩ := start_cases h
  have hone : initialCount spawner = 1 := by
    rw [initialCount, if_neg (by omega), if_neg (by omega)]
  have hfirst : firstSpawnTick spawner = some spawner.interval := by
    rw [firstSpawnTick, decide_eq_false (by omega : ¬ spawner.count ≤ 0),
      decide_eq_false (by omega : ¬ spawner.interval ≤ 0)]
    rfl
  rw [hs.state, hone, hfirst] at hroster ⊢
  exact ⟨hroster, hinterval, Int.le_refl 1, by rw [Int.natCast_one, Int.mul_one], Or.inl rfl⟩

/-- Every tick keeps the schedule.  If somebody enters, both the count and the time go up by one step;
otherwise both stay, and the steps only grow. -/
theorem onSchedule_tick {s t : State} {actions : List (Option Action)} (hs : OnSchedule s)
    (h : tick s actions = .ok t) : OnSchedule t := by
  by_cases hrun : s.status = .running
  · have hroster := roster_tick hs.roster h
    have hspawner := (sameRules_tick h).spawner
    have hsteps := tick_stepCount hrun h
    have hadmits := tick_admits hs.interval hrun h
    have hbegun := hs.begun
    by_cases hopens : Opens s
    · obtain ⟨r, -, -, hcount, hnext⟩ := hadmits.one hopens
      obtain ⟨time, htime, hdue⟩ := hopens.due
      -- what was the time of the next robot is now that of the last one
      rw [hs.next] at htime hnext
      cases htime
      refine ⟨hroster, by rw [hspawner]; exact hs.interval, by omega, ?_, Or.inr ?_⟩
      · rw [hnext, hspawner, hcount, Int.mul_add, Int.mul_one]
        rfl
      · rw [hspawner, hcount, hsteps, Int.add_sub_cancel]
        exact Int.lt_add_one_of_le hdue
    · obtain ⟨-, hcount, hnext⟩ := hadmits.nobody hopens
      refine ⟨hroster, by rw [hspawner]; exact hs.interval, by omega, ?_, ?_⟩
      · rw [hnext, hspawner, hcount, hs.next]
      · rw [hspawner, hcount, hsteps]
        exact hs.last.imp_right fun hlast => Int.lt_trans hlast (Int.lt_succ _)
  · rw [tick_of_not_running hrun] at h
    cases h
    exact hs

/-- The robot with that index has entered and is still listed. -/
def OnBoard (s : State) (index : Nat) : Prop :=
  ∃ r, s.robots[index]? = some r ∧ r.id = robotName index

/-- Robots are listed in the order of their entry, and nobody is ever taken off the list. -/
theorem Roster.onBoard_iff {s : State} (h : Roster s) {index : Nat} :
    OnBoard s index ↔ (index : Int) < s.spawnedCount := by
  rw [← h.entered, Int.ofNat_lt]
  constructor
  · rintro ⟨r, hr, -⟩
    exact (List.getElem?_eq_some_iff.1 hr).1
  · intro hi
    exact ⟨s.robots[index], List.getElem?_eq_getElem hi, h.names _ _ (List.getElem?_eq_getElem hi)⟩

namespace OnSchedule

variable {s t : State} {actions : List (Option Action)}

/-- A robot can enter if one is left, `interval` ticks have gone by for everybody who has entered, and its
cell is free. -/
theorem opens (h : OnSchedule s) (hleft : s.spawnedCount < s.spawner.count)
    (hdue : s.spawner.interval * s.spawnedCount ≤ s.stepCount) (hfree : Free s s.robots.length) :
    Opens s := by
  have hindex : s.spawnedCount.toNat = s.robots.length := by
    have := h.roster.entered
    omega
  exact ⟨hleft, ⟨_, h.next, hdue⟩, by rw [hindex]; exact hfree⟩

/-- A robot that can enter does. -/
theorem enters (h : OnSchedule s) (hrun : s.status = .running) (ht : tick s actions = .ok t)
    (hopens : Opens s) :
    t.spawnedCount = s.spawnedCount + 1 ∧ t.robots.length = s.robots.length + 1 := by
  obtain ⟨r, -, -, hcount, -⟩ := (tick_admits h.interval hrun ht).one hopens
  have hbefore := h.roster.entered
  have hafter := (roster_tick h.roster ht).entered
  omega

/-- The count of entries never goes down, nor does it once the run is over. -/
theorem spawnedCount_le (h : OnSchedule s) (ht : tick s actions = .ok t) :
    s.spawnedCount ≤ t.spawnedCount := by
  by_cases hrun : s.status = .running
  · exact (tick_admits h.interval hrun ht).spawnedCount_le
  · rw [tick_of_not_running hrun] at ht
    cases ht
    exact Int.le_refl _

/-- Nobody but the first is on the board before its time is over. -/
theorem not_onBoard (h : OnSchedule s) {index : Nat} (hindex : 1 ≤ index)
    (hsteps : s.stepCount ≤ s.spawner.interval * index) : ¬ OnBoard s index := by
  rw [h.roster.onBoard_iff]
  intro hentered
  rcases h.last with hone | hlast
  · omega
  · have hbefore := Int.lt_of_mul_lt_mul_left (Int.lt_of_lt_of_le hlast hsteps) (Int.le_of_lt h.interval)
    omega

end OnSchedule

/-! ## Arrears

  A robot that is overdue needs nothing but a free cell.  In each tick one of them enters, and as many as
  are left are still overdue after it, by one less. -/

/-- At least that many robots have had their time and have not entered. -/
def Overdue (s : State) (count : Nat) : Prop :=
  s.spawnedCount + count ≤ s.spawner.count ∧
    s.spawner.interval * (s.spawnedCount + count - 1) ≤ s.stepCount

instance (s : State) (count : Nat) : Decidable (Overdue s count) :=
  inferInstanceAs (Decidable (_ ∧ _))

/-- Robots that are overdue enter one in a tick, while the run is running and finds their cells free. -/
def CatchesUp (s : State) : Prop :=
  ∀ (log : List Orders) (states : List State), statesAfter s log = .ok states →
    Overdue s log.length →
    (∀ (i : Nat) (t : State), i < log.length → (s :: states)[i]? = some t →
      t.status = .running ∧ Free t (s.robots.length + i)) →
    ∀ (i : Nat) (t : State), (s :: states)[i]? = some t → t.robots.length = s.robots.length + i

/-- By induction on the ticks.  After the first one, one more robot has entered and the others are overdue
still, in the state that this tick has led to. -/
theorem catchesUp_of_onSchedule {s : State} (hs : OnSchedule s) : CatchesUp s := by
  intro log
  induction log generalizing s with
  | nil =>
    intro states h _ _ i t ht
    cases h
    rw [List.getElem?_singleton] at ht
    split at ht
    · rename_i hfirst
      cases ht
      rw [hfirst, Nat.add_zero]
    · cases ht
  | cons orders rest ih =>
    intro states h hover hfree i t ht
    obtain ⟨u, others, hu, hothers, rfl⟩ := statesAfter_cons_cases h
    obtain ⟨hleft, hdue⟩ := hover
    rw [List.length_cons] at hleft hdue
    obtain ⟨hrun, hhere⟩ := hfree 0 s (Nat.succ_pos _) rfl
    -- the first of them has had its time before the last of them
    have htime : s.spawner.interval * s.spawnedCount ≤ s.stepCount :=
      Int.le_trans (Int.mul_le_mul_of_nonneg_left (by omega) (Int.le_of_lt hs.interval)) hdue
    obtain ⟨hcount, hlen⟩ := hs.enters hrun hu (hs.opens (by omega) htime hhere)
    cases i with
    | zero =>
      cases ht
      rfl
    | succ i =>
      have hspawner := (sameRules_tick hu).spawner
      have hsteps := tick_stepCount hrun hu
      have hlater : Overdue u rest.length := by
        refine ⟨by rw [hspawner]; omega, ?_⟩
        rw [hspawner, hcount, hsteps,
          show s.spawnedCount + 1 + (rest.length : Int) - 1
            = s.spawnedCount + ((rest.length + 1 : Nat) : Int) - 1 by omega]
        omega
      have hnext := ih (onSchedule_tick hs hu) others hothers hlater (fun j v hj hv => ?_) i t ht
      · rw [hnext, hlen]
        omega
      · -- the index of a state and the number of robots have both gone up by one
        have hone := hfree (j + 1) v (by rw [List.length_cons]; omega) hv
        rw [hlen, Nat.add_assoc, Nat.add_comm 1 j]
        exact hone

/-! ## Punctuality

  Nothing is assumed about robots from before `first`: they may have been late.  What matters is that the
  run is not behind when the robot `first` comes due, for from there on everybody enters in the very tick
  of its time. -/

/-- Of the robots from `first` to `last`, all have entered whose time is over. -/
structure OnTime (first last : Nat) (s : State) : Prop where
  /-- the run keeps its schedule -/
  schedule : OnSchedule s
  /-- the robots before `first` have entered -/
  first_le : (first : Int) ≤ s.spawnedCount
  /-- `last` is a robot of the spawner -/
  last_lt : (last : Int) < s.spawner.count
  /-- and nobody from there on is late -/
  entered : ∀ j : Nat, first ≤ j → j ≤ last → s.spawner.interval * j < s.stepCount →
    (j : Int) < s.spawnedCount

/-- The robots from `first` to `last` find their cells free when they are due. -/
def FreeInTime (first last : Nat) (s : State) : Prop :=
  s.status = .running → ∀ j : Nat, first ≤ j → j ≤ last →
    s.stepCount = s.spawner.interval * j → Free s j

/-- The robot with that index enters when it is due, if it and those before it, from `first` on, find
their cells free when they are due. -/
def Punctual (s : State) (first index : Nat) : Prop :=
  ∀ (log : List Orders) (states : List State), statesAfter s log = .ok states →
    (∀ t ∈ s :: states, FreeInTime first index t) →
    ∀ t ∈ s :: states, (OnBoard t index ↔ t.spawner.interval * index + 1 ≤ t.stepCount) ∧
      (t.status = .running → t.stepCount = t.spawner.interval * index →
        ∀ actions u, tick t actions = .ok u →
          u.stepCount = t.spawner.interval * index + 1 ∧ OnBoard u index)

section OnTime

variable {first last : Nat} {s t : State} {actions : List (Option Action)}

/-- Whoever is due finds that those before it have entered. -/
theorem OnTime.le_spawnedCount (h : OnTime first last s) {j : Nat} (hfirst : first ≤ j)
    (hlast : j ≤ last) (hnow : s.spawner.interval * j ≤ s.stepCount) :
    (j : Int) ≤ s.spawnedCount := by
  rcases Nat.eq_or_lt_of_le hfirst with rfl | hlater
  · exact h.first_le
  · have hover : s.spawner.interval * (j - 1 : Nat) < s.spawner.interval * j :=
      Int.mul_lt_mul_of_pos_left (by omega) h.schedule.interval
    have hprevious := h.entered (j - 1) (by omega) (by omega) (Int.lt_of_lt_of_le hover hnow)
    omega

/-- Who is on time stays on time. -/
theorem onTime_tick (h : OnTime first last s) (hfree : FreeInTime first last s)
    (ht : tick s actions = .ok t) : OnTime first last t := by
  by_cases hrun : s.status = .running
  · have hspawner := (sameRules_tick ht).spawner
    have hle := h.schedule.spawnedCount_le ht
    refine ⟨onSchedule_tick h.schedule ht, Int.le_trans h.first_le hle,
      by rw [hspawner]; exact h.last_lt, fun j hj hjlast hover => ?_⟩
    rw [hspawner, tick_stepCount hrun ht] at hover
    rcases Int.lt_or_eq_of_le (Int.le_of_lt_add_one hover) with hbefore | hnow
    · exact Int.lt_of_lt_of_le (h.entered j hj hjlast hbefore) hle
    · rcases Int.lt_or_eq_of_le (h.le_spawnedCount hj hjlast (Int.le_of_eq hnow)) with hin | hnext
      · exact Int.lt_of_lt_of_le hin hle
      · -- the robot is the next one, and is due now
        have hindex : s.robots.length = j := by
          have := h.schedule.roster.entered
          omega
        have hlast := h.last_lt
        have hopens := h.schedule.opens (by omega) (by rw [← hnext]; exact Int.le_of_eq hnow)
          (by rw [hindex]; exact hfree hrun j hj hjlast hnow.symm)
        have hcount := (h.schedule.enters hrun ht hopens).1
        omega
  · rw [tick_of_not_running hrun] at ht
    cases ht
    exact h

/-- Who is on time stays so through all states of a run. -/
theorem statesAfter_onTime :
    ∀ (log : List Orders) {s : State} {states : List State}, OnTime first last s →
      statesAfter s log = .ok states → (∀ t ∈ s :: states, FreeInTime first last t) →
      ∀ t ∈ s :: states, OnTime first last t := by
  intro log
  induction log with
  | nil =>
    intro s states hs h _ t ht
    cases h
    rw [List.mem_singleton] at ht
    rw [ht]
    exact hs
  | cons orders rest ih =>
    intro s states hs h hfree
    obtain ⟨u, others, hu, hothers, rfl⟩ := statesAfter_cons_cases h
    -- the first tick keeps everybody on time, and so does the rest of the log
    obtain ⟨hhere, hlater⟩ := List.forall_mem_cons.1 hfree
    exact List.forall_mem_cons.2 ⟨hs, ih (onTime_tick hs hhere hu) hothers hlater⟩

/-- Where nobody is overdue, the robots still to enter are punctual. -/
theorem statesAfter_punctual {index : Nat} (hs : OnSchedule s)
    (hbefore : s.stepCount ≤ s.spawner.interval * s.robots.length)
    (hnext : s.robots.length ≤ index) (hleft : (index : Int) < s.spawner.count) :
    Punctual s s.robots.length index := by
  intro log states h hfree t ht
  have hentered := hs.roster.entered
  have hbegun := hs.begun
  have hstart : OnTime s.robots.length index s := by
    refine ⟨hs, Int.le_of_eq hentered, hleft, fun j hj _ hover => ?_⟩
    -- none of the robots still to enter is due before the time of this state
    have hearly := Int.lt_of_mul_lt_mul_left (Int.lt_of_lt_of_le hover hbefore)
      (Int.le_of_lt hs.interval)
    omega
  have htime := statesAfter_onTime log hstart h hfree t ht
  refine ⟨⟨fun hboard => ?_, fun hover => ?_⟩, fun hrun hnow actions u hu => ?_⟩
  · -- too early it is not on the board, and from its time on it is
    by_contra hearly
    exact htime.schedule.not_onBoard (by omega) (by omega) hboard
  · rw [htime.schedule.roster.onBoard_iff]
    exact htime.entered index hnext (Nat.le_refl _) hover
  · have hsteps := tick_stepCount hrun hu
    have hlater := onTime_tick htime (hfree t ht) hu
    refine ⟨by omega, ?_⟩
    rw [hlater.schedule.roster.onBoard_iff]
    refine hlater.entered index hnext (Nat.le_refl _) ?_
    rw [(sameRules_tick hu).spawner]
    omega

end OnTime

/-- **Robots enter on schedule.**  The robots of a spawner with an interval enter one after the other, and
in every state of every run the time of the next one is one interval for each that has entered.  Nobody
but the first is on the board before its time is over; a tick of a running state lets exactly one robot
in, the next one, if one is left, its time has come and its cell is free, and otherwise nobody; and with
headings the tick goes through.  Robots that are overdue enter one in a tick, and once nobody is overdue
the robots still to enter are as punctual as those of a run without delays. -/
theorem reaches_schedule {grid : Grid} {spawner : Spawner} {exits : List Cell}
    {maxSteps requiredSaved : Int} {s : State}
    (h : start grid spawner exits maxSteps requiredSaved = .ok s) (hcount : 1 ≤ spawner.count)
    (hinterval : 1 ≤ spawner.interval) :
    (∀ t, Reaches s t → t.spawner = spawner ∧
      t.nextSpawnTick = some (spawner.interval * t.spawnedCount) ∧
      (∀ k : Nat, 1 ≤ k → t.stepCount ≤ spawner.interval * k → ¬ OnBoard t k) ∧
      (t.status = .running → ∀ actions,
        (∀ u, tick t actions = .ok u → Admits t u) ∧
        (Headed spawner → ∃ u, tick t actions = .ok u)) ∧
      CatchesUp t ∧
      (t.stepCount ≤ spawner.interval * t.robots.length → ∀ k : Nat, t.robots.length ≤ k →
        k < spawner.count → Punctual t t.robots.length k)) ∧
    ∀ k : Nat, 1 ≤ k → k < spawner.count → Punctual s 1 k := by
  have hstart := onSchedule_start h hcount hinterval
  obtain ⟨hafloat, -⟩ := afloat_start h
  have hzero : s.stepCount = 0 := (statusExact_start h).2
  have hspawner : s.spawner = spawner := by
    obtain ⟨entered, hstarted⟩ := start_cases h
    rw [hstarted.state]
  -- with an interval one robot enters at the start, whatever the count
  have hone : s.robots.length = 1 := by
    have hentered := hstart.roster.entered
    rcases hstart.last with hfirst | hlast
    · omega
    · have hbegun := hstart.begun
      have hnonneg := Int.mul_nonneg (Int.le_of_lt hstart.interval)
        (show 0 ≤ s.spawnedCount - 1 by omega)
      omega
  refine ⟨fun t ht => ?_, fun k hk hleft => ?_⟩
  · have hsame : t.spawner = spawner := ht.sameRules.spawner.trans hspawner
    have hsched := ht.invariant (P := OnSchedule) onSchedule_tick hstart
    refine ⟨hsame, by rw [hsched.next, hsame], fun k hk hearly => ?_, fun hrun actions => ⟨?_, ?_⟩,
      catchesUp_of_onSchedule hsched, fun hbefore k hk hleft => ?_⟩
    · refine hsched.not_onBoard hk ?_
      rw [hsame]
      exact hearly
    · intro u hu
      exact tick_admits hsched.interval hrun hu
    · intro hheaded
      rw [← hspawner] at hheaded
      exact reaches_ok hafloat hheaded ht actions
    · rw [← hsame] at hbefore hleft
      exact statesAfter_punctual hsched hbefore hk hleft
  · rw [← hspawner] at hleft
    rw [← hone]
    refine statesAfter_punctual hstart ?_ (by omega) hleft
    rw [hzero, hone, hspawner]
    omega

/-- The first robot stays on the entry cell for a tick too long, so the second is kept waiting; it enters
one tick late, and the third right behind it. -/
theorem reaches_schedule_deferred :
    ∃ s r t states, start ⟨[[.empty, .empty, .empty]]⟩
        { pose := ⟨⟨0, 0⟩, 1⟩, count := 3, interval := 1 } [] 9 3 = .ok s ∧
      tick s [some .wait] = .ok r ∧ tick r [some .moveForward] = .ok t ∧
      statesAfter t [[some .moveForward, some .moveForward], []] = .ok states ∧
      r.stepCount = 1 ∧ ¬ Free r 1 ∧ Overdue t 2 ∧ ¬ OnBoard t 2 ∧
      ∀ (i : Nat) (u : State), (t :: states)[i]? = some u → u.robots.length = 1 + i := by
  obtain ⟨s, r, t, states, hs, hr, ht, hstates, hsteps, hwait, hover, hnow, hlen, hway⟩ :
      ∃ s r t states, start ⟨[[.empty, .empty, .empty]]⟩
        { pose := ⟨⟨0, 0⟩, 1⟩, count := 3, interval := 1 } [] 9 3 = .ok s ∧
      tick s [some .wait] = .ok r ∧ tick r [some .moveForward] = .ok t ∧
      statesAfter t [[some .moveForward, some .moveForward], []] = .ok states ∧
      r.stepCount = 1 ∧ ¬ Free r 1 ∧ Overdue t 2 ∧ t.stepCount = 2 ∧ t.robots.length = 1 ∧
      ∀ i < 2, ∀ u, (t :: states)[i]? = some u → u.status = .running ∧ Free u (1 + i) := by
    refine ⟨_, _, _, _, rfl, rfl, rfl, rfl, rfl, by decide, by decide, rfl, rfl, fun i hi u hu => ?_⟩
    rcases i with _ | _ | _
    · cases hu
      decide
    · cases hu
      decide
    · omega
  obtain ⟨-, -, hearly, -, hcatches, -⟩ :=
    (reaches_schedule hs (by decide) (by decide)).1 t (.tick (.tick .here hr) ht)
  -- from there one robot enters in each tick
  have hfilled := hcatches _ states hstates hover fun i u hi hu => by
    rw [hlen]
    exact hway i hi u hu
  refine ⟨s, r, t, states, hs, hr, ht, hstates, hsteps, hwait, hover, ?_, fun i u hu => ?_⟩
  · exact hearly 2 (by decide) (by rw [hnow]; decide)
  · rw [hfilled i u hu, hlen]

end Simulation

end RobotPuzzle
