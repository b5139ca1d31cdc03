/-
  Why a run was lost.

  1. **Nobody is left** — a run that is lost below its step limit has let in everybody, and nobody is
     active (`StatusExact`).  By the roster everybody is saved or dead then (`finished_of_lost`).
  2. **The cause** — the causes are looked at in order: the steps, the dead, the quota.  If the first two do
     not apply everybody is saved, and that is too few, since the run is lost; so the third applies and
     there is no run without a cause (`causeOf_of_lost`).
  3. **Runs** — every state of a run has an exact status and a roster, whatever the numbers of its level
     are, and so each cause says just what it stands for (`lost_because`).

  The crux is `finished_of_lost`: a run below its limit is not lost before its last robot is finished.
  That rules out the case for which there is no cause.

  `CauseExact` has a condition for each cause that names the ones before it, so that the three exclude one
  another and the order of the questions can be read off.  In the example the quota is missed and somebody
  is dead, and of the two the dead robot is named.
-/
import RobotPuzzle.Outcome
import RobotPuzzle.Proofs.Roster
import RobotPuzzle.Proofs.Verdict

namespace RobotPuzzle

namespace Simulation

/-! ## Nobody is left

  A robot that is not active is saved or dead, since a dead one is never saved; so the two counts add up
  to the entries. -/

section Lost

variable {s : State}

/-- When a run is lost below its step limit, everybody has entered and is saved or dead, and the saved are
too few. -/
theorem finished_of_lost (hroster : Roster s) (hexact : StatusExact s) (hlost : s.status = .lost)
    (hbelow : s.stepCount < s.maxSteps) :
    s.spawnedCount = max s.spawner.count 0 ∧
      (s.savedCount + s.deadCount : Int) = max s.spawner.count 0 ∧
      (s.savedCount : Int) < s.requiredSaved ∧ s.activeCount = 0 ∧ s.remainingSpawns = 0 := by
  obtain ⟨hmissed, hlimit | ⟨hactive, hnone⟩⟩ := hexact.lost hlost
  · exact absurd hlimit (Int.not_le.2 hbelow)
  · have htotal := hroster.total
    have hentered := hroster.entered_le
    have hremaining : s.spawner.count - s.spawnedCount ≤ 0 := by
      unfold State.remainingSpawns at hnone
      omega
    refine ⟨?_, ?_, hmissed, hactive, hnone⟩
    · have hsome := hroster.entered
      omega
    · rw [hactive, hnone] at htotal
      omega

/-! ## The cause

  The causes are told in an order, and a later one does not exclude that an earlier one applies; a quota
  is missed in all lost runs. -/

/-- A lost run has one of three causes: its steps have run out, or else somebody is dead, or else too few
have entered at all. -/
theorem causeOf_of_lost (hroster : Roster s) (hexact : StatusExact s) (hlost : s.status = .lost) :
    causeOf s false = some (if s.maxSteps ≤ s.stepCount then .stepLimit
      else if 0 < s.deadCount then .hazard else .quota) := by
  have hnotOver : ¬ s.status ≠ .lost := not_not.2 hlost
  rw [causeOf, if_neg hnotOver, Bool.false_or]
  by_cases hlimit : s.maxSteps ≤ s.stepCount
  · rw [if_pos (decide_eq_true hlimit), if_pos hlimit]
  · rw [if_neg (by rwa [decide_eq_true_eq]), if_neg hlimit]
    by_cases hdead : 0 < s.deadCount
    · rw [if_pos hdead, if_pos hdead]
    · -- nobody is dead, so what is left of the order is the quota
      obtain ⟨-, -, hmissed, hactive, hnone⟩ :=
        finished_of_lost hroster hexact hlost (Int.not_le.1 hlimit)
      rw [if_neg hdead, if_neg hdead, if_pos ⟨hmissed, hactive, hnone⟩]

/-- What the causes of a lost run stand for. -/
structure CauseExact (s : State) : Prop where
  /-- there is a cause, and it is known -/
  known : ∃ cause, causeOf s false = some cause ∧ cause ≠ .unknown
  /-- the steps have run out -/
  stepLimit : causeOf s false = some .stepLimit ↔ s.maxSteps ≤ s.stepCount
  /-- they have not, and somebody is dead -/
  hazard : causeOf s false = some .hazard ↔
    s.stepCount < s.maxSteps ∧ ∃ r ∈ s.robots, r.alive = false
  /-- everybody who was to enter has entered and is saved, and that is too few -/
  quota : causeOf s false = some .quota ↔ s.stepCount < s.maxSteps ∧
    s.spawnedCount = max s.spawner.count 0 ∧ (s.savedCount : Int) = max s.spawner.count 0 ∧
    max s.spawner.count 0 < s.requiredSaved

theorem deadCount_pos_iff : 0 < s.deadCount ↔ ∃ r ∈ s.robots, r.alive = false := by
  unfold State.deadCount
  rw [List.countP_pos_iff]
  simp only [Bool.not_eq_true']

/-- Each cause is the one that is told exactly if what it stands for is so.  There are three cases, as in
`causeOf_of_lost`; in each of them one equivalence holds on both sides and the others fail on both. -/
theorem causeExact_of_lost (hroster : Roster s) (hexact : StatusExact s) (hlost : s.status = .lost) :
    CauseExact s := by
  have hcause := causeOf_of_lost hroster hexact hlost
  by_cases hbelow : s.stepCount < s.maxSteps
  · obtain ⟨hentered, htotal, hmissed, -, -⟩ := finished_of_lost hroster hexact hlost hbelow
    have hlimit := Int.not_le.2 hbelow
    rw [if_neg hlimit] at hcause
    by_cases hdead : 0 < s.deadCount
    · rw [if_pos hdead] at hcause
      refine ⟨⟨_, hcause, FailureCause.noConfusion⟩, ?_, ?_, ?_⟩
      · rw [hcause]
        exact ⟨fun h => (nomatch h), fun h => absurd h hlimit⟩
      · rw [hcause, ← deadCount_pos_iff]
        exact ⟨fun _ => ⟨hbelow, hdead⟩, fun _ => rfl⟩
      · rw [hcause]
        refine ⟨fun h => (nomatch h), ?_⟩
        -- the dead are missing among the saved
        rintro ⟨-, -, hsaved, -⟩
        omega
    · rw [if_neg hdead] at hcause
      refine ⟨⟨_, hcause, FailureCause.noConfusion⟩, ?_, ?_, ?_⟩
      · rw [hcause]
        exact ⟨fun h => (nomatch h), fun h => absurd h hlimit⟩
      · rw [hcause, ← deadCount_pos_iff]
        exact ⟨fun h => (nomatch h), fun h => absurd h.2 hdead⟩
      · rw [hcause]
        exact ⟨fun _ => ⟨hbelow, hentered, by omega, by omega⟩, fun _ => rfl⟩
  · have hlimit := Int.not_lt.1 hbelow
    rw [if_pos hlimit] at hcause
    refine ⟨⟨_, hcause, FailureCause.noConfusion⟩, ?_, ?_, ?_⟩
    · rw [hcause]
      exact ⟨fun _ => hlimit, fun _ => rfl⟩
    · rw [hcause]
      exact ⟨fun h => (nomatch h), fun h => absurd h.1 hbelow⟩
    · rw [hcause]
      exact ⟨fun h => (nomatch h), fun h => absurd h.1 hbelow⟩

end Lost

/-! ## Runs -/

/-- **Why a run was lost.**  In every state of every run that ticks have lost, there is a cause.  It is the
step limit exactly if the steps have run out; else it is a hazard exactly if somebody is dead, and the
quota exactly if everybody who was to enter is saved and that is less than the quota. -/
theorem lost_because {grid : Grid} {spawner : Spawner} {exits : List Cell}
    {maxSteps requiredSaved : Int} {s t : State}
    (h : start grid spawner exits maxSteps requiredSaved = .ok s) (ht : Reaches s t)
    (hlost : t.status = .lost) : CauseExact t :=
  causeExact_of_lost (ht.invariant (P := Roster) roster_tick (roster_start h))
    (ht.invariant (P := StatusExact) statusExact_tick (statusExact_start h).1) hlost

/-- Of two robots that both are to be saved one reaches the exit, and the other one turns off into a hazard.
The quota is missed as well, but the cause is the hazard. -/
theorem lost_because_hazard :
    ∃ s t u, start ⟨[[.empty, .goal], [.hazard, .wall]]⟩ { pose := ⟨⟨0, 0⟩, 1⟩, count := 2 }
        [⟨1, 0⟩] 9 2 = .ok s ∧
      tick s [some .moveForward, some .turnRight] = .ok t ∧ tick t [none, some .moveForward] = .ok u ∧
      u.status = .lost ∧ u.stepCount = 2 ∧ u.robots.map Robot.status = ["saved", "dead"] ∧
      causeOf u false = some .hazard ∧ CauseExact u := by
  obtain ⟨s, t, u, hs, ht, hu, hlost, hsteps, hlimit, hends⟩ : ∃ s t u,
      start ⟨[[.empty, .goal], [.hazard, .wall]]⟩ { pose := ⟨⟨0, 0⟩, 1⟩, count := 2 }
        [⟨1, 0⟩] 9 2 = .ok s ∧
      tick s [some .moveForward, some .turnRight] = .ok t ∧ tick t [none, some .moveForward] = .ok u ∧
      u.status = .lost ∧ u.stepCount = 2 ∧ u.maxSteps = 9 ∧
      u.robots.map (fun r => (r.status, r.alive)) = [("saved", true), ("dead", false)] :=
    ⟨_, _, _, rfl, rfl, rfl, rfl, rfl, rfl, rfl⟩
  have hexact := lost_because hs (.tick (.tick .here ht) hu) hlost
  -- the robot that is named dead is dead
  have hdead : ∃ r ∈ u.robots, r.alive = false := by
    have hmem : ("dead", false) ∈ u.robots.map (fun r => (r.status, r.alive)) := by
      rw [hends]
      exact List.mem_cons_of_mem _ List.mem_cons_self
    obtain ⟨r, hr, hboth⟩ := List.mem_map.1 hmem
    exact ⟨r, hr, (Prod.mk.inj hboth).2⟩
  have hnames : u.robots.map Robot.status = ["saved", "dead"] := by
    have hfirst := congrArg (List.map Prod.fst) hends
    rwa [List.map_map] at hfirst
  refine ⟨s, t, u, hs, ht, hu, hlost, hsteps, hnames, hexact.hazard.2 ⟨?_, hdead⟩, hexact⟩
  rw [hsteps, hlimit]
  decide

end Simulation

end RobotPuzzle
