/-
  Recording a run and driving it again.

  A tick depends on nothing but the state and the actions, so the first state and the actions of every
  tick are a complete recording: one more recorded tick is one more state of the replay
  (`Recorder.orders_step`, `statesAfter_append`).
-/
import RobotPuzzle.Simulation.Tick

namespace RobotPuzzle

namespace Simulation

/-- The actions of one tick. -/
abbrev Orders := List (Option Action)

/-- The states behind a first state, one for every tick. -/
def statesAfter (s : State) : List Orders → Except Fault (List State)
  | [] => .ok []
  | actions :: rest => do
    let t ← tick s actions
    let others ← statesAfter t rest
    pure (t :: others)

/-- The first state and every state behind it. -/
def replay (s : State) (log : List Orders) : Except Fault (List State) :=
  (statesAfter s log).map (s :: ·)

/-- A run that is being recorded: the first state, the present one, and the actions so far, last
first. -/
structure Recorder where
  /-- where a replay begins -/
  first : State
  /-- where the recorded run is now -/
  present : State
  /-- one entry for each tick -/
  log : List Orders := []

/-- Starts to record. -/
def Recorder.ofState (s : State) : Recorder := { first := s, present := s }

/-- Records the actions and makes the tick. -/
def Recorder.step (r : Recorder) (actions : Orders) : Except Fault Recorder := do
  let t ← tick r.present actions
  pure { r with present := t, log := actions :: r.log }

/-- The actions recorded, first tick first. -/
def Recorder.orders (r : Recorder) : List Orders := r.log.reverse

theorem Recorder.orders_step {r next : Recorder} {actions : Orders} (h : r.step actions = .ok next) :
    next.orders = r.orders ++ [actions] := by
  unfold Recorder.step at h
  cases ht : tick r.present actions with
  | error e => simp [ht, bind, Except.bind] at h
  | ok t =>
    simp only [ht, bind, Except.bind, pure, Except.pure, Except.ok.injEq] at h
    simp [← h, Recorder.orders]

theorem statesAfter_append (s : State) (log : List Orders) (actions : Orders) {states : List State}
    {t : State} (h : statesAfter s log = .ok states)
    (ht : tick ((s :: states).getLast (by simp)) actions = .ok t) :
    statesAfter s (log ++ [actions]) = .ok (states ++ [t]) := by
  induction log generalizing s states with
  | nil =>
    simp only [statesAfter, Except.ok.injEq] at h
    subst h
    simp only [List.getLast_singleton] at ht
    simp [statesAfter, ht, bind, Except.bind, pure, Except.pure]
  | cons first rest ih =>
    simp only [statesAfter, bind, Except.bind] at h
    cases hu : tick s first with
    | error e => simp [hu] at h
    | ok u =>
      simp only [hu] at h
      cases hs : statesAfter u rest with
      | error e => simp [hs] at h
      | ok more =>
        simp only [hs, pure, Except.pure, Except.ok.injEq] at h
        subst h
        have := ih u hs (by simpa using ht)
        simp [statesAfter, hu, this, bind, Except.bind, pure, Except.pure]

/-- The recording as JSON. -/
def Recorder.toJson (r : Recorder) : Json :=
  .obj [("ticks", .arr (r.orders.map fun actions =>
    .arr (actions.map (Json.ofOption fun a => .str a.name))))]

end Simulation

end RobotPuzzle
