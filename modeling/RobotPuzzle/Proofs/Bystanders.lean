/-
  Orders for robots that are dead or saved.

  1. **Orders** — two lists of orders are the same but for finished robots (`SameOrders`) if they agree at
     every index that is not the index of such a robot; a missing order is none.
  2. **The actions** — a finished robot does nothing, whatever it is told, and leaves the occupied cells as
     they are (`actPhase_of_finished`).  So the robots act alike under both lists (`act_of_sameOrders`).
     The signal is another matter: it is set by the last order that speaks of it, whoever gets that order
     (`actPhase_signal`).
  3. **A tick** — so all of the next state but the signal is the same, and the signal is the same exactly if
     the last words on it are (`unheeded_iff`).  A signal order for a dead robot is heard
     (`not_unheeded_signal`).

  The crux is that a turn has three effects — on the robot, on the occupied cells and on the signal — and
  that a robot which is finished is asked about before the first two but not before the third.

  So the statement is an equation between two ticks, with the signal set apart, and then the exact
  condition under which that makes no difference.  It is also what lets orders for robots that do not act
  any more be left out everywhere else.  Of the two examples the first shows orders that differ and are
  overruled, the second an order that is heard.
-/
import RobotPuzzle.Proofs.Idle

namespace RobotPuzzle

namespace Simulation

/-! ## Orders

  A list says what to do robot by robot, in the order of their indices.  So an induction along the robots
  takes the first order off both lists. -/

/-- The orders differ at most for robots that are dead or saved. -/
def SameOrders (robots : List Robot) (a b : List (Option Action)) : Prop :=
  ∀ i : Nat, (∀ r, robots[i]? = some r → r.blocking = true) → a[i]?.join = b[i]?.join

/-- The order sets the signal. -/
def signals : Option Action → Bool
  | some .signalOn => true
  | some .signalOff => true
  | _ => false

/-- The signal after an order. -/
def heard (signal : Bool) : Option Action → Bool
  | none => signal
  | some action => nextSignal signal action

/-- An order that does not set the signal leaves it. -/
theorem heard_of_not_signals {order : Option Action} (h : signals order = false) (signal : Bool) :
    heard signal order = signal := by
  cases order with
  | none => rfl
  | some action =>
    cases action with
    | signalOn => cases h
    | signalOff => cases h
    | moveForward => rfl
    | turnLeft => rfl
    | turnRight => rfl
    | wait => rfl

section SameOrders

variable {r : Robot} {rest robots : List Robot} {a b : List (Option Action)}

/-- The first robot is told the same under both lists, if it is not finished. -/
theorem SameOrders.head (h : SameOrders (r :: rest) a b) (hb : r.blocking = true) :
    a.head?.join = b.head?.join := by
  rw [List.head?_eq_getElem?, List.head?_eq_getElem?]
  refine h 0 fun q hq => ?_
  cases hq
  exact hb

theorem SameOrders.tail (h : SameOrders (r :: rest) a b) : SameOrders rest a.tail b.tail := by
  intro i hi
  rw [List.getElem?_tail, List.getElem?_tail]
  exact h (i + 1) hi

/-- Whoever enters is no finished robot of before. -/
theorem SameOrders.append (h : SameOrders robots a b) (others : List Robot) :
    SameOrders (robots ++ others) a b := by
  intro i hi
  refine h i fun r hr => hi r ?_
  rw [List.getElem?_append_left (List.getElem?_eq_some_iff.1 hr).1]
  exact hr

/-- Orders that agree but for the first, which is for a dead robot. -/
theorem sameOrders_of_dead (hdead : r.alive = false) (htail : a.tail = b.tail) :
    SameOrders (r :: rest) a b := by
  intro i hi
  cases i with
  | zero =>
    have hb := hi r rfl
    rw [Robot.blocking, hdead] at hb
    cases hb
  | succ i => rw [← List.getElem?_tail, ← List.getElem?_tail, htail]

end SameOrders

/-! ## The actions

  The signal goes through the turns but does not come into what robots do; so the lemma on the robots
  holds for any two signals, and that on the signal needs no robots. -/

/-- A finished robot does nothing, whatever its order, and only the signal can change. -/
theorem actPhase_of_finished (board : Board) (occupied : List Cell) (signal : Bool) {r : Robot}
    (hb : r.blocking = false) (rest : List Robot) (actions : List (Option Action)) :
    (actPhase board occupied signal (r :: rest) actions).1 =
      r :: (actPhase board occupied (heard signal actions.head?.join) rest actions.tail).1 := by
  have hmark := markExit_of_not_blocking hb board.grid board.exits
  rw [actPhase]
  cases actions.head?.join with
  | none =>
    show markExit board.grid board.exits r :: _ = _
    rw [hmark]
    rfl
  | some action =>
    have hact : ∀ occupied, actOne board occupied r action = r := fun occupied => by
      rw [actOne, Robot.apply_of_not_blocking hb, hmark]
    dsimp only
    rw [hb, hact, hb]
    rfl

/-- **The robots** act alike.  By induction along them: a finished one does nothing under either list and
leaves the occupied cells, and any other one is told the same under both. -/
theorem act_of_sameOrders (board : Board) :
    ∀ (robots : List Robot) (occupied : List Cell) (signal signal' : Bool)
      (a b : List (Option Action)), SameOrders robots a b →
      (actPhase board occupied signal robots a).1 = (actPhase board occupied signal' robots b).1 := by
  intro robots
  induction robots with
  | nil => intro _ _ _ _ _ _; rfl
  | cons r rest ih =>
    intro occupied signal signal' a b h
    cases hb : r.blocking with
    | false =>
      -- a finished robot may be told what it likes: only the signal hears of it
      rw [actPhase_of_finished board occupied signal hb, actPhase_of_finished board occupied signal' hb]
      rw [ih _ _ (heard signal' b.head?.join) _ _ h.tail]
    | true =>
      -- a robot that blocks is told the same by both lists
      rw [actPhase, actPhase, h.head hb]
      cases b.head?.join with
      | none =>
        show _ :: (actPhase board occupied signal rest a.tail).1 = _
        rw [ih _ _ signal' _ _ h.tail]
      | some action =>
        dsimp only
        rw [ih _ _ (nextSignal signal' action) _ _ h.tail]

/-- Every robot's order is heard, in order. -/
theorem actPhase_signal (board : Board) :
    ∀ (robots : List Robot) (occupied : List Cell) (signal : Bool) (actions : List (Option Action)),
      (actPhase board occupied signal robots actions).2
        = (actions.take robots.length).foldl heard signal := by
  intro robots
  induction robots with
  | nil => intro _ _ _; rfl
  | cons r rest ih =>
    intro occupied signal actions
    rw [actPhase]
    cases actions with
    | nil =>
      show (actPhase board occupied signal rest []).2 = _
      rw [ih, List.take_nil, List.take_nil]
    | cons order others =>
      rw [List.length_cons, List.take_succ_cons, List.foldl_cons]
      cases order with
      | none => exact ih _ _ _
      | some action => exact ih _ _ _

/-- Orders that set the signal alike, one by one. -/
theorem foldl_heard_congr :
    ∀ (n : Nat) (signal : Bool) (a b : List (Option Action)),
      (∀ i < n, ∀ signal, heard signal a[i]?.join = heard signal b[i]?.join) →
      (a.take n).foldl heard signal = (b.take n).foldl heard signal := by
  -- a list that is too short is as good as one that ends with no orders
  have hcons : ∀ (n : Nat) (signal : Bool) (a : List (Option Action)),
      (a.take (n + 1)).foldl heard signal
        = (a.tail.take n).foldl heard (heard signal a[0]?.join) := by
    intro n signal a
    cases a with
    | nil => simp [heard]
    | cons order others => rfl
  intro n
  induction n with
  | zero => intro signal a b _; rfl
  | succ n ih =>
    intro signal a b h
    rw [hcons, hcons, h 0 (Nat.succ_pos n)]
    refine ih _ _ _ fun i hi signal => ?_
    rw [List.getElem?_tail, List.getElem?_tail]
    exact h (i + 1) (Nat.succ_lt_succ hi) signal

/-! ## A tick

  The robot that enters in a tick acts in it, and an order for it is told apart by its index from those
  for the robots that are there. -/

/-- How many robots act in the next tick. -/
def crew (s : State) : Nat := s.robots.length + (entering? s).toList.length

/-- The signal after the next tick. -/
def signalAfter (s : State) (actions : List (Option Action)) : Bool :=
  (actions.take (crew s)).foldl heard s.globalSignal

/-- The robots that act are those of the state, with at most one behind them. -/
theorem spawnPhase_length {s : State} {entry : Entry} (h : spawnPhase s = .ok entry) :
    entry.robots.length = crew s ∧ ∃ others, entry.robots = s.robots ++ others := by
  rcases spawnPhase_cases h with ⟨hnone, rfl⟩ | ⟨index, r, hsome, -, rfl⟩
  · exact ⟨by rw [crew, hnone]; rfl, [], (List.append_nil _).symm⟩
  · exact ⟨by rw [crew, hsome]; exact List.length_append, [r], rfl⟩

/-- A tick under the one list of orders is that under the other, but for the signal. -/
theorem tick_of_sameOrders {s : State} {a b : List (Option Action)} (hr : s.status = .running)
    (h : SameOrders s.robots a b) :
    tick s b = (tick s a).map fun u => { u with globalSignal := signalAfter s b } := by
  rw [tick, if_pos hr, tick, if_pos hr, tickRunning, tickRunning]
  cases hspawn : spawnPhase s with
  | error fault => rfl
  | ok entry =>
    obtain ⟨hlength, others, hothers⟩ := spawnPhase_length hspawn
    cases ha : actedRobots s entry a with
    | mk acted signal =>
      -- the robots act alike, and the signal is what the second list leaves of it
      have hb : actedRobots s entry b = (acted, signalAfter s b) := by
        refine Prod.ext ?_ ?_
        · have hsame : SameOrders entry.robots a b := by
            rw [hothers]
            exact h.append others
          have hacted : (actedRobots s entry a).1 = (actedRobots s entry b).1 :=
            act_of_sameOrders _ _ _ _ _ _ _ hsame
          rw [← hacted, ha]
        · rw [actedRobots, actPhase_signal, hlength]
          rfl
      -- what follows does not look at the signal
      dsimp only [bind, Except.bind]
      rw [ha, hb]
      dsimp only
      cases ferry s.grid acted s.rafts s.jetties with
      | error fault => rfl
      | ok out => rfl

/-- The signal after a tick is that of the last order that speaks of it. -/
theorem tick_globalSignal {s u : State} {actions : List (Option Action)} (hr : s.status = .running)
    (h : tick s actions = .ok u) : u.globalSignal = signalAfter s actions := by
  obtain ⟨entry, grid, ferried, rafts, hspawn, -, rfl⟩ := tick_eq_settle hr h
  show (actedRobots s entry actions).2 = _
  rw [actedRobots, actPhase_signal, (spawnPhase_length hspawn).1]
  rfl

/-- Where no finished robot gets a signal order, the last words on the signal are the same. -/
theorem signalAfter_congr {s : State} {a b : List (Option Action)} (h : SameOrders s.robots a b)
    (hmute : ∀ (i : Nat) (r : Robot), s.robots[i]? = some r → r.blocking = false →
      signals a[i]?.join = false ∧ signals b[i]?.join = false) :
    signalAfter s b = signalAfter s a := by
  refine foldl_heard_congr _ _ _ _ fun i _ signal => ?_
  by_cases hi : ∀ r, s.robots[i]? = some r → r.blocking = true
  · rw [h i hi]
  · -- the order of a finished robot, which does not speak of the signal
    obtain ⟨r, hi⟩ := Classical.not_forall.1 hi
    obtain ⟨hr, hb⟩ := Classical.not_imp.1 hi
    obtain ⟨ha, hb⟩ := hmute i r hr (Bool.eq_false_iff.2 hb)
    rw [heard_of_not_signals ha, heard_of_not_signals hb]

/-- **Finished robots and the rest of the run.**  In a state that is running, take two lists of orders that
differ for robots that are dead or saved only.  One tick fails exactly if the other does, and the states
after them are the same but for the signal.  They are the same altogether exactly if the last words on
the signal are the same; so they are whenever no finished robot gets an order to signal. -/
theorem unheeded_iff {s : State} {a b : List (Option Action)} (hr : s.status = .running)
    (h : SameOrders s.robots a b) :
    (tick s b = (tick s a).map fun u => { u with globalSignal := signalAfter s b }) ∧
      (∀ u, tick s a = .ok u → (tick s b = .ok u ↔ signalAfter s b = signalAfter s a)) ∧
      ((∀ (i : Nat) (r : Robot), s.robots[i]? = some r → r.blocking = false →
        signals a[i]?.join = false ∧ signals b[i]?.join = false) → tick s b = tick s a) := by
  have htick := tick_of_sameOrders hr h
  -- the signal is the only part in which the two states could differ
  have hiff : ∀ u, tick s a = .ok u →
      (tick s b = .ok u ↔ signalAfter s b = signalAfter s a) := by
    intro u hu
    rw [← tick_globalSignal hr hu]
    constructor
    · intro hsame
      exact (tick_globalSignal hr hsame).symm
    · intro hsignal
      rw [htick, hu, hsignal]
      rfl
  refine ⟨htick, hiff, fun hmute => ?_⟩
  cases hu : tick s a with
  | ok u => exact (hiff u hu).2 (signalAfter_congr h hmute)
  | error fault =>
    rw [htick, hu]
    rfl

/-- A robot has died and another one enters.  What the dead one is told about the signal is overruled by
what the other one is told. -/
theorem unheeded_overruled :
    ∃ s t u r, start ⟨[[.empty, .hazard]]⟩ { pose := ⟨⟨0, 0⟩, 1⟩, count := 2, interval := 1 } [] 9 1
        = .ok s ∧
      tick s [some .moveForward] = .ok t ∧ t.status = .running ∧ t.robots = [r] ∧
      r.alive = false ∧ SameOrders t.robots [none, some .signalOn] [some .signalOff, some .signalOn] ∧
      tick t [none, some .signalOn] = .ok u ∧ u.robots.length = 2 ∧
      tick t [some .signalOff, some .signalOn] = .ok u := by
  -- the tick under the second list is not evaluated: it follows from the one under the first
  obtain ⟨s, t, u, r, hs, ht, hrun, hr, hdead, hu, hlen, hsignal⟩ : ∃ s t u r,
      start ⟨[[.empty, .hazard]]⟩ { pose := ⟨⟨0, 0⟩, 1⟩, count := 2, interval := 1 } [] 9 1 = .ok s ∧
      tick s [some .moveForward] = .ok t ∧ t.status = .running ∧ t.robots = [r] ∧
      r.alive = false ∧ tick t [none, some .signalOn] = .ok u ∧ u.robots.length = 2 ∧
      signalAfter t [some .signalOff, some .signalOn] = signalAfter t [none, some .signalOn] :=
    ⟨_, _, _, _, rfl, rfl, rfl, rfl, rfl, rfl, rfl, rfl⟩
  have hsame : SameOrders t.robots [none, some .signalOn] [some .signalOff, some .signalOn] := by
    rw [hr]
    exact sameOrders_of_dead hdead rfl
  exact ⟨s, t, u, r, hs, ht, hrun, hr, hdead, hsame, hu, hlen,
    ((unheeded_iff hrun hsame).2.1 u hu).2 hsignal⟩

/-- A robot has died, and nobody else is on the board.  It is told to switch the signal on, and the signal
is on. -/
theorem not_unheeded_signal :
    ∃ s t u v r, start ⟨[[.empty, .hazard]]⟩ { pose := ⟨⟨0, 0⟩, 1⟩, count := 2, interval := 5 } [] 9 1
        = .ok s ∧
      tick s [some .moveForward] = .ok t ∧ t.status = .running ∧ t.robots = [r] ∧
      r.alive = false ∧ SameOrders t.robots [none] [some .signalOn] ∧
      tick t [none] = .ok u ∧ tick t [some .signalOn] = .ok v ∧
      u.globalSignal = false ∧ v.globalSignal = true ∧ v ≠ u := by
  obtain ⟨s, t, u, v, r, hs, ht, hrun, hr, hdead, hu, hv, hoff, hon⟩ : ∃ s t u v r,
      start ⟨[[.empty, .hazard]]⟩ { pose := ⟨⟨0, 0⟩, 1⟩, count := 2, interval := 5 } [] 9 1 = .ok s ∧
      tick s [some .moveForward] = .ok t ∧ t.status = .running ∧ t.robots = [r] ∧
      r.alive = false ∧ tick t [none] = .ok u ∧ tick t [some .signalOn] = .ok v ∧
      u.globalSignal = false ∧ v.globalSignal = true :=
    ⟨_, _, _, _, _, rfl, rfl, rfl, rfl, rfl, rfl, rfl, rfl, rfl⟩
  refine ⟨s, t, u, v, r, hs, ht, hrun, hr, hdead, ?_, hu, hv, hoff, hon, ?_⟩
  · rw [hr]
    exact sameOrders_of_dead hdead rfl
  · rintro rfl
    -- the two states differ in the signal
    rw [hoff] at hon
    cases hon

end Simulation

end RobotPuzzle
