/-
  What the limit of a machine changes, and what it does not.

  1. **One call** — a call looks at the limit only when it has come to a leaf.  So under a smaller limit it
     does the same (`call_withLimit`), unless the leaf is one too many; then the machine stops where the
     leaf has come out under the larger limit (`call_of_spent`).
  2. **Counting** — `given` are the actions that have come out before a call.  Their number is the `steps` of
     the machine (`steps_before`), waits of loops included, and nothing else is counted.
  3. **Two runs** — so a run under a smaller limit is the run under the larger one, up to the first call that
     `Oversteps` the smaller limit, and stands still from then on (`limit_truncates`).  A program that
     asks for no more than the limit comes to its end under both.

  The crux is in which order a call does things: it makes its moves first, and only then looks at the
  limit.  So the stack of a machine that is stopped is the stack behind the leaf that was not handed out,
  and the two runs can be compared state by state, the last one included.

  The two machines are compared call by call, not only by what they have handed out in the end.  The first
  action that is one too many is where they part, and the theorem says what the smaller limit does there
  and from then on.  If the larger limit cuts as well, it does so later or at the same place; so the
  statement is about any two limits.
-/
import RobotPuzzle.Proofs.Calls

namespace RobotPuzzle

namespace Machine

/-! ## One call

  `withLimit` changes nothing but the limit, and `cutAt` nothing but what a stop changes, so the lemmas
  say what a call does to all other fields by saying nothing about them. -/

/-- The machine under another limit. -/
def withLimit (m : Machine) (limit : Int) : Machine := { m with maxSteps := limit }

/-- The machine stopped at the limit, with that many actions handed out. -/
def cutAt (m : Machine) (steps : Nat) : Machine :=
  { m with steps, status := .stepLimit, current := none }

@[simp] theorem withLimit_status (m : Machine) (limit : Int) : (m.withLimit limit).status = m.status :=
  rfl

section Call

variable {m : Machine} {see : Condition → Bool} {stack : List Frame} {leaf : Leaf} {limit : Int}

/-- A call that comes to the end of the program stops the machine with an empty stack. -/
theorem call_of_finished (hr : m.status = .running) (hrun : run see m.steps m.stack = .finished) :
    m.call see = ({ m with stack := [], status := .done, current := none }, none) := by
  rw [call, if_pos hr, hrun]

/-- A call that comes to a leaf below the limit hands it out and counts it. -/
theorem call_of_lt (hr : m.status = .running) (hrun : run see m.steps m.stack = .leaf stack leaf)
    (hlt : (m.steps : Int) < m.maxSteps) :
    m.call see = ({ m with stack, steps := m.steps + 1, current := some leaf }, some leaf.action) := by
  rw [call, if_pos hr, hrun]
  exact if_neg (Int.not_le.2 hlt)

/-- A call that comes to a leaf at the limit stops.  The stack is the one behind the leaf all the same. -/
theorem call_of_le (hr : m.status = .running) (hrun : run see m.steps m.stack = .leaf stack leaf)
    (hle : m.maxSteps ≤ m.steps) :
    m.call see = ({ m with stack, status := .stepLimit, current := none }, none) := by
  rw [call, if_pos hr, hrun]
  exact if_pos hle

/-- What a call can do: nothing, come to the end of the program, hand out a leaf, or stop at the limit. -/
theorem call_outcomes (m : Machine) (see : Condition → Bool) :
    (m.status ≠ .running ∧ m.call see = (m, none)) ∨
      (m.status = .running ∧ run see m.steps m.stack = .finished ∧
        m.call see = ({ m with stack := [], status := .done, current := none }, none)) ∨
      (m.status = .running ∧ ∃ stack leaf, run see m.steps m.stack = .leaf stack leaf ∧
        (((m.steps : Int) < m.maxSteps ∧ m.call see
            = ({ m with stack, steps := m.steps + 1, current := some leaf }, some leaf.action)) ∨
          (m.maxSteps ≤ m.steps ∧
            m.call see = ({ m with stack, status := .stepLimit, current := none }, none)))) := by
  by_cases hr : m.status = .running
  · cases hrun : run see m.steps m.stack with
    | finished => exact Or.inr (Or.inl ⟨hr, rfl, call_of_finished hr hrun⟩)
    | leaf stack leaf =>
      refine Or.inr (Or.inr ⟨hr, stack, leaf, rfl, ?_⟩)
      rcases Int.lt_or_le (m.steps : Int) m.maxSteps with hlt | hle
      · exact Or.inl ⟨hlt, call_of_lt hr hrun hlt⟩
      · exact Or.inr ⟨hle, call_of_le hr hrun hle⟩
  · exact Or.inl ⟨hr, call_of_not_running hr see⟩

theorem call_maxSteps (m : Machine) (see : Condition → Bool) :
    (m.call see).1.maxSteps = m.maxSteps := by
  rcases call_outcomes m see with
    ⟨-, h⟩ | ⟨-, -, h⟩ | ⟨-, stack, leaf, -, ⟨-, h⟩ | ⟨-, h⟩⟩ <;> rw [h]

/-- A call counts the action that it hands out, and nothing else. -/
theorem call_steps (m : Machine) (see : Condition → Bool) :
    (m.call see).1.steps = m.steps + (m.call see).2.toList.length := by
  rcases call_outcomes m see with
    ⟨-, h⟩ | ⟨-, -, h⟩ | ⟨-, stack, leaf, -, ⟨-, h⟩ | ⟨-, h⟩⟩ <;> rw [h] <;> rfl

/-- **A call under a smaller limit** does the same, unless it hands out an action that is one too many.  A
call that hands out nothing is not affected, so a machine at its limit may still find that its program has
ended. -/
theorem call_withLimit (hle : limit ≤ m.maxSteps)
    (h : ¬ (limit ≤ m.steps ∧ (m.call see).2.isSome = true)) :
    (m.withLimit limit).call see = ((m.call see).1.withLimit limit, (m.call see).2) := by
  rcases call_outcomes m see with
    ⟨hr, hcall⟩ | ⟨hr, hrun, hcall⟩ | ⟨hr, stack, leaf, hrun, ⟨-, hcall⟩ | ⟨hover, hcall⟩⟩
  · rw [hcall]
    have hstopped : (m.withLimit limit).status ≠ .running := hr
    exact call_of_not_running hstopped see
  · rw [hcall]
    exact call_of_finished hr hrun
  · rw [hcall] at h ⊢
    have hlt : (m.steps : Int) < limit := Int.not_le.1 fun hspent => h ⟨hspent, rfl⟩
    exact call_of_lt hr hrun hlt
  · rw [hcall]
    exact call_of_le hr hrun (Int.le_trans hle hover)

/-- An action that is one too many is not handed out, and the machine stops where it is due. -/
theorem call_of_spent (hspent : limit ≤ m.steps) (hout : (m.call see).2.isSome = true) :
    (m.withLimit limit).call see = (((m.call see).1.withLimit limit).cutAt m.steps, none) := by
  rcases call_outcomes m see with
    ⟨-, hcall⟩ | ⟨-, -, hcall⟩ | ⟨hr, stack, leaf, hrun, ⟨-, hcall⟩ | ⟨-, hcall⟩⟩
  · rw [hcall] at hout
    cases hout
  · rw [hcall] at hout
    cases hout
  · rw [hcall]
    exact call_of_le hr hrun hspent
  · rw [hcall] at hout
    cases hout

end Call

/-! ## Counting

  Waits of loops are leaves like any other, so they are counted as well; a call without an action counts
  nothing. -/

section Runs

variable {see : Nat → Condition → Bool} {m : Machine} {limit : Int} {n : Nat}

/-- The actions that have come out before call number `n`. -/
def given (see : Nat → Condition → Bool) (m : Machine) (n : Nat) : List Action :=
  (List.range n).filterMap (answer see m)

/-- One call more adds the action that comes out in it, if one does. -/
theorem given_succ (see : Nat → Condition → Bool) (m : Machine) (n : Nat) :
    given see m (n + 1) = given see m n ++ (answer see m n).toList := by
  rw [given, List.range_succ, List.filterMap_append, ← given]
  cases h : answer see m n with
  | none => rw [List.filterMap_cons_none h]; rfl
  | some action => rw [List.filterMap_cons_some h]; rfl

theorem length_given_succ (see : Nat → Condition → Bool) (m : Machine) (n : Nat) :
    (given see m (n + 1)).length = (given see m n).length + (answer see m n).toList.length := by
  rw [given_succ, List.length_append]

theorem length_given_mono {k n : Nat} (h : k ≤ n) :
    (given see m k).length ≤ (given see m n).length := by
  induction h with
  | refl => exact Nat.le_refl _
  | step _ ih =>
    rw [length_given_succ]
    omega

/-- The limit is that of the machine at the start, before every call. -/
theorem maxSteps_before (see : Nat → Condition → Bool) (m : Machine) (n : Nat) :
    (before see m n).maxSteps = m.maxSteps := by
  induction n with
  | zero => rfl
  | succ n ih => exact (call_maxSteps _ _).trans ih

/-- The steps of a new machine are the actions that have come out of it. -/
theorem steps_before (hnew : m.steps = 0) (n : Nat) :
    (before see m n).steps = (given see m n).length := by
  induction n with
  | zero => exact hnew
  | succ n ih =>
    rw [length_given_succ, ← ih]
    exact call_steps _ _

/-! ## Two runs

  Up to the first call that oversteps, the states of both runs are the same but for the limit, by
  induction on the calls.  That call is looked at on its own, and behind it both the stopped machine and
  its answers stay. -/

/-- In that call an action comes out though as many as the limit are out already. -/
def Oversteps (see : Nat → Condition → Bool) (m : Machine) (limit : Int) (n : Nat) : Prop :=
  limit ≤ (given see m n).length ∧ (answer see m n).isSome = true

/-- As long as no call oversteps the limit, no more than the limit have come out. -/
theorem length_given_le (h : ∀ k < n, ¬ Oversteps see m limit k) :
    ((given see m n).length : Int) ≤ max limit 0 := by
  induction n with
  | zero => exact Int.le_max_right limit 0
  | succ n ih =>
    have hbefore := ih fun k hk => h k (Nat.lt_succ_of_lt hk)
    rw [length_given_succ]
    cases hout : answer see m n with
    | none =>
      rw [Option.toList_none, List.length_nil]
      omega
    | some action =>
      have hlt : ((given see m n).length : Int) < limit :=
        Int.not_le.1 fun hle => h n (Nat.lt_succ_self n) ⟨hle, by rw [hout]; rfl⟩
      rw [Option.toList_some, List.length_singleton]
      omega

/-- As long as no call has overstepped the limit, the machines differ in nothing but the limit.  Each call
before this one satisfies `call_withLimit`, as the steps are what has come out. -/
theorem before_withLimit (hnew : m.steps = 0) (hle : limit ≤ m.maxSteps)
    (h : ∀ k < n, ¬ Oversteps see m limit k) :
    before see (m.withLimit limit) n = (before see m n).withLimit limit := by
  induction n with
  | zero => rfl
  | succ n ih =>
    have hnow := h n (Nat.lt_succ_self n)
    rw [Oversteps, ← steps_before hnew] at hnow
    rw [before, ih fun k hk => h k (Nat.lt_succ_of_lt hk),
      call_withLimit (by rwa [maxSteps_before]) hnow]
    rfl

/-- And in a call that does not overstep it either, the same comes out. -/
theorem answer_withLimit (hnew : m.steps = 0) (hle : limit ≤ m.maxSteps)
    (h : ∀ k ≤ n, ¬ Oversteps see m limit k) :
    answer see (m.withLimit limit) n = answer see m n := by
  have hnow := h n (Nat.le_refl n)
  rw [Oversteps, ← steps_before hnew] at hnow
  rw [answer, before_withLimit hnew hle fun k hk => h k (Nat.le_of_lt hk),
    call_withLimit (by rwa [maxSteps_before]) hnow]
  rfl

/-- From the first call on that oversteps the limit, nothing comes out and nothing changes. -/
theorem stops_withLimit (hnew : m.steps = 0) (hle : limit ≤ m.maxSteps)
    (h : ∀ k < n, ¬ Oversteps see m limit k) (hover : Oversteps see m limit n) (k : Nat) :
    answer see (m.withLimit limit) (n + k) = none ∧
      before see (m.withLimit limit) (n + 1 + k)
        = ((before see m (n + 1)).withLimit limit).cutAt (given see m n).length := by
  obtain ⟨hspent, hout⟩ := hover
  rw [← steps_before hnew] at hspent ⊢
  -- so far the two runs agree, and this is the call that is one too many
  have hcall : (before see (m.withLimit limit) n).call (see n)
      = (((before see m (n + 1)).withLimit limit).cutAt (before see m n).steps, none) := by
    rw [before_withLimit hnew hle h]
    exact call_of_spent hspent hout
  have hnext : before see (m.withLimit limit) (n + 1)
      = ((before see m (n + 1)).withLimit limit).cutAt (before see m n).steps := by
    rw [before, hcall]
  have hstopped : (before see (m.withLimit limit) (n + 1)).status ≠ .running := by
    rw [hnext]
    exact Status.noConfusion
  refine ⟨?_, (before_of_stopped hstopped k).1.trans hnext⟩
  cases k with
  | zero => rw [Nat.add_zero, answer, hcall]
  | succ k =>
    rw [show n + (k + 1) = n + 1 + k by omega]
    exact (before_of_stopped hstopped k).2

/-- Of the calls up to one, there is a first that oversteps the limit, or there is none.  All that is said
about the smaller limit is said by these two cases. -/
theorem first_overstep (see : Nat → Condition → Bool) (m : Machine) (limit : Int) (n : Nat) :
    (∀ k < n, ¬ Oversteps see m limit k) ∨
      ∃ k < n, Oversteps see m limit k ∧ ∀ j < k, ¬ Oversteps see m limit j := by
  induction n with
  | zero => exact Or.inl fun k hk => absurd hk (Nat.not_lt_zero k)
  | succ n ih =>
    rcases ih with hnone | ⟨k, hk, hfirst⟩
    · by_cases hover : Oversteps see m limit n
      · exact Or.inr ⟨n, Nat.lt_succ_self n, hover, hnone⟩
      · exact Or.inl (Nat.forall_lt_succ_right.2 ⟨hnone, hover⟩)
    · exact Or.inr ⟨k, Nat.lt_succ_of_lt hk, hfirst⟩

/-- The smaller limit lets a program come to its end exactly if the larger one does and no more than the
smaller limit come out. -/
theorem done_withLimit_iff (hnew : m.steps = 0) (hle : limit ≤ m.maxSteps) (n : Nat) :
    (before see (m.withLimit limit) n).status = .done ↔
      (before see m n).status = .done ∧ ((given see m n).length : Int) ≤ max limit 0 := by
  rcases first_overstep see m limit n with hnone | ⟨k, hk, hover, hbefore⟩
  · -- nothing is cut off, and nothing was to be cut off
    rw [before_withLimit hnew hle hnone, withLimit_status]
    exact ⟨fun hdone => ⟨hdone, length_given_le hnone⟩, fun h => h.1⟩
  · obtain ⟨j, rfl⟩ : ∃ j, n = k + 1 + j := Nat.exists_eq_add_of_le hk
    have hone : (answer see m k).toList.length = 1 := by
      obtain ⟨action, haction⟩ := Option.isSome_iff_exists.1 hover.2
      rw [haction]
      rfl
    have hmore : (given see m (k + 1)).length ≤ (given see m (k + 1 + j)).length :=
      length_given_mono (Nat.le_add_right _ _)
    -- one more than the limit has come out under the larger one
    rw [length_given_succ, hone] at hmore
    have hlimit := hover.1
    rw [(stops_withLimit hnew hle hbefore hover j).2]
    constructor
    · intro hdone
      cases hdone
    · rintro ⟨-, hfew⟩
      omega

end Runs

/-- The run of a program under a limit is the one under a larger limit, cut off. -/
structure Truncates (see : Nat → Condition → Bool) (program : Program) (limit larger : Int) :
    Prop where
  /-- before the first action that is one too many the machines differ in their limits only -/
  same : ∀ n, (∀ k < n, ¬ Oversteps see (create program larger) limit k) →
    before see (create program limit) n = (before see (create program larger) n).withLimit limit
  /-- and the same comes out -/
  answers : ∀ n, (∀ k ≤ n, ¬ Oversteps see (create program larger) limit k) →
    answer see (create program limit) n = answer see (create program larger) n
  /-- at that action the machine stops and stays so -/
  stops : ∀ n, (∀ k < n, ¬ Oversteps see (create program larger) limit k) →
    Oversteps see (create program larger) limit n → ∀ k,
      answer see (create program limit) (n + k) = none ∧
        before see (create program limit) (n + 1 + k)
          = ((before see (create program larger) (n + 1)).withLimit limit).cutAt
              (given see (create program larger) n).length
  /-- a program that asks for no more than the limit comes to its end, and no other does -/
  done : ∀ n, (before see (create program limit) n).status = .done ↔
    (before see (create program larger) n).status = .done ∧
      ((given see (create program larger) n).length : Int) ≤ max limit 0

/-- **The limit only cuts off.**  Whatever each call sees, a program under a limit runs as under a larger one
up to the first action that is one too many, and there it stops for good; a program that hands out just
as many actions as the limit allows comes to its end.  Under any limit the steps of the machine are the
actions that have come out. -/
theorem limit_truncates (program : Program) (sights : Nat → Sight) {limit larger : Int}
    (h : limit ≤ larger) :
    Truncates (fun n => (sights n).holds) program limit larger ∧
      ∀ any n, (before (fun n => (sights n).holds) (create program any) n).steps
        = (given (fun n => (sights n).holds) (create program any) n).length := by
  have hcreate : create program limit = (create program larger).withLimit limit := rfl
  refine ⟨⟨fun n hn => ?_, fun n hn => ?_, fun n hn hover k => ?_, fun n => ?_⟩, fun any n => ?_⟩
  · rw [hcreate]
    exact before_withLimit rfl h hn
  · rw [hcreate]
    exact answer_withLimit rfl h hn
  · rw [hcreate]
    exact stops_withLimit rfl h hn hover k
  · rw [hcreate]
    exact done_withLimit_iff rfl h n
  · exact steps_before rfl n

/-- A robot alone on an empty cell, with the signal on from call number `first`. -/
def signalFrom (first n : Nat) : Sight :=
  { grid := ⟨[[.empty]]⟩, robot := { id := "", cell := ⟨0, 0⟩, heading := .north }
    globalSignal := first ≤ n }

/-- Waits for the signal and goes forward. -/
def onSignal : Program := [.loopUntil (.primitive .globalSignalOn) [] .null, .act .moveForward]

/-- The loop waits twice before the signal comes.  With one action allowed the second wait is one too many;
three actions are just enough. -/
theorem limit_truncates_waiting :
    (1 : Int) ≤ 5 ∧ (3 : Int) ≤ 5 ∧
      given (fun n => (signalFrom 2 n).holds) (create onSignal 5) 4 = [.wait, .wait, .moveForward] ∧
      answer (fun n => (signalFrom 2 n).holds) (create onSignal 1) 1 = none ∧
      (before (fun n => (signalFrom 2 n).holds) (create onSignal 1) 3).status = .stepLimit ∧
      (before (fun n => (signalFrom 2 n).holds) (create onSignal 3) 4).status = .done := by
  have hgiven : given (fun n => (signalFrom 2 n).holds) (create onSignal 5) 4
      = [.wait, .wait, .moveForward] := by decide +kernel
  have hcut := (limit_truncates onSignal (signalFrom 2) (show (1 : Int) ≤ 5 by decide)).1
  have hwhole := (limit_truncates onSignal (signalFrom 2) (show (3 : Int) ≤ 5 by decide)).1
  -- the first action is within the limit of one, and the second one is not
  have hfirst : ∀ k < 1,
      ¬ Oversteps (fun n => (signalFrom 2 n).holds) (create onSignal 5) 1 k := by
    intro k hk hover
    obtain rfl : k = 0 := by omega
    exact absurd hover.1 (by decide)
  have hover : Oversteps (fun n => (signalFrom 2 n).holds) (create onSignal 5) 1 1 :=
    ⟨by decide +kernel, by decide +kernel⟩
  refine ⟨by decide, by decide, hgiven, (hcut.stops 1 hfirst hover 0).1, ?_, ?_⟩
  · rw [(hcut.stops 1 hfirst hover 1).2]
    rfl
  · exact (hwhole.done 4).2 ⟨by decide +kernel, by rw [hgiven]; decide⟩

end Machine

end RobotPuzzle
