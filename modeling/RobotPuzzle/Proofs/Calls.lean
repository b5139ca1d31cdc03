/-
  The machine, call by call, follows the course of its program.

  1. **Reading a stack** — a frame stands for what is left of its body and of its loop
     (`frameRest`), and a stack for its frames one behind the other (`stackRest`).
  2. **One move** — a move changes the stack and keeps what is left to do (`moveRest_move`): going past
     an end, starting anew and entering a node are the equations of `Course`, read in the present call.
  3. **One call** — so a call either hands out the leaf that is due next, or stops at the limit, or has
     nothing left to do (`call_cases`).
  4. **All calls** — the leaves that are out after `n` calls are `n`, so the calls can go on only until
     the limit; behind that every call leaves the machine as it is.  Induction on what is missing to
     the limit gives the one ending that the course of the program has (`follows_of_suspended`).

  The last statement, `create_follows_course`, is about a machine at the start of a program and any
  sequence of sights.

  The crux is that what is left to do is one course, told in the terms of `Course` alone, and that it is
  the same before and after every move of a call.  Nothing has to be said about how many moves a call
  makes or what the stack looks like in between; the measure that makes a call end is that of the machine
  and is not needed here a second time.

  On the one side stands the machine with its frames and moves, on the other the course of the program,
  which knows of neither; so the theorem is that an executable stack is right about a relation on lists of
  leaves.  It says that there is exactly one ending, which is more than that the machine has one: nothing
  else is a course of the program under these sights and this limit.
-/
import RobotPuzzle.Proofs.Course
import RobotPuzzle.Sensor

namespace RobotPuzzle

namespace Machine

open Course

/-! ## Reading a stack

  A loop with a count has its remaining rounds on the stack, the present one included, so a frame at the
  beginning of its last round reads as that round alone.  The loop that waits keeps the mark of the
  present pass and reads as the end of the pass that `PassEnd` tells. -/

section Rest

variable (see : Nat → Condition → Bool) (limit : Int)

/-- What is left to do in a frame. -/
def frameRest : Frame → Course
  | .block body index => Program.course see limit (body.drop index)
  | .loop _ _ 0 => Skip
  | .loop body index (n + 1) =>
    Then (Program.course see limit (body.drop index)) (Times (Program.course see limit body) n)
  | .loopUntil c body blockId index mark =>
    Then (Program.course see limit (body.drop index))
      (PassEnd see limit c blockId (Program.course see limit body) mark)

/-- What is left to do in a stack, the top frame first. -/
def stackRest : List Frame → Course
  | [] => Skip
  | top :: below => Then (frameRest see limit top) (stackRest below)

/-- What is left to do behind a move. -/
def moveRest : Move → Course
  | .next stack => stackRest see limit stack
  | .leaf stack leaf => Then (One limit leaf) (stackRest see limit stack)

/-- What is left to do when the moves of a call are over. -/
def pauseRest : Pause → Course
  | .finished => Skip
  | .leaf stack leaf => Then (One limit leaf) (stackRest see limit stack)

variable {see limit}

theorem course_drop_of_none {body : List Node} {index : Nat} (h : body[index]? = none) :
    Program.course see limit (body.drop index) = Skip := by
  rw [List.drop_eq_nil_of_le (List.getElem?_eq_none_iff.1 h), Program.course]

theorem course_drop_of_some {body : List Node} {index : Nat} {node : Node}
    (h : body[index]? = some node) :
    Program.course see limit (body.drop index)
      = Then (node.course see limit) (Program.course see limit (body.drop (index + 1))) := by
  obtain ⟨hlt, rfl⟩ := List.getElem?_eq_some_iff.1 h
  rw [List.drop_eq_getElem_cons hlt, Program.course]

/-! ## One move

  One case for each kind of frame and each node, and in each the equation of `Course` that belongs to it.
  All of them are read at the leaves that are out, since a condition is asked in the present call. -/

/-- A branch is pushed only if it is not empty; an empty one does nothing. -/
theorem stackRest_branch (body : List Node) (below : List Frame) :
    stackRest see limit (if body.isEmpty then below else .block body 0 :: below)
      = Then (Program.course see limit body) (stackRest see limit below) := by
  cases body with
  | nil => simp [Program.course]
  | cons n rest => simp [stackRest, frameRest]

/-- Entering a node leaves the course of the node to do, and then what is below.  A loop without rounds, a
loop whose condition holds and an empty branch put nothing on the stack, and their courses do nothing. -/
theorem moveRest_enter (below : List Frame) (node : Node) (out : List Leaf) :
    moveRest see limit (enter (see out.length) out.length below node) out
      = Then (node.course see limit) (stackRest see limit below) out := by
  cases node with
  | action action blockId => rfl
  | loop count body blockId =>
    cases count with
    | zero => simp [enter, moveRest, Node.course, Times]
    | succ n => simp [enter, moveRest, stackRest, frameRest, Node.course, Times]
  | loopUntil c body blockId =>
    cases hc : see out.length c with
    | true =>
      rw [Node.course, then_congr (either_of_sees hc _ _)]
      simp [enter, moveRest, hc]
    | false =>
      rw [Node.course, then_congr (either_of_not_sees hc _ _), then_congr (passes_eq ..)]
      simp [enter, moveRest, hc, stackRest, frameRest]
  | ifThen c body blockId =>
    cases hc : see out.length c with
    | true =>
      rw [Node.course, then_congr (either_of_sees hc _ _), ← stackRest_branch]
      -- an empty branch puts nothing on the stack
      cases body <;> simp [enter, moveRest, hc]
    | false =>
      rw [Node.course, then_congr (either_of_not_sees hc _ _)]
      simp [enter, moveRest, hc]
  | ifElse c body other blockId =>
    cases hc : see out.length c with
    | true =>
      rw [Node.course, then_congr (either_of_sees hc _ _), ← stackRest_branch]
      simp [enter, moveRest, hc]
    | false =>
      rw [Node.course, then_congr (either_of_not_sees hc _ _), ← stackRest_branch]
      simp [enter, moveRest, hc]

/-- **A move keeps what is left to do.**  At the end of a body a loop either begins its next round, which
is `Times` unrolled, or ends a pass, which is `PassEnd`; a frame that is done is `Skip` in front of the
rest of the stack. -/
theorem moveRest_move (top : Frame) (below : List Frame) (out : List Leaf) :
    moveRest see limit (move (see out.length) out.length below top) out
      = stackRest see limit (top :: below) out := by
  cases top with
  | block body index =>
    cases hn : body[index]? with
    | none => simp [move, hn, moveRest, stackRest, frameRest, course_drop_of_none hn]
    | some node =>
      simp only [move, hn, moveRest_enter]
      simp [stackRest, frameRest, course_drop_of_some hn, then_assoc]
  | loop body index remaining =>
    cases remaining with
    | zero => simp [move, moveRest, stackRest, frameRest]
    | succ k =>
      cases hn : body[index]? with
      | none =>
        -- the last round leaves nothing behind it, any other leaves one round less
        cases k with
        | zero => simp [move, hn, moveRest, stackRest, frameRest, course_drop_of_none hn, Times]
        | succ k => simp [move, hn, moveRest, stackRest, frameRest, course_drop_of_none hn, Times]
      | some node =>
        simp only [move, hn, Nat.add_one_ne_zero, if_false, moveRest_enter]
        simp [stackRest, frameRest, course_drop_of_some hn, then_assoc]
  | loopUntil c body blockId index mark =>
    cases hn : body[index]? with
    | some node =>
      simp only [move, hn, moveRest_enter]
      simp [stackRest, frameRest, course_drop_of_some hn, then_assoc]
    | none =>
      simp only [stackRest, frameRest, course_drop_of_none hn, skip_then]
      cases hc : see out.length c with
      | true =>
        rw [PassEnd, then_congr (either_of_sees hc _ _)]
        simp [move, hn, hc, moveRest]
      | false =>
        rw [PassEnd, then_congr (either_of_not_sees hc _ _)]
        by_cases hm : mark = out.length
        · -- no leaf came out in this pass: a wait is due, and behind it the next pass
          simp only [move, hn, hc, hm, moveRest, Bool.false_eq_true, if_false, if_true]
          rw [then_congr (if_pos rfl) (stackRest see limit below), then_assoc]
          refine then_congr_right fun mid hmid => ?_
          rw [stackRest, frameRest, List.drop_zero, ← length_of_one hmid,
            then_congr (passes_eq see limit c blockId (Program.course see limit body) mid)]
        · simp only [move, hn, hc, hm, moveRest, Bool.false_eq_true, if_false]
          rw [then_congr (if_neg hm) (stackRest see limit below), stackRest, frameRest,
            List.drop_zero, then_congr (passes_eq ..)]

/-! ## One call

  What is open to a machine between two calls is a set of endings, all that its stack can come to.  A call
  narrows it down only by handing out the leaf that every one of them begins with, so the set stays the
  same from call to call; where it is a single ending, the machine has stopped in it. -/

variable (see limit) in
/-- The moves of a call keep what is left to do.  The induction is that of `run` itself, along the work
that is left. -/
theorem pauseRest_run (stack : List Frame) (out : List Leaf) :
    pauseRest see limit (run (see out.length) out.length stack) out = stackRest see limit stack out := by
  fun_induction run (see out.length) out.length stack with
  | case1 => rfl
  | case2 top below stack leaf h =>
    rw [← moveRest_move top below out, h]
    rfl
  | case3 top below stack h _ ih =>
    rw [ih, ← moveRest_move top below out, h]
    rfl

end Rest

/-- A machine between two calls: the leaves that are out, and the endings that are open to it. -/
structure Suspended (see : Nat → Condition → Bool) (endings : Ending → Prop) (out : List Leaf)
    (m : Machine) : Prop where
  /-- it can still be called -/
  running : m.status = .running
  /-- it has counted the leaves -/
  steps : m.steps = out.length
  /-- what is left on its stack leads to those endings -/
  rest : stackRest see m.maxSteps m.stack out = endings

/-- **One call**: it hands out a leaf below the limit, or it stops in the only ending that is open. -/
theorem call_cases {see : Nat → Condition → Bool} {endings : Ending → Prop} {out : List Leaf}
    {m : Machine} (hm : Suspended see endings out m) :
    (∃ leaf next, m.call (see out.length) = (next, some leaf.action) ∧
        (out.length : Int) < m.maxSteps ∧ next.maxSteps = m.maxSteps ∧ next.current = some leaf ∧
        Suspended see endings (out ++ [leaf]) next) ∨
      ∃ e last, m.call (see out.length) = (last, none) ∧
        endings = (· = e) ∧ e.leaves = out ∧ last.status = e.status := by
  -- what is left to do is what the pause leaves to do, so the pause decides which case it is
  have hrest := pauseRest_run see m.maxSteps m.stack out
  rw [hm.rest] at hrest
  cases hp : run (see out.length) out.length m.stack with
  | finished =>
    rw [hp] at hrest
    refine Or.inr ⟨.finished out, { m with stack := [], status := .done, current := none }, ?_,
      hrest.symm, rfl, rfl⟩
    simp only [call, hm.running, hm.steps, hp, if_true]
  | leaf stack leaf =>
    rw [hp, pauseRest] at hrest
    -- a leaf below the limit is handed out, and any other one cuts the run
    rcases Int.lt_or_le (out.length : Int) m.maxSteps with hlt | hle
    · rw [then_of_finished (one_of_lt hlt leaf)] at hrest
      refine Or.inl ⟨leaf, { m with stack, steps := out.length + 1, current := some leaf }, ?_,
        hlt, rfl, rfl, hm.running, by simp, hrest⟩
      simp only [call, hm.running, hm.steps, hp, if_true, Int.not_le.2 hlt, if_false]
    · rw [then_of_cut (one_of_le hle leaf)] at hrest
      refine Or.inr ⟨.cut out, { m with stack, status := .stepLimit, current := none }, ?_,
        hrest.symm, rfl, rfl⟩
      simp only [call, hm.running, hm.steps, hp, if_true, hle]

/-! ## All calls

  The number of calls is not bounded beforehand, since a loop may wait forever.  But each call that hands
  out a leaf comes nearer to the limit, so how much is missing to it is what the induction is on; a
  program that would go on is then cut there. -/

/-- The machine before call number `n`, when call number `i` sees `see i`. -/
def before (see : Nat → Condition → Bool) (m : Machine) : Nat → Machine
  | 0 => m
  | n + 1 => ((before see m n).call (see n)).1

/-- The action that comes out of call number `n`. -/
def answer (see : Nat → Condition → Bool) (m : Machine) (n : Nat) : Option Action :=
  ((before see m n).call (see n)).2

/-- Call number `n` hands out the leaf. -/
def HandsOut (see : Nat → Condition → Bool) (m : Machine) (n : Nat) (leaf : Leaf) : Prop :=
  answer see m n = some leaf.action ∧ (before see m (n + 1)).current = some leaf ∧
    (before see m (n + 1)).status = .running

/-- The calls hand out the leaves of an ending, one each and in order, and behind the last one nothing,
in the status of the ending. -/
structure Follows (see : Nat → Condition → Bool) (m : Machine) (e : Ending) : Prop where
  /-- each call hands out the leaf with its number -/
  leaves : ∀ n leaf, e.leaves[n]? = some leaf → HandsOut see m n leaf
  /-- the others hand out nothing, and leave the status of the ending -/
  stop : ∀ n, e.leaves.length ≤ n →
    answer see m n = none ∧ (before see m (n + 1)).status = e.status

/-- A machine that has stopped stays as it is, and nothing comes out of it, however often it is called. -/
theorem before_of_stopped {see : Nat → Condition → Bool} {m : Machine} {n : Nat}
    (h : (before see m n).status ≠ .running) (k : Nat) :
    before see m (n + k) = before see m n ∧ answer see m (n + k) = none := by
  induction k with
  | zero => exact ⟨rfl, by rw [answer, Nat.add_zero, call_of_not_running h]⟩
  | succ k ih =>
    have hk : before see m (n + (k + 1)) = before see m n := by
      show ((before see m (n + k)).call (see (n + k))).1 = before see m n
      rw [ih.1, call_of_not_running h]
    exact ⟨hk, by rw [answer, hk, call_of_not_running h]⟩

/-- A call that stops the machine settles all calls from then on: what came out before it is known, and
behind it `before_of_stopped` answers every call. -/
theorem follows_of_stop {see : Nat → Condition → Bool} {m last : Machine} {e : Ending}
    (hcall : (before see m e.leaves.length).call (see e.leaves.length) = (last, none))
    (hstatus : last.status = e.status)
    (hpast : ∀ n leaf, e.leaves[n]? = some leaf → HandsOut see m n leaf) : Follows see m e := by
  refine ⟨hpast, fun n hn => ?_⟩
  have hlast : before see m (e.leaves.length + 1) = last := by
    show ((before see m e.leaves.length).call (see e.leaves.length)).1 = last
    rw [hcall]
  have hstopped : (before see m (e.leaves.length + 1)).status ≠ .running := by
    rw [hlast, hstatus]
    cases e <;> simp [Ending.status]
  rcases Nat.eq_or_lt_of_le hn with rfl | hlt
  · exact ⟨by rw [answer, hcall], by rw [hlast, hstatus]⟩
  · obtain ⟨k, rfl⟩ : ∃ k, n = e.leaves.length + 1 + k := Nat.exists_eq_add_of_le hlt
    refine ⟨(before_of_stopped hstopped k).2, ?_⟩
    rw [Nat.add_assoc _ k 1, (before_of_stopped hstopped (k + 1)).1, hlast, hstatus]

/-- From a machine that has handed out `out` so far the calls go on to the only ending that is open.
The induction is on how much is missing to the limit: every call that hands out a leaf comes closer. -/
theorem follows_of_suspended {see : Nat → Condition → Bool} {endings : Ending → Prop} {m : Machine} :
    ∀ (missing : Nat) (out : List Leaf),
      (before see m out.length).maxSteps ≤ out.length + missing →
      Suspended see endings out (before see m out.length) →
      (∀ n leaf, out[n]? = some leaf → HandsOut see m n leaf) →
      ∃ e, endings = (· = e) ∧ Follows see m e := by
  intro missing
  induction missing with
  | zero =>
    intro out hlimit hm hpast
    rcases call_cases hm with ⟨leaf, next, -, hlt, -⟩ | ⟨e, last, hcall, he, rfl, hstatus⟩
    · omega
    · exact ⟨e, he, follows_of_stop hcall hstatus hpast⟩
  | succ missing ih =>
    intro out hlimit hm hpast
    rcases call_cases hm with
      ⟨leaf, next, hcall, -, hmax, hcur, hnext⟩ | ⟨e, last, hcall, he, rfl, hstatus⟩
    · have hbefore : before see m (out ++ [leaf]).length = next := by
        rw [List.length_append, List.length_singleton, before, hcall]
      refine ih (out ++ [leaf]) ?_ (hbefore.symm ▸ hnext) fun n l hl => ?_
      · rw [hbefore, hmax, List.length_append, List.length_singleton]
        omega
      · rcases Nat.lt_or_ge n out.length with hlt | hge
        · exact hpast n l (by rwa [List.getElem?_append_left hlt] at hl)
        · -- the call just made
          rw [List.getElem?_append_right hge] at hl
          have hone : n - out.length < 1 := (List.getElem?_eq_some_iff.1 hl).1
          obtain rfl : n = out.length := by omega
          obtain rfl : leaf = l := by simpa using hl
          have hnow : before see m (out.length + 1) = next := by rw [before, hcall]
          exact ⟨by rw [answer, hcall], by rw [hnow, hcur], by rw [hnow, hnext.running]⟩
    · exact ⟨e, he, follows_of_stop hcall hstatus hpast⟩

/-- **The calls of a new machine follow the course of the program.**  Whatever each call sees and
whatever the limit is, the program has exactly one ending, and the calls hand out its leaves, one each,
and then stop in its status. -/
theorem create_follows_course (program : Program) (maxSteps : Int) (sights : Nat → Sight) :
    ∃ e, (∀ e', Program.course (fun n => (sights n).holds) maxSteps program [] e' ↔ e' = e) ∧
      Follows (fun n => (sights n).holds) (create program maxSteps) e := by
  have hrest : stackRest (fun n => (sights n).holds) maxSteps [.block program 0] []
      = Program.course (fun n => (sights n).holds) maxSteps program [] := by
    rw [stackRest, stackRest, frameRest, then_skip, List.drop_zero]
  have hstart : Suspended (fun n => (sights n).holds)
      (Program.course (fun n => (sights n).holds) maxSteps program []) []
      (before (fun n => (sights n).holds) (create program maxSteps) 0) := ⟨rfl, rfl, hrest⟩
  have hlimit : (before (fun n => (sights n).holds) (create program maxSteps) 0).maxSteps
      ≤ ([] : List Leaf).length + (maxSteps.toNat : Int) := by
    show maxSteps ≤ ((0 : Nat) : Int) + (maxSteps.toNat : Int)
    omega
  obtain ⟨e, he, hf⟩ := follows_of_suspended maxSteps.toNat [] hlimit hstart (by simp)
  exact ⟨e, fun e' => by rw [he], hf⟩

end Machine

end RobotPuzzle
