/-
  Whether a loop that waits for its condition begins a pass against it.

  1. **Within a call** — `Comes see steps stack later` says that the moves of a call lead from the one stack
     to the other.  What the call makes of the one it makes of the other (`Comes.run_eq`).
  2. **The top frame** — a frame is at its first node only if it has just been pushed or has begun anew, for
     every frame below another has entered a node.  A loop is pushed, and begins anew, only when its
     condition has just been found not to hold (`unmet_of_move`).
  3. **Across calls** — only one move leaves a loop at its first node for the next call: the wait at the end
     of a pass without actions (`Waits`, `waits_of_poised`).  The condition was asked in the call that
     hands out the wait, and the next call does not ask it again before the body begins.
  4. So a pass begins against its condition exactly behind such a wait, if the condition has come to hold
     meanwhile (`begins_against_iff`).  It can happen (`not_guarded_resumed`).

  The crux is to tell the two ways to a first node apart by the place of a frame alone.  Whoever lies
  below another frame is behind its first node, and so is whoever has handed out an action; so a waiting
  loop that a call finds at its first node can only be one whose own wait came out in the call before.  No
  history of the loop has to be kept for this.

  `Begins` is about a call on its way, `Waits` about the call before; so that a pass begins against its
  condition can be foretold from what the call before has done.  The second half compares the loop with
  one that has its wait written out.  The two are alike as long as the condition does not change in the
  one moment between the calls, and the example has just such a change.
-/
import RobotPuzzle.Proofs.Effort
import RobotPuzzle.Proofs.Limits

namespace RobotPuzzle

namespace Machine

/-! ## Within a call

  `Comes` is the reflexive and transitive closure of the moves that go on, read from the end, so that the
  last move before a stack can be looked at (`comes_cases`). -/

/-- The moves of a call lead from the first stack to the second. -/
inductive Comes (see : Condition → Bool) (steps : Nat) (stack : List Frame) : List Frame → Prop
  /-- no move at all -/
  | here : Comes see steps stack stack
  /-- one move more -/
  | next {top : Frame} {below later : List Frame} (before : Comes see steps stack (top :: below))
      (h : move see steps below top = .next later) : Comes see steps stack later

section Comes

variable {see : Condition → Bool} {steps : Nat} {top : Frame} {below stack later : List Frame}
  {leaf : Leaf} {program : Program}

/-- A move that goes on is the first of the call, and the call is what comes of the stack behind it. -/
theorem run_of_next (h : move see steps below top = .next stack) :
    run see steps (top :: below) = run see steps stack := by
  rw [run]
  split
  · rename_i other leaf hm
    rw [h] at hm
    cases hm
  · rename_i other hm
    rw [h] at hm
    cases hm
    rfl

/-- A move that hands out a leaf is the whole call. -/
theorem run_of_leaf (h : move see steps below top = .leaf stack leaf) :
    run see steps (top :: below) = .leaf stack leaf := by
  rw [run]
  split
  · rename_i other leaf' hm
    rw [h] at hm
    cases hm
    rfl
  · rename_i other hm
    rw [h] at hm
    cases hm

/-- What a call makes of a stack it makes of every stack that it comes to. -/
theorem Comes.run_eq (h : Comes see steps stack later) :
    run see steps stack = run see steps later := by
  induction h with
  | here => rfl
  | next _ hm ih => rw [ih, run_of_next hm]

theorem Comes.nested (h : Comes see steps stack later) (hs : Nested program stack) :
    Nested program later := by
  induction h with
  | here => exact hs
  | next _ hm ih =>
    have hmove := nested_move see steps ih
    rwa [hm] at hmove

/-- A stack that a call comes to is the one it began with, or there was a last move. -/
theorem comes_cases (h : Comes see steps stack later) :
    later = stack ∨ ∃ top below, Comes see steps stack (top :: below) ∧
      move see steps below top = .next later := by
  cases h with
  | here => exact Or.inl rfl
  | next before hm => exact Or.inr ⟨_, _, before, hm⟩

/-- One move in front: what is reached from behind a move is reached from before it. -/
theorem Comes.behind (hm : move see steps below top = .next stack)
    (h : Comes see steps stack later) : Comes see steps (top :: below) later := by
  induction h with
  | here => exact .next .here hm
  | next _ hm' ih => exact .next ih hm'

/-- The leaf of a call is that of its last move.  The induction is that of `run`, and what is reached
behind the first move is reached from the start. -/
theorem comes_of_run (h : run see steps stack = .leaf later leaf) :
    ∃ top below, Comes see steps stack (top :: below) ∧
      move see steps below top = .leaf later leaf := by
  induction hn : stackWork steps stack using Nat.strongRecOn generalizing stack with
  | _ n ih =>
    cases stack with
    | nil =>
      rw [run] at h
      cases h
    | cons top below =>
      cases hm : move see steps below top with
      | leaf other leaf' =>
        rw [run_of_leaf hm] at h
        cases h
        exact ⟨top, below, .here, hm⟩
      | next mid =>
        rw [run_of_next hm] at h
        -- the work has become less, and the leaf is that of the run from there
        obtain ⟨last, rest, hcomes, hlast⟩ := ih _ (hn ▸ move_work hm) h rfl
        exact ⟨last, rest, hcomes.behind hm, hlast⟩

end Comes

/-! ## The top frame

  The lemmas look at one move and ask when it leaves a waiting loop on top, at its first node.  It has
  pushed the loop, or the loop has begun a new pass without a wait; in both cases the condition was asked
  in this very move. -/

/-- The condition that a frame waits for. -/
def frameCondition : Frame → Option Condition
  | .loopUntil c _ _ _ _ => some c
  | _ => none

section Top

variable {see : Condition → Bool} {steps : Nat} {top frame : Frame} {below stack : List Frame}
  {node : Node} {leaf : Leaf} {program : Program}

/-- Every frame below another one has entered a node, so it is not at its first. -/
theorem Nested.frameIndex_ne (h : Nested program (top :: frame :: below)) : frameIndex frame ≠ 0 := by
  cases h with
  | inside hin _ _ =>
    obtain ⟨k, hk, -⟩ := hin
    omega

/-- A node is passed over, or it pushes a frame; and a loop is pushed only if its condition does not
hold. -/
theorem enter_cases (h : enter see steps below node = .next stack) :
    stack = below ∨ ∃ pushed, stack = pushed :: below ∧
      ∀ c, frameCondition pushed = some c → see c = false := by
  cases node with
  | action action blockId => cases h
  | loop count body blockId =>
    simp only [enter, Move.next.injEq] at h
    split at h
    · exact Or.inr ⟨_, h.symm, fun d hd => by cases hd⟩
    · exact Or.inl h.symm
  | loopUntil c body blockId =>
    simp only [enter, Move.next.injEq] at h
    split at h
    · exact Or.inl h.symm
    · -- of all nodes only this loop has a condition in its frame, and it is not entered if that
      -- holds
      rename_i hc
      refine Or.inr ⟨_, h.symm, fun d hd => ?_⟩
      cases hd
      exact Bool.eq_false_iff.2 hc
  | ifThen c body blockId =>
    simp only [enter, Move.next.injEq] at h
    split at h
    · exact Or.inr ⟨_, h.symm, fun d hd => by cases hd⟩
    · exact Or.inl h.symm
  | ifElse c body other blockId =>
    simp only [enter, Move.next.injEq] at h
    generalize (if see c = true then body else other) = branch at h
    split at h
    · exact Or.inl h.symm
    · exact Or.inr ⟨_, h.symm, fun d hd => by cases hd⟩

/-- Entering a node from behind the first place leaves a loop at its first node only if it has pushed it.
-/
theorem unmet_of_enter (h : enter see steps (top :: below) node = .next (frame :: stack))
    (htop : frameIndex top ≠ 0) (hfirst : frameIndex frame = 0) {c : Condition}
    (hc : frameCondition frame = some c) : see c = false := by
  rcases enter_cases h with hsame | ⟨pushed, hpushed, hunmet⟩
  · cases hsame
    exact absurd hfirst htop
  · cases hpushed
    exact hunmet c hc

/-- **One move**: if it goes on with a loop at its first node, the condition of the loop does not hold. -/
theorem unmet_of_move (hn : Nested program (top :: below))
    (h : move see steps below top = .next (frame :: stack)) (hfirst : frameIndex frame = 0)
    {c : Condition} (hc : frameCondition frame = some c) : see c = false := by
  -- a frame that comes to light has entered a node
  have hlower : below = frame :: stack → see c = false := by
    rintro rfl
    exact absurd hfirst hn.frameIndex_ne
  cases top with
  | block body index =>
    cases hnode : body[index]? with
    | none =>
      simp only [move, hnode, Move.next.injEq] at h
      exact hlower h
    | some node =>
      simp only [move, hnode] at h
      exact unmet_of_enter h (Nat.succ_ne_zero index) hfirst hc
  | loop body index remaining =>
    by_cases hr : remaining = 0
    · simp only [move, hr, if_true, Move.next.injEq] at h
      exact hlower h
    · cases hnode : body[index]? with
      | none =>
        simp only [move, hr, hnode, if_false, Move.next.injEq] at h
        split at h
        · exact hlower h
        · cases h
          cases hc
      | some node =>
        simp only [move, hr, hnode, if_false] at h
        exact unmet_of_enter h (Nat.succ_ne_zero index) hfirst hc
  | loopUntil d body blockId index mark =>
    cases hnode : body[index]? with
    | none =>
      simp only [move, hnode] at h
      split at h
      · simp only [Move.next.injEq] at h
        exact hlower h
      · rename_i hd
        split at h
        · cases h
        · cases h
          cases hc
          exact Bool.eq_false_iff.2 hd
    | some node =>
      simp only [move, hnode] at h
      exact unmet_of_enter h (Nat.succ_ne_zero index) hfirst hc

/-- A node that hands out a leaf leaves the stack alone. -/
theorem enter_leaf (h : enter see steps below node = .leaf stack leaf) : stack = below := by
  cases node with
  | action action blockId =>
    cases h
    rfl
  | loop count body blockId => cases h
  | loopUntil c body blockId => cases h
  | ifThen c body blockId => cases h
  | ifElse c body other blockId => cases h

/-- A leaf is an action, behind which the top frame has entered its node, or the wait of a loop at the end
of a pass in which no action has come out. -/
theorem move_leaf_cases (h : move see steps below top = .leaf stack leaf) :
    (∃ frame rest, stack = frame :: rest ∧ frameIndex frame ≠ 0) ∨
      ∃ c body blockId index, top = .loopUntil c body blockId index steps ∧ body[index]? = none ∧
        see c = false ∧ stack = .loopUntil c body blockId 0 (steps + 1) :: below := by
  cases top with
  | block body index =>
    cases hnode : body[index]? with
    | none =>
      simp only [move, hnode] at h
      cases h
    | some node =>
      simp only [move, hnode] at h
      exact Or.inl ⟨_, _, enter_leaf h, Nat.succ_ne_zero index⟩
  | loop body index remaining =>
    by_cases hr : remaining = 0
    · simp only [move, hr, if_true] at h
      cases h
    · cases hnode : body[index]? with
      | none =>
        simp only [move, hr, hnode, if_false] at h
        cases h
      | some node =>
        simp only [move, hr, hnode, if_false] at h
        exact Or.inl ⟨_, _, enter_leaf h, Nat.succ_ne_zero index⟩
  | loopUntil c body blockId index mark =>
    cases hnode : body[index]? with
    | none =>
      simp only [move, hnode] at h
      split at h
      · cases h
      · rename_i hc
        split at h
        · -- at the end of a pass the mark is still the number of steps: no action has come out of
          -- it
          rename_i hmark
          subst hmark
          cases h
          exact Or.inr ⟨c, body, blockId, index, rfl, hnode, Bool.eq_false_iff.2 hc, rfl⟩
        · cases h
    | some node =>
      simp only [move, hnode] at h
      exact Or.inl ⟨_, _, enter_leaf h, Nat.succ_ne_zero index⟩

end Top

/-! ## Across calls

  `Begins` and `Waits` say what happens in one call: that the call comes to the first node of the body,
  and that it ends in the wait of the loop.  Both name the frames below the loop, so that another loop
  with the same condition and body is not mistaken for it. -/

/-- In this call the machine comes to the first node of the body of the loop, above these frames. -/
def Begins (see : Condition → Bool) (m : Machine) (c : Condition) (body : List Node) (blockId : Json)
    (below : List Frame) : Prop :=
  m.status = .running ∧ body ≠ [] ∧
    ∃ mark, Comes see m.steps m.stack (.loopUntil c body blockId 0 mark :: below)

/-- In this call a pass of the loop, above these frames, comes to its end without an action, the condition
does not hold, and the wait of the loop is handed out. -/
structure Waits (see : Condition → Bool) (m : Machine) (c : Condition) (body : List Node)
    (blockId : Json) (index : Nat) (below : List Frame) : Prop where
  /-- the machine has not stopped -/
  running : m.status = .running
  /-- the moves of the call lead to the loop, and its pass has begun in this call's steps -/
  comes : Comes see m.steps m.stack (.loopUntil c body blockId index m.steps :: below)
  /-- the loop is behind its last node -/
  ended : body[index]? = none
  /-- its condition does not hold -/
  unmet : see c = false
  /-- and one action more is allowed -/
  room : (m.steps : Int) < m.maxSteps

/-- The machine that has handed out a wait and goes on with that stack. -/
def waited (m : Machine) (blockId : Json) (stack : List Frame) : Machine :=
  { m with stack, steps := m.steps + 1, current := some { action := .wait, blockId } }

section Waits

variable {see : Condition → Bool} {m : Machine} {c : Condition} {body : List Node} {blockId : Json}
  {index : Nat} {below : List Frame}

/-- Behind its wait the loop is at its first node again. -/
theorem Waits.call_eq (h : Waits see m c body blockId index below) :
    m.call see
      = (m.waited blockId (.loopUntil c body blockId 0 (m.steps + 1) :: below), some .wait) := by
  have hmove : move see m.steps below (.loopUntil c body blockId index m.steps)
      = .leaf (.loopUntil c body blockId 0 (m.steps + 1) :: below) { action := .wait, blockId } := by
    simp only [move, h.ended, h.unmet, Bool.false_eq_true, if_false, if_true]
  exact call_of_lt h.running (h.comes.run_eq.trans (run_of_leaf hmove)) h.room

/-- A call that goes on with a loop at its first node has handed out the wait of that loop.  An action
leaves its frame behind a node, so of the two kinds of leaf only the wait remains. -/
theorem waits_of_poised (hrunning : (m.call see).1.status = .running) {mark : Nat}
    (hstack : (m.call see).1.stack = .loopUntil c body blockId 0 mark :: below) :
    ∃ index, Waits see m c body blockId index below := by
  rcases call_outcomes m see with
    ⟨hr, hcall⟩ | ⟨-, -, hcall⟩ | ⟨hr, stack, leaf, hrun, ⟨hlt, hcall⟩ | ⟨-, hcall⟩⟩
  · rw [hcall] at hrunning
    exact absurd hrunning hr
  · rw [hcall] at hrunning
    cases hrunning
  · rw [hcall] at hstack
    obtain ⟨top, rest, hcomes, hmove⟩ := comes_of_run hrun
    rcases move_leaf_cases hmove with
      ⟨frame, others, rfl, hentered⟩ | ⟨d, body', id, index, rfl, hover, hunmet, rfl⟩
    · cases hstack
      -- an action leaves its frame behind its node, but this one is at its first node
      exact absurd rfl hentered
    · cases hstack
      exact ⟨index, hr, hcomes, hover, hunmet, hlt⟩
  · rw [hcall] at hrunning
    cases hrunning

/-! ## A wait that is written

  To say that the wait of a loop is not like a written one, the written one has to be built: `spelledOut`
  is the same machine with a branch on top that has nothing but the wait in it. -/

/-- The machine at the end of that pass, with a wait written at the end of the body. -/
def spelledOut (m : Machine) (c : Condition) (body : List Node) (blockId : Json) (index : Nat)
    (below : List Frame) : Machine :=
  { m with stack := .block [.action .wait blockId] 0 :: .loopUntil c body blockId index m.steps ::
      below }

/-- How the wait of a loop compares with a wait written at the end of its body, where the condition is asked
behind the wait. -/
structure Resembles (see : Condition → Bool) (m written : Machine) (c : Condition) (body : List Node)
    (below : List Frame) : Prop where
  /-- both hand out a wait -/
  waits : (m.call see).2 = some .wait ∧ (written.call see).2 = some .wait
  /-- if the condition does not hold in the next call, or the body is empty, both go on alike -/
  alike : ∀ later : Condition → Bool, later c = false ∨ body = [] →
    (m.call see).1.call later = (written.call see).1.call later
  /-- and if it holds, behind the written wait the loop is over -/
  ends : ∀ later : Condition → Bool, later c = true →
    (written.call see).1.call later = ({ (m.call see).1 with stack := below } : Machine).call later

/-- The next call depends on the stack only through what comes of it. -/
theorem waited_call (hr : m.status = .running) {later : Condition → Bool} {stack other : List Frame}
    (hrun : run later (m.steps + 1) stack = run later (m.steps + 1) other) :
    (m.waited blockId stack).call later = (m.waited blockId other).call later := by
  unfold call waited
  dsimp only
  rw [if_pos hr, if_pos hr, hrun]

/-- The two hand out the same wait and then differ in one point only.  Behind the written wait the pass is
at its end, so the condition is asked; behind the wait of the loop the pass begins. -/
theorem Waits.resembles (h : Waits see m c body blockId index below) :
    Resembles see m (m.spelledOut c body blockId index below) c body below := by
  have hwritten : (m.spelledOut c body blockId index below).call see
      = (m.waited blockId (.block [.action .wait blockId] 1 ::
          .loopUntil c body blockId index m.steps :: below), some .wait) :=
    call_of_lt (m := m.spelledOut c body blockId index below) h.running (run_of_leaf rfl) h.room
  -- behind the written wait the pass is at its end, and the wait counts as its action
  have hasked : ∀ later : Condition → Bool,
      run later (m.steps + 1) (.block [.action .wait blockId] 1 ::
          .loopUntil c body blockId index m.steps :: below)
        = if later c then run later (m.steps + 1) below
          else run later (m.steps + 1) (.loopUntil c body blockId 0 (m.steps + 1) :: below) := by
    intro later
    rw [run_of_next rfl]
    cases hc : later c with
    | true =>
      have hmove : move later (m.steps + 1) below (.loopUntil c body blockId index m.steps)
          = .next below := by
        simp only [move, h.ended, hc, if_true]
      rw [run_of_next hmove, if_pos rfl]
    | false =>
      have hmove : move later (m.steps + 1) below (.loopUntil c body blockId index m.steps)
          = .next (.loopUntil c body blockId 0 (m.steps + 1) :: below) := by
        simp only [move, h.ended, hc, Bool.false_eq_true, if_false, (Nat.succ_ne_self m.steps).symm]
      rw [run_of_next hmove, if_neg Bool.false_ne_true]
  refine ⟨⟨by rw [h.call_eq], by rw [hwritten]⟩, fun later hlater => ?_, fun later hc => ?_⟩
  · rw [h.call_eq, hwritten]
    refine waited_call h.running ?_
    rw [hasked]
    cases hc : later c with
    | false => rw [if_neg Bool.false_ne_true]
    | true =>
      -- an empty body has no first node, and so the condition is asked at once
      obtain rfl : body = [] := hlater.resolve_left fun hfalse => by
        rw [hc] at hfalse
        cases hfalse
      have hmove : move later (m.steps + 1) below (.loopUntil c [] blockId 0 (m.steps + 1))
          = .next below := by
        simp only [move, List.getElem?_nil, hc, if_true]
      rw [run_of_next hmove, if_pos rfl]
  · rw [h.call_eq, hwritten]
    exact waited_call h.running ((hasked later).trans (if_pos hc))

end Waits

/-! ## Runs

  All of this is about a single call of any machine.  What makes it a statement about programs is that the
  machine before every call is nested (`nested_before`), which the first direction needs. -/

/-- **When a pass begins against its condition.**  A call comes to the first node of a loop although the
condition of the loop holds, exactly if the call before has handed out the wait of that loop and the
condition has come to hold meanwhile; whatever else leads to the first node, the condition has been asked
in the same call.  So the wait of a loop is like one written at the end of the body and followed by the
question, as long as the condition does not come to hold with the next call. -/
theorem begins_against_iff (program : Program) (maxSteps : Int) (sights : Nat → Sight) (n : Nat)
    (c : Condition) (body : List Node) (blockId : Json) (below : List Frame) :
    let m := before (fun k => (sights k).holds) (create program maxSteps)
    (Begins (sights n).holds (m n) c body blockId below ∧ (sights n).holds c = true ↔
      body ≠ [] ∧ (sights n).holds c = true ∧
        ∃ k index, n = k + 1 ∧ Waits (sights k).holds (m k) c body blockId index below) ∧
      ∀ index, Waits (sights n).holds (m n) c body blockId index below →
        Resembles (sights n).holds (m n) ((m n).spelledOut c body blockId index below) c body
          below := by
  intro m
  refine ⟨⟨?_, ?_⟩, fun index h => h.resembles⟩
  · rintro ⟨⟨hrunning, hbody, mark, hcomes⟩, hc⟩
    refine ⟨hbody, hc, ?_⟩
    have hnested : Nested program (m n).stack := nested_before _ (.lowest 0) n
    -- the loop was there at the beginning of the call, or a move of this call has put it there
    rcases comes_cases hcomes with hstack | ⟨top, rest, hbefore, hmove⟩
    · cases n with
      | zero => cases hstack
      | succ k =>
        obtain ⟨index, hwaits⟩ := waits_of_poised hrunning hstack.symm
        exact ⟨k, index, rfl, hwaits⟩
    · -- a move puts a loop at its first node only after asking its condition
      rw [unmet_of_move (hbefore.nested hnested) hmove rfl rfl] at hc
      cases hc
  · rintro ⟨hbody, hc, k, index, rfl, hwaits⟩
    -- the call before has left the loop at its first node
    have hnext : m (k + 1) = _ := congrArg Prod.fst hwaits.call_eq
    refine ⟨⟨?_, hbody, (m k).steps + 1, ?_⟩, hc⟩
    · rw [hnext]
      exact hwaits.running
    · rw [hnext]
      exact .here

/-- Goes forward if the signal is on. -/
def ifSignal : List Node := [.ifThen (.primitive .globalSignalOn) [.act .moveForward] .null]

/-- Goes forward if the signal is on, until the signal is on. -/
def unlessSignal : Program := [.loopUntil (.primitive .globalSignalOn) ifSignal .null]

/-- In a call without the signal the body is passed over, and the loop waits. -/
theorem unlessSignal_waits :
    Waits (signalFrom 1 0).holds (create unlessSignal 9) (.primitive .globalSignalOn) ifSignal .null 1
      [.block unlessSignal 1] :=
  ⟨rfl, .next (.next .here rfl) rfl, rfl, rfl, by decide⟩

/-- The signal comes on behind that wait, and the next pass begins against it.  As long as the signal stays
off, the wait is like one written at the end of the body. -/
theorem begins_against_signal :
    Begins (signalFrom 1 1).holds
        (before (fun n => (signalFrom 1 n).holds) (create unlessSignal 9) 1)
        (.primitive .globalSignalOn) ifSignal .null [.block unlessSignal 1] ∧
      Resembles (signalFrom 1 0).holds (create unlessSignal 9)
        ((create unlessSignal 9).spelledOut (.primitive .globalSignalOn) ifSignal .null 1
          [.block unlessSignal 1])
        (.primitive .globalSignalOn) ifSignal [.block unlessSignal 1] := by
  have hfirst := begins_against_iff unlessSignal 9 (signalFrom 1) 0 (.primitive .globalSignalOn)
    ifSignal .null [.block unlessSignal 1]
  have hsecond := begins_against_iff unlessSignal 9 (signalFrom 1) 1 (.primitive .globalSignalOn)
    ifSignal .null [.block unlessSignal 1]
  exact ⟨(hsecond.1.2 ⟨List.cons_ne_nil _ _, rfl, 0, 1, rfl, unlessSignal_waits⟩).1,
    hfirst.2 1 unlessSignal_waits⟩

/-- The loop waits once, and then the signal comes on.  The next pass begins all the same, and the robot goes
forward; behind a written wait the program would have come to its end. -/
theorem not_guarded_resumed :
    ∃ body below,
      Begins (signalFrom 1 1).holds
        (before (fun n => (signalFrom 1 n).holds) (create unlessSignal 9) 1)
        (.primitive .globalSignalOn) body .null below ∧
      (signalFrom 1 1).holds (.primitive .globalSignalOn) = true ∧
      answer (fun n => (signalFrom 1 n).holds) (create unlessSignal 9) 0 = some .wait ∧
      answer (fun n => (signalFrom 1 n).holds) (create unlessSignal 9) 1 = some .moveForward ∧
      answer (fun n => (signalFrom 1 n).holds)
        (create [.loopUntil (.primitive .globalSignalOn) (body ++ [.act .wait]) .null] 9) 0
          = some .wait ∧
      (before (fun n => (signalFrom 1 n).holds)
        (create [.loopUntil (.primitive .globalSignalOn) (body ++ [.act .wait]) .null] 9) 2).status
          = .done := by
  have hnext : before (fun n => (signalFrom 1 n).holds) (create unlessSignal 9) 1 = _ :=
    congrArg Prod.fst unlessSignal_waits.call_eq
  refine ⟨ifSignal, [.block unlessSignal 1], ?_, rfl, by decide +kernel, by decide +kernel,
    by decide +kernel, by decide +kernel⟩
  rw [hnext]
  exact ⟨rfl, List.cons_ne_nil _ _, 1, .here⟩

end Machine

end RobotPuzzle
