/-
  How many moves a call takes.

  1. **Counting** — `Moves see steps n stack pause` says that exactly `n` moves lead from the stack to the
     pause.  Every stack has such a number, and it is at most the work that is left (`moves_run`).
  2. **Nesting** — every frame of a machine runs a body of the node that the frame below it is in
     (`Nested`).  A move keeps this, and so does a call (`nested_call`).
  3. **The tree sets the bound** — the work that is left grows with the depth of the stack, since each
     waiting loop may have to finish the pass it is in and make one whole pass more.  In a nested stack
     all of it together is bounded by a number of the program alone (`stackWork_le`).
  4. **Calls** — so no call, after any calls before it, takes more moves than that number, and each hands
     out an action or leaves the machine stopped (`calls_return`).

  The crux is that the measure by which a call ends is not the bound: `stackWork` of a given stack may be
  large only because the stack is.  So each frame is given an `effort` that does not depend on where it
  is, large enough for itself and for everything that can ever lie above it.  A frame that has entered a
  node has given up the work of that node, which leaves room in it for the effort of the node
  (`IsIn.effort_le`), and so the whole stack fits into the effort of its lowest frame.

  That a call returns is more than that `run` is a total function.  The bound is given by the program
  before the first call and holds for all later ones, whatever has been seen in the meantime; and that the
  moves are determined is what makes the number of them a number of the call.  `Course` and `Calls` say
  what comes of the moves, this module how many they are.
-/
import RobotPuzzle.Proofs.Calls

namespace RobotPuzzle

namespace Machine

/-! ## Counting

  The number of moves is told by a relation and not by a function, since `run` itself does not count.
  `moves_run` gives such a number and `Moves.unique` shows that there is no other, so the two together say
  that the call takes exactly so many moves and comes to exactly this pause. -/

/-- Exactly that many moves lead from the stack to the pause. -/
inductive Moves (see : Condition → Bool) (steps : Nat) : Nat → List Frame → Pause → Prop
  /-- an empty stack needs no move -/
  | finished : Moves see steps 0 [] .finished
  /-- the last move hands out a leaf -/
  | leaf {top : Frame} {below stack : List Frame} {leaf : Leaf}
      (h : move see steps below top = .leaf stack leaf) :
      Moves see steps 1 (top :: below) (.leaf stack leaf)
  /-- any other one leaves a stack to go on with -/
  | next {n : Nat} {top : Frame} {below stack : List Frame} {pause : Pause}
      (h : move see steps below top = .next stack) (rest : Moves see steps n stack pause) :
      Moves see steps (n + 1) (top :: below) pause

/-- A frame always costs a move, if only the one that takes it away. -/
theorem frameWork_pos (steps : Nat) (frame : Frame) : 0 < frameWork steps frame := by
  cases frame with
  | block body index => exact Nat.succ_pos _
  | loop body index remaining =>
    show 0 < bodyWork (body.drop index) + 1 + (remaining - 1) * (bodyWork body + 1)
    omega
  | loopUntil c body blockId index mark =>
    show 0 < bodyWork (body.drop index) + 1 + if mark = steps then 0 else bodyWork body + 1
    omega

section Moves

variable {see : Condition → Bool} {steps : Nat}

/-- A call pauses after some number of moves, and the work that is left at its start bounds them.  The
induction is that of `run`: a move takes something off the work, which pays for it. -/
theorem moves_run (see : Condition → Bool) (steps : Nat) (stack : List Frame) :
    ∃ n ≤ stackWork steps stack, Moves see steps n stack (run see steps stack) := by
  fun_induction run see steps stack with
  | case1 => exact ⟨0, Nat.zero_le _, .finished⟩
  | case2 top below stack leaf h =>
    have hpos := frameWork_pos steps top
    refine ⟨1, ?_, .leaf h⟩
    rw [stackWork]
    omega
  | case3 top below stack h hless ih =>
    obtain ⟨n, hn, hmoves⟩ := ih
    exact ⟨n + 1, by omega, .next h hmoves⟩

/-- The number of moves and the pause are determined, since a move is a function of the top frame and what
is seen. -/
theorem Moves.unique {n m : Nat} {stack : List Frame} {pause other : Pause}
    (h : Moves see steps n stack pause) (h' : Moves see steps m stack other) :
    m = n ∧ other = pause := by
  induction h generalizing m with
  | finished =>
    cases h'
    exact ⟨rfl, rfl⟩
  | leaf h =>
    cases h' with
    | leaf h' =>
      -- a leaf on one side is the same leaf on the other, or nothing
      rw [h] at h'
      cases h'
      exact ⟨rfl, rfl⟩
    | next h' _ =>
      rw [h] at h'
      cases h'
  | next h _ ih =>
    cases h' with
    | leaf h' =>
      rw [h] at h'
      cases h'
    | next h' rest' =>
      rw [h] at h'
      cases h'
      obtain ⟨rfl, rfl⟩ := ih rest'
      exact ⟨rfl, rfl⟩

end Moves

/-! ## Nesting

  That the stack of a machine mirrors the tree of its program is not needed for a call to end, but it is
  for every bound that speaks of the program alone.  `IsIn` looks one place back, since a frame goes past
  a node when it enters it. -/

/-- The frame runs a body of the node. -/
inductive Runs : Node → Frame → Prop
  /-- a counted loop runs its body, with rounds to go -/
  | loop {count remaining index : Nat} {body : List Node} {blockId : Json} (h : remaining ≤ count) :
      Runs (.loop count body blockId) (.loop body index remaining)
  /-- a waiting loop runs its body -/
  | loopUntil {c : Condition} {body : List Node} {blockId : Json} {index mark : Nat} :
      Runs (.loopUntil c body blockId) (.loopUntil c body blockId index mark)
  /-- a branch that was taken -/
  | ifThen {c : Condition} {body : List Node} {blockId : Json} {index : Nat} :
      Runs (.ifThen c body blockId) (.block body index)
  /-- the first of two branches -/
  | ifHolds {c : Condition} {body other : List Node} {blockId : Json} {index : Nat} :
      Runs (.ifElse c body other blockId) (.block body index)
  /-- the second one -/
  | ifNot {c : Condition} {body other : List Node} {blockId : Json} {index : Nat} :
      Runs (.ifElse c body other blockId) (.block other index)

/-- The body that a frame runs. -/
def frameBody : Frame → List Node
  | .block body _ => body
  | .loop body _ _ => body
  | .loopUntil _ body _ _ _ => body

/-- The position in that body. -/
def frameIndex : Frame → Nat
  | .block _ index => index
  | .loop _ index _ => index
  | .loopUntil _ _ _ index _ => index

/-- The frame is in the node: the node is the last one that it has entered. -/
def IsIn (frame : Frame) (node : Node) : Prop :=
  ∃ k, frameIndex frame = k + 1 ∧ (frameBody frame)[k]? = some node

/-- The frames lie inside each other, and the lowest one runs the program. -/
inductive Nested (program : Program) : List Frame → Prop
  /-- the program has come to its end -/
  | returned : Nested program []
  /-- only the program itself is running -/
  | lowest (index : Nat) : Nested program [.block program index]
  /-- a frame above another runs a body of the node that the other one is in -/
  | inside {top frame : Frame} {below : List Frame} {node : Node} (hin : IsIn frame node)
      (hruns : Runs node top) (hbelow : Nested program (frame :: below)) :
      Nested program (top :: frame :: below)

/-- The second frame runs the same body for the same node, with no more rounds to go. -/
inductive Onward : Frame → Frame → Prop
  /-- a block goes to another place -/
  | block (body : List Node) (index index' : Nat) : Onward (.block body index) (.block body index')
  /-- a counted loop has no more rounds than before -/
  | loop (body : List Node) (index index' : Nat) {remaining remaining' : Nat}
      (h : remaining' ≤ remaining) : Onward (.loop body index remaining) (.loop body index' remaining')
  /-- a waiting loop keeps its condition, and may begin another pass -/
  | loopUntil (c : Condition) (body : List Node) (blockId : Json) (index index' mark mark' : Nat) :
      Onward (.loopUntil c body blockId index mark) (.loopUntil c body blockId index' mark')

/-- The stack that a move leaves. -/
def Move.stack : Move → List Frame
  | .next stack => stack
  | .leaf stack _ => stack

section Nested

variable {program : Program} {see : Condition → Bool} {steps : Nat} {top frame : Frame}
  {below stack : List Frame} {node : Node}

/-- The node that a frame runs for stays the same as the frame goes on. -/
theorem Onward.runs (h : Onward top frame) (hruns : Runs node top) : Runs node frame := by
  cases h with
  | block =>
    cases hruns with
    | ifThen => exact .ifThen
    | ifHolds => exact .ifHolds
    | ifNot => exact .ifNot
  | loop _ _ _ hle =>
    cases hruns with
    | loop hcount => exact .loop (Nat.le_trans hle hcount)
  | loopUntil =>
    cases hruns
    exact .loopUntil

theorem Nested.lower (h : Nested program (top :: below)) : Nested program below := by
  cases h with
  | lowest => exact .returned
  | inside _ _ hbelow => exact hbelow

/-- The top frame may go on in its body: what is asked of it is only which node it runs for. -/
theorem Nested.onward (h : Nested program (top :: below)) (ho : Onward top frame) :
    Nested program (frame :: below) := by
  cases h with
  | lowest =>
    cases ho
    exact .lowest _
  | inside hin hruns hbelow => exact .inside hin (ho.runs hruns) hbelow

/-- What is pushed for a node runs one of its bodies.  A node that pushes nothing leaves the stack as it
is. -/
theorem nested_enter (h : Nested program (frame :: below)) (hin : IsIn frame node) :
    Nested program (enter see steps (frame :: below) node).stack := by
  cases node with
  | action action blockId => exact h
  | loop count body blockId =>
    -- whether something is pushed is asked node by node
    show Nested program (if 0 < count then _ else _)
    split
    · exact .inside hin (.loop (Nat.le_refl count)) h
    · exact h
  | loopUntil c body blockId =>
    show Nested program (if see c then _ else _)
    split
    · exact h
    · exact .inside hin .loopUntil h
  | ifThen c body blockId =>
    show Nested program (if see c && !body.isEmpty then _ else _)
    split
    · exact .inside hin .ifThen h
    · exact h
  | ifElse c body other blockId =>
    cases hc : see c with
    | true =>
      simp only [enter, hc, if_true]
      show Nested program (if body.isEmpty then _ else _)
      split
      · exact h
      · exact .inside hin .ifHolds h
    | false =>
      simp only [enter, hc, Bool.false_eq_true, if_false]
      show Nested program (if other.isEmpty then _ else _)
      split
      · exact h
      · exact .inside hin .ifNot h

/-- A move leaves the frames nested: it takes the top frame away, begins it anew with no more rounds than
before, or has it enter the node at its place. -/
theorem nested_move (see : Condition → Bool) (steps : Nat) (h : Nested program (top :: below)) :
    Nested program (move see steps below top).stack := by
  cases top with
  | block body index =>
    cases hn : body[index]? with
    | none =>
      simp only [move, hn]
      exact h.lower
    | some node =>
      simp only [move, hn]
      exact nested_enter (h.onward (.block body index (index + 1))) ⟨index, rfl, hn⟩
  | loop body index remaining =>
    by_cases hr : remaining = 0
    · simp only [move, hr, if_true]
      exact h.lower
    · cases hn : body[index]? with
      | none =>
        simp only [move, hr, hn, if_false]
        -- the end of a pass: the last one leaves the loop, and any other one counts down
        show Nested program (if remaining ≤ 1 then _ else _)
        split
        · exact h.lower
        · exact h.onward (.loop body index 0 (Nat.sub_le remaining 1))
      | some node =>
        simp only [move, hr, hn, if_false]
        exact nested_enter (h.onward (.loop body index (index + 1) (Nat.le_refl _)))
          ⟨index, rfl, hn⟩
  | loopUntil c body blockId index mark =>
    cases hn : body[index]? with
    | none =>
      simp only [move, hn]
      split
      · exact h.lower
      · split
        · -- a pass without any leaf sets its mark behind the pause that follows
          exact h.onward (.loopUntil c body blockId index 0 mark (steps + 1))
        · exact h.onward (.loopUntil c body blockId index 0 mark steps)
    | some node =>
      simp only [move, hn]
      exact nested_enter (h.onward (.loopUntil c body blockId index (index + 1) mark mark))
        ⟨index, rfl, hn⟩

/-- So the stack that a call leaves behind its leaf is nested, by induction on the moves. -/
theorem Moves.nested {n : Nat} {pause : Pause} (h : Moves see steps n stack pause)
    (hs : Nested program stack) : ∀ rest leaf, pause = .leaf rest leaf → Nested program rest := by
  induction h with
  | finished =>
    intro rest leaf hp
    cases hp
  | leaf h =>
    intro rest leaf hp
    cases hp
    have hmove := nested_move see steps hs
    rwa [h] at hmove
  | next h _ ih =>
    have hmove := nested_move see steps hs
    rw [h] at hmove
    exact ih hmove

/-- A call leaves the frames nested. -/
theorem nested_call {m : Machine} (h : Nested program m.stack) :
    Nested program (m.call see).1.stack := by
  obtain ⟨n, -, hmoves⟩ := moves_run see m.steps m.stack
  unfold call
  split
  · cases hrun : run see m.steps m.stack with
    | finished => exact .returned
    | leaf stack leaf =>
      have hstack : Nested program stack := hmoves.nested h stack leaf hrun
      dsimp only
      split
      · exact hstack
      · exact hstack
  · exact h

/-- And it is so before every call of a machine that begins with a nested stack. -/
theorem nested_before (see : Nat → Condition → Bool) {m : Machine} (h : Nested program m.stack)
    (n : Nat) : Nested program (before see m n).stack := by
  induction n with
  | zero => exact h
  | succ n ih => exact nested_call ih

end Nested

/-! ## The tree sets the bound

  `effort` counts every body of a node once in full, besides the rounds and passes of its loops.  The part
  for the body is what is lent to the frames above while the frame is inside of it. -/

mutual

/-- An upper bound for the moves within one call of a frame that runs a body of the node, and of all
frames above it, wherever they are. -/
def Node.effort : Node → Nat
  | .action _ _ => 1
  | .loop count body _ => bodyEffort body + count * (bodyWork body + 1) + 1
  | .loopUntil _ body _ => bodyEffort body + bodyWork body + 2
  | .ifThen _ body _ => bodyEffort body + 2
  | .ifElse _ body other _ => bodyEffort body + bodyEffort other + 2

def bodyEffort : List Node → Nat
  | [] => 0
  | n :: rest => Node.effort n + bodyEffort rest

end

mutual

/-- What a node takes from its start on is no more than that. -/
theorem Node.work_le_effort : ∀ node : Node, Node.work node ≤ Node.effort node
  | .action _ _ => Nat.le_refl 1
  | .loop count body _ => by
    rw [Node.work, Node.effort]
    omega
  | .loopUntil _ body _ => by
    rw [Node.work, Node.effort]
    omega
  | .ifThen _ body _ => by
    have hbody := bodyWork_le_effort body
    rw [Node.work, Node.effort]
    omega
  | .ifElse _ body other _ => by
    have hbody := bodyWork_le_effort body
    have hother := bodyWork_le_effort other
    rw [Node.work, Node.effort]
    omega

theorem bodyWork_le_effort : ∀ body : List Node, bodyWork body ≤ bodyEffort body
  | [] => Nat.le_refl 0
  | node :: rest => by
    have hnode := Node.work_le_effort node
    have hrest := bodyWork_le_effort rest
    rw [bodyWork, bodyEffort]
    omega

end

section Effort

variable {program : Program} {steps : Nat} {top frame : Frame} {below : List Frame} {node : Node}

theorem bodyEffort_drop {body : List Node} {index : Nat} (h : body[index]? = some node) :
    bodyEffort (body.drop index) = Node.effort node + bodyEffort (body.drop (index + 1)) := by
  obtain ⟨hlt, rfl⟩ := List.getElem?_eq_some_iff.1 h
  rw [List.drop_eq_getElem_cons hlt, bodyEffort]

/-- Going on in a body never adds to it. -/
theorem bodyEffort_drop_le (body : List Node) (index : Nat) :
    bodyEffort (body.drop index) ≤ bodyEffort body := by
  induction index with
  | zero => exact Nat.le_refl _
  | succ index ih =>
    cases hn : body[index]? with
    | none =>
      rw [List.drop_eq_nil_of_le (Nat.le_succ_of_le (List.getElem?_eq_none_iff.1 hn))]
      exact Nat.zero_le _
    | some node =>
      rw [bodyEffort_drop hn] at ih
      omega

/-- What a frame and all frames above it can take, wherever they are. -/
def frameEffort : Frame → Nat
  | .block body _ => bodyEffort body + 1
  | .loop body _ remaining => bodyEffort body + 1 + (remaining - 1) * (bodyWork body + 1)
  | .loopUntil _ body _ _ _ => bodyEffort body + 1 + (bodyWork body + 1)

/-- A frame takes what is left of its body and a part that does not depend on where it is.  It is stated
as a sum on both sides, so that the nodes before the present place can be used up for what lies above. -/
theorem frameWork_le (steps : Nat) (frame : Frame) :
    frameWork steps frame + bodyEffort (frameBody frame)
      ≤ bodyWork ((frameBody frame).drop (frameIndex frame)) + frameEffort frame := by
  cases frame with
  | block body index =>
    simp only [frameWork, frameBody, frameIndex, frameEffort]
    omega
  | loop body index remaining =>
    simp only [frameWork, frameBody, frameIndex, frameEffort]
    omega
  | loopUntil c body blockId index mark =>
    simp only [frameWork, frameBody, frameIndex, frameEffort]
    split
    · omega
    · omega

theorem frameWork_le_effort (steps : Nat) (frame : Frame) :
    frameWork steps frame ≤ frameEffort frame := by
  have hframe := frameWork_le steps frame
  have hrest := bodyWork_le_effort ((frameBody frame).drop (frameIndex frame))
  have hdrop := bodyEffort_drop_le (frameBody frame) (frameIndex frame)
  omega

/-- A frame that runs a body of a node fits into the effort of the node.  For a counted loop this needs
that no more rounds are left than the node has. -/
theorem Runs.effort_le (h : Runs node frame) : frameEffort frame ≤ Node.effort node := by
  cases h with
  | @loop count remaining index body blockId hle =>
    -- the rounds that come after this one are fewer than those of the node
    have hrounds : (remaining - 1) * (bodyWork body + 1) ≤ count * (bodyWork body + 1) :=
      Nat.mul_le_mul_right _ (by omega)
    rw [frameEffort, Node.effort]
    omega
  | loopUntil =>
    rw [frameEffort, Node.effort]
    omega
  | ifThen =>
    rw [frameEffort, Node.effort]
    omega
  | ifHolds =>
    rw [frameEffort, Node.effort]
    omega
  | ifNot =>
    rw [frameEffort, Node.effort]
    omega

/-- A frame leaves room for the node that it is in: the work of the nodes behind its place and the effort
of this node are both part of the effort of its body. -/
theorem IsIn.effort_le (h : IsIn frame node) (steps : Nat) :
    frameWork steps frame + Node.effort node ≤ frameEffort frame := by
  obtain ⟨k, hindex, hnode⟩ := h
  have hframe := frameWork_le steps frame
  have hrest := bodyWork_le_effort ((frameBody frame).drop (k + 1))
  have hdrop := bodyEffort_drop_le (frameBody frame) k
  rw [hindex] at hframe
  rw [bodyEffort_drop hnode] at hdrop
  omega

/-- Whatever has room in the top frame has room in the program.  The induction goes down the stack, and
what lies above a frame is one number. -/
theorem Nested.room {stack : List Frame} (h : Nested program stack) :
    ∀ top below, stack = top :: below → ∀ above, frameWork steps top + above ≤ frameEffort top →
      stackWork steps (top :: below) + above ≤ bodyEffort program + 1 := by
  induction h with
  | returned =>
    intro top below hs
    cases hs
  | lowest index =>
    intro top below hs above hroom
    cases hs
    exact hroom
  | @inside top frame below node hin hruns _ ih =>
    intro top' below' hs above hroom
    cases hs
    have hframe := hin.effort_le steps
    have htop := hruns.effort_le
    -- the work of the top frame and what lies above it have room in the effort of the node that the
    -- frame below has just entered
    have hlower := ih frame below rfl (frameWork steps top + above) (by omega)
    rw [stackWork]
    omega

/-- **The work of a nested stack** is bounded by the program, however deep the stack is.  The lowest frame
runs the program itself, and nothing lies above the top. -/
theorem stackWork_le {stack : List Frame} (h : Nested program stack) (steps : Nat) :
    stackWork steps stack ≤ bodyEffort program + 1 := by
  cases stack with
  | nil => exact Nat.zero_le _
  | cons top below => exact h.room top below rfl 0 (frameWork_le_effort steps top)

end Effort

/-! ## Calls -/

/-- A call hands out an action, or it leaves the machine stopped. -/
theorem call_answers (m : Machine) (see : Condition → Bool) :
    (∃ action, (m.call see).2 = some action) ∨ (m.call see).1.status ≠ .running := by
  by_cases hr : (m.call see).1.status = .running
  · exact Or.inl (Option.isSome_iff_exists.1 (call_running hr))
  · exact Or.inr hr

/-- **Every call returns.**  Take a machine at the start of any program, with any limit, and let it be
called any number of times, whatever each call sees.  Whatever the next call sees, it makes a number of
moves that the program alone bounds, it makes them in one way only, and then it hands out an action or
leaves the machine stopped. -/
theorem calls_return (program : Program) (maxSteps : Int) (sights : Nat → Sight) (n : Nat)
    (sight : Sight) :
    let m := before (fun k => (sights k).holds) (create program maxSteps) n
    (∃ moves ≤ bodyEffort program + 1,
      Moves sight.holds m.steps moves m.stack (run sight.holds m.steps m.stack) ∧
      ∀ others pause, Moves sight.holds m.steps others m.stack pause →
        others = moves ∧ pause = run sight.holds m.steps m.stack) ∧
      ((∃ action, (m.call sight.holds).2 = some action) ∨
        (m.call sight.holds).1.status ≠ .running) := by
  intro m
  have hnested : Nested program m.stack := nested_before _ (.lowest 0) n
  obtain ⟨moves, hle, hmoves⟩ := moves_run sight.holds m.steps m.stack
  have hbound := stackWork_le hnested m.steps
  exact ⟨⟨moves, Nat.le_trans hle hbound, hmoves, fun _ _ h => hmoves.unique h⟩,
    call_answers m sight.holds⟩

end Machine

end RobotPuzzle
