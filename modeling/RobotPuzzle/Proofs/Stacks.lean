/-
  The stack of a machine against the tree of its program.

  1. **Height** — `Program.nesting` counts how many bodies lie one within another.  In a nested stack every
     frame runs a body that lies deeper than the body of the frame below it, so the stack is no higher
     than that count allows (`Nested.length_le`).
  2. **Sound frames** — that a frame runs a node does not say how far it is.  In a `Sound` stack no frame is
     behind its body, no loop begins later than now, and above the program there is always something to
     run: a round of a counted loop, or a branch that is not empty.
  3. **Moves** — a move replaces the top frame, pushes one above it or takes it away, and each of these leaves
     the stack sound (`sound_move`).  A loop that waits begins its next pass one ahead of the present
     number of actions; so a stack from which a leaf has come out is sound at the next number.
  4. **Calls** — a call that hands out the leaf counts it, and the stack is sound at the steps of the machine.
     At the limit the leaf is not counted, but then the machine has stopped (`WellStacked.call`).

  The crux is at which number of actions a stack is sound.  A leaf is counted only after the move that
  hands it out, and the loop that hands out its wait marks its next pass with the number that is then
  reached.  So a move is judged at the number behind it (`Move.now`), and nothing has to be said about
  stacks in the middle of counting.

  `WellStacked` gathers all that can be said of a stack before a call: where its frames are, what they
  run, what rounds and marks they have, and how deep it is.  The depth is bounded by the nesting of the
  program, and the frames by the tree; so a machine takes as much room as its program does, whatever it
  sees.
-/
import RobotPuzzle.Proofs.Rechecks

namespace RobotPuzzle

/-! ## Height

  A frame runs a body that is a child of the node below it, so the nesting of the bodies falls strictly
  from the bottom to the top.  The induction keeps the sum of the top body's nesting and of the number of
  frames below it. -/

mutual

/-- How many bodies lie one within another in a node. -/
def Node.nesting : Node → Nat
  | .action _ _ => 0
  | .loop _ body _ => Program.nesting body + 1
  | .loopUntil _ body _ => Program.nesting body + 1
  | .ifThen _ body _ => Program.nesting body + 1
  | .ifElse _ body other _ => max (Program.nesting body) (Program.nesting other) + 1

/-- How many bodies lie one within another in a program. -/
def Program.nesting : List Node → Nat
  | [] => 0
  | n :: rest => max n.nesting (Program.nesting rest)

end

/-- A node of a body lies no deeper than the body allows. -/
theorem Program.nesting_le_of_mem {body : List Node} {node : Node} (h : node ∈ body) :
    node.nesting ≤ Program.nesting body := by
  induction body with
  | nil => cases h
  | cons first rest ih =>
    rw [Program.nesting]
    rcases List.mem_cons.1 h with rfl | h
    · exact Nat.le_max_left _ _
    · exact Nat.le_trans (ih h) (Nat.le_max_right _ _)

namespace Machine

section Height

variable {program : Program} {frame : Frame} {stack : List Frame} {node : Node}

/-- What is run for a node lies deeper than the node. -/
theorem Runs.nesting_lt (h : Runs node frame) : Program.nesting (frameBody frame) < node.nesting := by
  cases h with
  | loop => exact Nat.lt_succ_self _
  | loopUntil => exact Nat.lt_succ_self _
  | ifThen => exact Nat.lt_succ_self _
  | ifHolds => exact Nat.lt_succ_of_le (Nat.le_max_left _ _)
  | ifNot => exact Nat.lt_succ_of_le (Nat.le_max_right _ _)

theorem IsIn.nesting_le (h : IsIn frame node) : node.nesting ≤ Program.nesting (frameBody frame) := by
  obtain ⟨k, -, hnode⟩ := h
  exact Program.nesting_le_of_mem (List.mem_of_getElem? hnode)

/-- The nesting of the top body and the frames below it fit into the nesting of the program. -/
theorem Nested.nesting_add_length_le (h : Nested program stack) :
    ∀ top below, stack = top :: below →
      Program.nesting (frameBody top) + below.length ≤ Program.nesting program := by
  induction h with
  | returned =>
    intro top below hs
    cases hs
  | lowest index =>
    intro top below hs
    cases hs
    exact Nat.le_refl _
  | @inside top frame below node hin hruns _ ih =>
    intro top' below' hs
    cases hs
    -- a frame more, but a body that is nested less
    have hdeeper : Program.nesting (frameBody top) < Program.nesting (frameBody frame) :=
      Nat.lt_of_lt_of_le hruns.nesting_lt hin.nesting_le
    have hfit := ih frame below rfl
    rw [List.length_cons]
    omega

/-- **The height of a stack** is at most one more than the nesting of the program: a body without further
bodies in it adds no frame but its own. -/
theorem Nested.length_le (h : Nested program stack) :
    stack.length ≤ Program.nesting program + 1 := by
  cases stack with
  | nil => exact Nat.zero_le _
  | cons top below =>
    have hfit := h.nesting_add_length_le top below rfl
    rw [List.length_cons]
    omega

end Height

/-! ## Sound frames

  Three things are asked of each frame on its own, and none of them speaks of two frames at once.  So a
  change of the top frame concerns the top frame alone.  The lowest frame is exempt from having something
  to run, since a program may be empty. -/

/-- The number of actions at the start of the pass, in a loop that waits for its condition. -/
def frameMark : Frame → Option Nat
  | .loopUntil _ _ _ _ mark => some mark
  | _ => none

/-! Only a loop that waits is marked, and at the start of a pass its mark is now. -/

/-- A branch has no mark. -/
theorem marks_block (body : List Node) (index now : Nat) :
    ∀ mark ∈ frameMark (.block body index), mark ≤ now := by
  intro mark hmark
  cases hmark

/-- A counted loop has none either. -/
theorem marks_loop (body : List Node) (index remaining now : Nat) :
    ∀ mark ∈ frameMark (.loop body index remaining), mark ≤ now := by
  intro mark hmark
  cases hmark

/-- And the mark of a loop that begins a pass now is the present number. -/
theorem marks_loopUntil (c : Condition) (body : List Node) (blockId : Json) (index now : Nat) :
    ∀ mark ∈ frameMark (.loopUntil c body blockId index now), mark ≤ now := by
  intro mark hmark
  cases hmark
  exact Nat.le_refl now

/-- A counted loop has a round to go, and a branch is not empty. -/
def Live : Frame → Prop
  | .block body _ => body ≠ []
  | .loop _ _ remaining => 1 ≤ remaining
  | .loopUntil _ _ _ _ _ => True

/-- The frames are at places that exist and began no later than now, and all but the lowest have something
to run. -/
structure Sound (now : Nat) (stack : List Frame) : Prop where
  /-- an index is a place of the body, or the one behind it -/
  index_le : ∀ frame ∈ stack, frameIndex frame ≤ (frameBody frame).length
  /-- a mark is a number of actions handed out before -/
  mark_le : ∀ frame ∈ stack, ∀ mark ∈ frameMark frame, mark ≤ now
  /-- a frame is entered only if there is something to run -/
  live : ∀ frame ∈ stack.dropLast, Live frame

namespace Sound

variable {now later : Nat} {top frame pushed : Frame} {below stack : List Frame}

/-- Later on a sound stack is still sound, as no mark lies further ahead. -/
theorem mono (h : Sound now stack) (hle : now ≤ later) : Sound later stack :=
  ⟨h.index_le, fun frame hframe mark hmark => Nat.le_trans (h.mark_le frame hframe mark hmark) hle,
    h.live⟩

/-- Without its top frame the stack is sound.  The frame that comes to light was not the lowest one,
unless it is so now. -/
theorem pop (h : Sound now (top :: below)) : Sound now below := by
  refine ⟨(List.forall_mem_cons.1 h.index_le).2, (List.forall_mem_cons.1 h.mark_le).2, ?_⟩
  cases below with
  | nil => exact List.forall_mem_nil _
  | cons frame rest =>
    have hlive := h.live
    rw [List.dropLast_cons_cons] at hlive
    exact (List.forall_mem_cons.1 hlive).2

/-- The top frame may be replaced by one that has something to run if it has. -/
theorem replace (h : Sound now (top :: below))
    (hindex : frameIndex frame ≤ (frameBody frame).length)
    (hmark : ∀ mark ∈ frameMark frame, mark ≤ now) (hlive : Live top → Live frame) :
    Sound now (frame :: below) := by
  refine ⟨List.forall_mem_cons.2 ⟨hindex, (List.forall_mem_cons.1 h.index_le).2⟩,
    List.forall_mem_cons.2 ⟨hmark, (List.forall_mem_cons.1 h.mark_le).2⟩, ?_⟩
  cases below with
  | nil => exact List.forall_mem_nil _
  | cons under rest =>
    have hbefore := h.live
    rw [List.dropLast_cons_cons] at hbefore ⊢
    obtain ⟨htop, hrest⟩ := List.forall_mem_cons.1 hbefore
    exact List.forall_mem_cons.2 ⟨hlive htop, hrest⟩

/-- A frame that has something to run may be pushed above another one. -/
theorem push (h : Sound now (frame :: below))
    (hindex : frameIndex pushed ≤ (frameBody pushed).length)
    (hmark : ∀ mark ∈ frameMark pushed, mark ≤ now) (hlive : Live pushed) :
    Sound now (pushed :: frame :: below) := by
  refine ⟨List.forall_mem_cons.2 ⟨hindex, h.index_le⟩, List.forall_mem_cons.2 ⟨hmark, h.mark_le⟩, ?_⟩
  rw [List.dropLast_cons_cons]
  exact List.forall_mem_cons.2 ⟨hlive, h.live⟩

/-- The top frame goes past the node that is due.  It is not past its body then, since there was a node.
-/
theorem advance {node : Node} (h : Sound now (top :: below))
    (hnode : (frameBody top)[frameIndex top]? = some node)
    (hbody : frameBody frame = frameBody top) (hindex : frameIndex frame = frameIndex top + 1)
    (hmark : frameMark frame = frameMark top) (hlive : Live top → Live frame) :
    Sound now (frame :: below) := by
  refine h.replace ?_ (hmark ▸ (List.forall_mem_cons.1 h.mark_le).1) hlive
  rw [hindex, hbody]
  exact (List.getElem?_eq_some_iff.1 hnode).1

end Sound

/-! ## Moves

  One lemma for entering a node, one for a move.  Each case is one of the four changes above: `pop` at the
  end of a body, `replace` where a loop begins anew, `advance` in front of a node, and `push` for what the
  node puts on the stack. -/

/-- The number of actions that are out behind the move, if its leaf is counted. -/
def Move.now (steps : Nat) : Move → Nat
  | .next _ => steps
  | .leaf _ _ => steps + 1

section Moves

variable {steps : Nat} {top frame : Frame} {below stack later : List Frame} {leaf : Leaf}

/-- Entering a node pushes one frame at most, which is at its first node and has something to run: a loop
without rounds and an empty branch are passed over. -/
theorem sound_enter (see : Condition → Bool) (h : Sound steps (frame :: below)) (node : Node) :
    Sound ((enter see steps (frame :: below) node).now steps)
      (enter see steps (frame :: below) node).stack := by
  -- a branch is pushed at its first node, and only if it has one
  have hbranch : ∀ branch : List Node, branch ≠ [] →
      Sound steps (.block branch 0 :: frame :: below) :=
    fun branch hne => h.push (Nat.zero_le _) (marks_block branch 0 steps) hne
  cases node with
  | action action blockId => exact h.mono (Nat.le_succ steps)
  | loop count body blockId =>
    show Sound steps (if 0 < count then _ else _)
    split
    · rename_i hcount
      exact h.push (Nat.zero_le _) (marks_loop body 0 count steps) hcount
    · exact h
  | loopUntil c body blockId =>
    show Sound steps (if see c then _ else _)
    split
    · exact h
    · exact h.push (Nat.zero_le _) (marks_loopUntil c body blockId 0 steps) trivial
  | ifThen c body blockId =>
    show Sound steps (if see c && !body.isEmpty then _ else _)
    split
    · rename_i htaken
      refine hbranch body ?_
      rintro rfl
      simp at htaken
    · exact h
  | ifElse c body other blockId =>
    simp only [enter]
    generalize (if see c = true then body else other) = branch
    show Sound steps (if branch.isEmpty then _ else _)
    split
    · exact h
    · rename_i hne
      exact hbranch branch (mt List.isEmpty_iff.2 hne)

/-- **A move** leaves the stack sound, once the leaf that comes out is counted. -/
theorem sound_move (see : Condition → Bool) (h : Sound steps (top :: below)) :
    Sound ((move see steps below top).now steps) (move see steps below top).stack := by
  cases top with
  | block body index =>
    cases hn : body[index]? with
    | none =>
      simp only [move, hn]
      exact h.pop
    | some node =>
      have hpast : Sound steps (.block body (index + 1) :: below) := h.advance hn rfl rfl rfl id
      simp only [move, hn]
      exact sound_enter see hpast node
  | loop body index remaining =>
    by_cases hr : remaining = 0
    · simp only [move, hr, if_true]
      exact h.pop
    · cases hn : body[index]? with
      | none =>
        simp only [move, hr, hn, if_false]
        show Sound steps (if remaining ≤ 1 then _ else _)
        split
        · exact h.pop
        · rename_i hmore
          have hlive : Live (.loop body 0 (remaining - 1)) := by
            show 1 ≤ remaining - 1
            omega
          exact h.replace (Nat.zero_le _) (marks_loop body 0 (remaining - 1) steps) fun _ => hlive
      | some node =>
        have hpast : Sound steps (.loop body (index + 1) remaining :: below) :=
          h.advance hn rfl rfl rfl id
        simp only [move, hr, hn, if_false]
        exact sound_enter see hpast node
  | loopUntil c body blockId index mark =>
    cases hn : body[index]? with
    | none =>
      have hagain : ∀ now, steps ≤ now → Sound now (.loopUntil c body blockId 0 now :: below) :=
        fun now hle =>
          (h.mono hle).replace (Nat.zero_le _) (marks_loopUntil c body blockId 0 now) id
      simp only [move, hn]
      split
      · exact h.pop
      · split
        · -- the next pass begins behind the wait
          exact hagain (steps + 1) (Nat.le_succ steps)
        · exact hagain steps (Nat.le_refl steps)
    | some node =>
      have hpast : Sound steps (.loopUntil c body blockId (index + 1) mark :: below) :=
        h.advance hn rfl rfl rfl id
      simp only [move, hn]
      exact sound_enter see hpast node

/-- Within a call no leaf comes out, so the number of actions does not change and every stack it comes to
is sound at it. -/
theorem Comes.sound {see : Condition → Bool} (hcomes : Comes see steps stack later)
    (h : Sound steps stack) : Sound steps later := by
  induction hcomes with
  | here => exact h
  | next _ hm ih =>
    have hmove := sound_move see ih
    rwa [hm] at hmove

/-- The moves of a call leave the stack sound, and not empty, when a leaf comes out: the frame that held
the leaf is still there. -/
theorem sound_run {see : Condition → Bool} (h : Sound steps stack)
    (hrun : run see steps stack = .leaf later leaf) : Sound (steps + 1) later ∧ later ≠ [] := by
  obtain ⟨top, below, hcomes, hmove⟩ := comes_of_run hrun
  have hsound := sound_move see (hcomes.sound h)
  rw [hmove] at hsound
  refine ⟨hsound, ?_⟩
  rcases move_leaf_cases hmove with ⟨frame, rest, rfl, -⟩ | ⟨c, body, blockId, index, -, -, -, rfl⟩
  · exact List.cons_ne_nil _ _
  · exact List.cons_ne_nil _ _

end Moves

/-! ## Calls

  `WellStacked` is stated for a machine, so it has the status in it.  At the limit the leaf is not
  counted, and the stack is sound at a number the machine has not come to; therefore the marks are only
  bounded as long as the machine runs. -/

/-- The stack of a machine fits its program. -/
structure WellStacked (program : Program) (m : Machine) : Prop where
  /-- nothing is left on the stack exactly if the program has come to its end -/
  empty_iff : m.stack = [] ↔ m.status = .done
  /-- the program is at the bottom, and every other frame runs the node just before the place of the frame
  below it -/
  nested : Nested program m.stack
  /-- every frame above another has a round to go, if it is a counted loop, and is not empty, if it is a
  branch -/
  live : ∀ frame ∈ m.stack.dropLast, Live frame
  /-- no frame is behind the end of its body -/
  index_le : ∀ frame ∈ m.stack, frameIndex frame ≤ (frameBody frame).length
  /-- no pass of a loop has begun later than now -/
  mark_le : m.status = .running → ∀ frame ∈ m.stack, ∀ mark ∈ frameMark frame, mark ≤ m.steps
  /-- the stack is no higher than the nesting of the program allows -/
  length_le : m.stack.length ≤ Program.nesting program + 1

section Calls

variable {program : Program} {now : Nat} {m : Machine}

theorem sound_lowest (program : Program) (now : Nat) : Sound now [.block program 0] :=
  ⟨List.forall_mem_singleton.2 (Nat.zero_le _),
    List.forall_mem_singleton.2 (marks_block program 0 now), List.forall_mem_nil _⟩

theorem sound_nil (now : Nat) : Sound now [] :=
  ⟨List.forall_mem_nil _, List.forall_mem_nil _, List.forall_mem_nil _⟩

/-- What is left to show of a machine whose stack is sound and nested: when its stack is empty, and that
its steps are the number the stack is sound at. -/
theorem Sound.wellStacked (h : Sound now m.stack) (hnested : Nested program m.stack)
    (hempty : m.stack = [] ↔ m.status = .done) (hnow : m.status = .running → now = m.steps) :
    WellStacked program m where
  empty_iff := hempty
  nested := hnested
  live := h.live
  index_le := h.index_le
  mark_le := fun hr => hnow hr ▸ h.mark_le
  length_le := hnested.length_le

theorem wellStacked_create (program : Program) (maxSteps : Int) :
    WellStacked program (create program maxSteps) :=
  Sound.wellStacked (sound_lowest program 0) (.lowest 0)
    (iff_of_false (List.cons_ne_nil _ _) Status.noConfusion) fun _ => rfl

/-- **A call** leaves a stack that fits the program, also if it stops at the limit. -/
theorem WellStacked.call (h : WellStacked program m) (see : Condition → Bool) :
    WellStacked program (m.call see).1 := by
  have hnested : Nested program (m.call see).1.stack := nested_call h.nested
  rcases call_outcomes m see with
    ⟨-, hcall⟩ | ⟨-, -, hcall⟩ | ⟨hr, stack, leaf, hrun, hcall⟩
  · rw [hcall]
    exact h
  · rw [hcall] at hnested ⊢
    exact (sound_nil m.steps).wellStacked hnested (iff_of_true rfl rfl) Status.noConfusion
  · obtain ⟨hsound, hne⟩ := sound_run ⟨h.index_le, h.mark_le hr, h.live⟩ hrun
    rcases hcall with ⟨-, hcall⟩ | ⟨-, hcall⟩
    · rw [hcall] at hnested ⊢
      have hgoing : m.status ≠ .done := by
        rw [hr]
        exact Status.noConfusion
      exact hsound.wellStacked hnested (iff_of_false hne hgoing) fun _ => rfl
    · -- the leaf is not counted, and nothing is said of the marks of a machine that has stopped
      rw [hcall] at hnested ⊢
      exact hsound.wellStacked hnested (iff_of_false hne Status.noConfusion) Status.noConfusion

theorem WellStacked.before (h : WellStacked program m) (see : Nat → Condition → Bool) (n : Nat) :
    WellStacked program (m.before see n) := by
  induction n with
  | zero => exact h
  | succ n ih => exact ih.call (see n)

end Calls

/-- **Stacks are well formed.**  Whatever each call sees and whatever the limit is, before every call the
stack of a machine fits its program. -/
theorem before_wellStacked (program : Program) (maxSteps : Int) (sights : Nat → Sight) (n : Nat) :
    WellStacked program (before (fun k => (sights k).holds) (create program maxSteps) n) :=
  (wellStacked_create program maxSteps).before (fun k => (sights k).holds) n

/-- A turn in a branch in a loop: while it is under way the stack is as high as it can be. -/
example :
    let program : Program := [.loop 2 [.ifThen (.primitive .onGoal) [.act .turnLeft] .null] .null]
    (before (fun _ _ => true) (create program 5) 1).stack.length = Program.nesting program + 1 := by
  decide +kernel

end Machine

end RobotPuzzle
