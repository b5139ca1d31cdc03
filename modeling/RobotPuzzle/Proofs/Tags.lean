/-
  Block identifiers are carried along, and nothing looks at them.

  1. **Retagging** — `retag f` gives every identifier of a program, of a stack or of a leaf another one.
     Taking them all away is one way to retag (`untag`).
  2. **Calls** — a move looks at bodies, places and counts, so it makes of a retagged stack what it makes of
     the stack, retagged (`move_retag`), and so do a whole call and any number of calls.
  3. **Runs** — of what a machine hands out a round takes the action alone.  So a retagged program goes
     through the same states (`history_retag`) and comes to the same result (`evaluate_retag`).
  4. **Two programs** — programs that differ in their identifiers only are retagged to the same program;
     what holds of it holds of both (`untag_inert`).

  The crux is that retagging is a map, so that it can be pushed through every function that does not look
  at identifiers, by the recursion of that function and nothing else.  To compare two programs with other
  identifiers directly would take a relation on programs, stacks and runs, with an induction on pairs at
  each of these places.

  Forgetting the identifiers is a function on programs, so that two programs are alike if it makes them
  equal.  Everything that a program does is shown to commute with it: reading a node, making a move, a
  call, a round, a run.  So the conclusion is an equation between results as a whole, and nothing about
  identifiers has to be assumed.
-/
import RobotPuzzle.Proofs.Appraisal
import RobotPuzzle.Proofs.Rechecks

namespace RobotPuzzle

/-! ## Retagging

  Only what carries identifiers is retagged: nodes, frames that repeat a node, and leaves. -/

mutual

/-- The node with other block identifiers. -/
def Node.retag (f : Json → Json) : Node → Node
  | .action action blockId => .action action (f blockId)
  | .loop count body blockId => .loop count (Program.retag f body) (f blockId)
  | .loopUntil condition body blockId => .loopUntil condition (Program.retag f body) (f blockId)
  | .ifThen condition body blockId => .ifThen condition (Program.retag f body) (f blockId)
  | .ifElse condition body other blockId =>
    .ifElse condition (Program.retag f body) (Program.retag f other) (f blockId)

/-- The program with other block identifiers. -/
def Program.retag (f : Json → Json) : List Node → List Node
  | [] => []
  | n :: rest => n.retag f :: Program.retag f rest

end

namespace Program

theorem retag_eq_map (f : Json → Json) (p : List Node) : Program.retag f p = p.map (Node.retag f) := by
  induction p with
  | nil => rfl
  | cons n rest ih => rw [Program.retag, ih, List.map_cons]

@[simp] theorem getElem?_retag (f : Json → Json) (p : List Node) (i : Nat) :
    (Program.retag f p)[i]? = p[i]?.map (Node.retag f) := by
  rw [retag_eq_map, List.getElem?_map]

@[simp] theorem isEmpty_retag (f : Json → Json) (p : List Node) :
    (Program.retag f p).isEmpty = p.isEmpty := by
  cases p <;> rfl

/-- The program without block identifiers. -/
def untag (p : Program) : Program := Program.retag (fun _ => .null) p

end Program

namespace Frame

/-- The frame with other block identifiers. -/
def retag (f : Json → Json) : Frame → Frame
  | block body index => block (Program.retag f body) index
  | loop body index remaining => loop (Program.retag f body) index remaining
  | loopUntil condition body blockId index mark =>
    loopUntil condition (Program.retag f body) (f blockId) index mark

/-- The frame without block identifiers. -/
def untag (frame : Frame) : Frame := frame.retag fun _ => .null

end Frame

namespace Leaf

/-- The leaf with another block identifier. -/
def retag (f : Json → Json) (leaf : Leaf) : Leaf := { leaf with blockId := f leaf.blockId }

/-- The leaf without a block identifier. -/
def untag (leaf : Leaf) : Leaf := leaf.retag fun _ => .null

end Leaf

namespace Machine

/-! ## Calls

  Each function of the machine is retagged in turn, from the innermost on. -/

/-- The stack with other block identifiers. -/
def restack (f : Json → Json) (stack : List Frame) : List Frame := stack.map (Frame.retag f)

def Move.retag (f : Json → Json) : Move → Move
  | next stack => next (restack f stack)
  | leaf stack out => leaf (restack f stack) (out.retag f)

def Pause.retag (f : Json → Json) : Pause → Pause
  | leaf stack out => leaf (restack f stack) (out.retag f)
  | finished => finished

/-- The machine with other block identifiers. -/
def retag (f : Json → Json) (m : Machine) : Machine :=
  { m with stack := restack f m.stack, current := m.current.map (Leaf.retag f) }

section Calls

variable (f : Json → Json)

/-- Entering a retagged node. -/
theorem enter_retag (see : Condition → Bool) (steps : Nat) (below : List Frame) (node : Node) :
    enter see steps (restack f below) (node.retag f) = (enter see steps below node).retag f := by
  cases node with
  | action action blockId => rfl
  | loop count body blockId =>
    simp only [Node.retag, enter, Move.retag]
    -- conditions and counts are not retagged
    split <;> rfl
  | loopUntil c body blockId =>
    simp only [Node.retag, enter, Move.retag]
    split <;> rfl
  | ifThen c body blockId =>
    simp only [Node.retag, enter, Move.retag, Program.isEmpty_retag]
    split <;> rfl
  | ifElse c body other blockId =>
    simp only [Node.retag, enter, Move.retag]
    split
    · rw [Program.isEmpty_retag]
      split <;> rfl
    · rw [Program.isEmpty_retag]
      split <;> rfl

/-- **A move looks at no block identifier.** -/
theorem move_retag (see : Condition → Bool) (steps : Nat) (below : List Frame) (top : Frame) :
    move see steps (restack f below) (top.retag f) = (move see steps below top).retag f := by
  cases top with
  | block body index =>
    simp only [Frame.retag, move, Program.getElem?_retag]
    -- the node at the place is the retagged one
    cases body[index]? with
    | none => rfl
    | some node => exact enter_retag f see steps (.block body (index + 1) :: below) node
  | loop body index remaining =>
    simp only [Frame.retag, move, Program.getElem?_retag]
    split
    · rfl
    · cases body[index]? with
      | none =>
        simp only [Option.map_none, Move.retag]
        split <;> rfl
      | some node => exact enter_retag f see steps (.loop body (index + 1) remaining :: below) node
  | loopUntil c body blockId index mark =>
    simp only [Frame.retag, move, Program.getElem?_retag]
    cases body[index]? with
    | none =>
      simp only [Option.map_none]
      split
      · rfl
      · split <;> rfl
    | some node =>
      exact enter_retag f see steps (.loopUntil c body blockId (index + 1) mark :: below) node

/-- Moves come to the same leaf, retagged, by the recursion of `run`. -/
theorem run_retag (see : Condition → Bool) (steps : Nat) (stack : List Frame) :
    run see steps (restack f stack) = (run see steps stack).retag f := by
  fun_induction run see steps stack with
  | case1 => rw [restack, List.map_nil, run, Pause.retag]
  | case2 top below stack leaf hmove =>
    refine run_of_leaf ?_
    rw [← restack, move_retag, hmove, Move.retag]
  | case3 top below stack hmove _ ih =>
    refine Eq.trans (run_of_next ?_) ih
    rw [← restack, move_retag, hmove, Move.retag]

/-- **A call of a retagged machine** hands out the same action, and the machine stays retagged. -/
theorem call_retag (m : Machine) (see : Condition → Bool) :
    (m.retag f).call see = ((m.call see).1.retag f, (m.call see).2) := by
  rcases call_outcomes m see with
    ⟨hr, hcall⟩ | ⟨hr, hrun, hcall⟩ | ⟨hr, stack, leaf, hrun, ⟨hlt, hcall⟩ | ⟨hle, hcall⟩⟩
  · rw [hcall]
    -- retagging leaves the status alone
    have hstopped : (m.retag f).status ≠ .running := hr
    exact call_of_not_running hstopped see
  · have hrun' : run see m.steps (restack f m.stack) = .finished := by
      rw [run_retag, hrun, Pause.retag]
    rw [hcall]
    exact call_of_finished (m := m.retag f) hr hrun'
  · have hrun' : run see m.steps (restack f m.stack) = .leaf (restack f stack) (leaf.retag f) := by
      rw [run_retag, hrun, Pause.retag]
    rw [hcall]
    exact call_of_lt (m := m.retag f) hr hrun' hlt
  · have hrun' : run see m.steps (restack f m.stack) = .leaf (restack f stack) (leaf.retag f) := by
      rw [run_retag, hrun, Pause.retag]
    rw [hcall]
    exact call_of_le (m := m.retag f) hr hrun' hle

theorem create_retag (program : Program) (limit : Int) :
    create (Program.retag f program) limit = (create program limit).retag f := rfl

theorem before_retag (see : Nat → Condition → Bool) (m : Machine) (n : Nat) :
    before see (m.retag f) n = (before see m n).retag f := by
  induction n with
  | zero => rfl
  | succ n ih => rw [before, ih, call_retag, before]

theorem answer_retag (see : Nat → Condition → Bool) (m : Machine) (n : Nat) :
    answer see (m.retag f) n = answer see m n := by
  rw [answer, before_retag, call_retag, answer]

end Calls

/-- Two machines that differ in block identifiers only. -/
structure SameUntagged (m m' : Machine) : Prop where
  /-- the frames agree after erasing -/
  stack : m.stack.map Frame.untag = m'.stack.map Frame.untag
  /-- and so does the leaf handed out last -/
  current : m.current.map Leaf.untag = m'.current.map Leaf.untag
  /-- nothing else of a machine holds identifiers -/
  status : m.status = m'.status
  steps : m.steps = m'.steps
  maxSteps : m.maxSteps = m'.maxSteps

/-- Machines that are the same without their identifiers differ in these only. -/
theorem sameUntagged_of_retag {m m' : Machine}
    (h : m.retag (fun _ => .null) = m'.retag fun _ => .null) : m.SameUntagged m' := by
  obtain ⟨hstack, hstatus, hsteps, hmax, hcurrent⟩ := Machine.mk.inj h
  exact ⟨hstack, hcurrent, hstatus, hsteps, hmax⟩

end Machine

/-! ## Runs

  The identifier of the leaf stays with the machine, and what a robot is told is the action. -/

namespace Run

open Machine (call_retag)

/-- The program of the run with other block identifiers. -/
def Setup.retag (f : Json → Json) (setup : Setup) : Setup :=
  { setup with program := Program.retag f setup.program }

/-- The run with other block identifiers in its machines. -/
def retag (f : Json → Json) (run : Run) : Run :=
  { run with machines := run.machines.map (Machine.retag f) }

section Rounds

variable (f : Json → Json)

/-- A robot is told the same by a retagged machine. -/
theorem askOne_retag (s : Simulation.State) (r : Robot) (m : Machine) :
    askOne s r (m.retag f) = ((askOne s r m).1.retag f, (askOne s r m).2) := by
  unfold askOne
  split
  · exact call_retag f m _
  · rfl

/-- So are all robots, and new machines are made for the retagged program. -/
theorem ask_retag (setup : Setup) (s : Simulation.State) (robots : List Robot) :
    ∀ machines : List Machine,
      ask (setup.retag f) s robots (machines.map (Machine.retag f))
        = (ask setup s robots machines).map fun asked => (asked.1.retag f, asked.2) := by
  induction robots with
  | nil => exact fun machines => rfl
  | cons r robots ih =>
    intro machines
    cases machines with
    | nil =>
      rw [ask, ask, List.map_cons]
      exact congrArg₂ List.cons (askOne_retag f s r (.create setup.program setup.maxSteps)) (ih [])
    | cons m machines =>
      rw [ask, ask, List.map_cons]
      exact congrArg₂ List.cons (askOne_retag f s r m) (ih machines)

/-- A round of a retagged run leads to the retagged next one. -/
theorem advance_retag (setup : Setup) (run : Run) :
    (run.retag f).advance (setup.retag f) = (run.advance setup).map (Run.retag f) := by
  have hask : ask (setup.retag f) (run.retag f).state (run.retag f).state.robots (run.retag f).machines
      = (ask setup run.state run.state.robots run.machines).map fun asked =>
        (asked.1.retag f, asked.2) :=
    ask_retag f setup run.state run.state.robots run.machines
  rw [advance, hask, advance, List.map_map, List.map_map]
  show (Simulation.tickOrGiveUp run.state ((ask setup run.state run.state.robots run.machines).map
    Prod.snd) >>= _) = _
  cases Simulation.tickOrGiveUp run.state
      ((ask setup run.state run.state.robots run.machines).map Prod.snd) with
  | error fault => rfl
  | ok state =>
    show Except.ok (Run.mk state _) = Except.ok (Run.mk state ((List.map Prod.fst _).map (Machine.retag f)))
    rw [List.map_map]
    rfl

/-- A retagged program goes through the same states. -/
theorem history_retag (setup : Setup) (run : Run) :
    history (setup.retag f) (run.retag f) = (history setup run).map (List.map (Run.retag f)) := by
  by_cases hr : run.state.status = .running
  · have hr' : (run.retag f).state.status = .running := hr
    rw [history_of_running hr, history_of_running hr', advance_retag]
    cases ha : run.advance setup with
    | error fault => rfl
    | ok next =>
      -- fewer ticks are left, as in the history itself
      have := advance_ticksLeft hr ha
      show (history (setup.retag f) (next.retag f)).map _ = _
      rw [history_retag setup next]
      show _ = Except.map _ ((history setup next).map (run :: ·))
      cases history setup next with
      | error fault => rfl
      | ok rounds => rfl
  · have hr' : (run.retag f).state.status ≠ .running := hr
    rw [history_of_over hr, history_of_over hr']
    rfl
termination_by run.ticksLeft

end Rounds

end Run

namespace Evaluation

section Results

variable (f : Json → Json)

/-- A result is made of the states, and of whether some machine was cut off. -/
theorem resultOf_retag (options : Options) (rounds : List Run) (last : Run) :
    resultOf options (rounds.map (Run.retag f)) (last.retag f) = resultOf options rounds last := by
  have hstates : (rounds.map (Run.retag f)).map Run.state = rounds.map Run.state := List.map_map
  have hlimit : (last.retag f).stepLimitHit = last.stepLimitHit := List.any_map
  rw [resultOf, resultOf, hstates, hlimit]
  rfl

/-- The same, of a history that may have failed. -/
theorem resultOfHistory_retag (options : Options) (state : Simulation.State)
    (history : Except Simulation.Fault (List Run)) :
    resultOfHistory options state (history.map (List.map (Run.retag f)))
      = resultOfHistory options state history := by
  cases history with
  | error fault => rfl
  | ok rounds =>
    have hlast : (rounds.map (Run.retag f)).getLast?.getD { state }
        = (rounds.getLast?.getD { state }).retag f := by
      rw [List.getLast?_map]
      cases rounds.getLast? <;> rfl
    show Except.ok (resultOf options (rounds.map (Run.retag f)) _) = _
    rw [hlast, resultOf_retag, resultOfHistory]

/-- **An evaluation looks at no block identifier.** -/
theorem evaluate_retag (program : Program) (level : Level) (options : Options) :
    evaluate (Program.retag f program) level options = evaluate program level options := by
  rw [evaluate_eq, evaluate_eq]
  congr 1
  funext state
  have hsame := resultOfHistory_retag f options state
    (Run.history (setupOf program options state) { state })
  rw [← Run.history_retag] at hsame
  exact hsame

end Results

end Evaluation

/-! ## Two programs

  To take all identifiers away is to retag both programs alike, and that can be undone for neither; but it
  need not be, as nothing has looked at them. -/

namespace Program

/-- **Block identifiers are inert.**  Two programs that differ in their block identifiers only come to the
same on every level, whether to the same result or to the same fault; and whatever each call sees, their
machines hand out the same actions, and are the same before every call but for block identifiers. -/
theorem untag_inert {p q : Program} (h : Program.untag p = Program.untag q) :
    (∀ level options,
      Evaluation.evaluate p level options = Evaluation.evaluate q level options) ∧
    ∀ (limit : Int) (sights : Nat → Sight) (n : Nat),
      Machine.answer (fun n => (sights n).holds) (.create p limit) n
        = Machine.answer (fun n => (sights n).holds) (.create q limit) n ∧
      (Machine.before (fun n => (sights n).holds) (.create p limit) n).SameUntagged
        (Machine.before (fun n => (sights n).holds) (.create q limit) n) := by
  have h : Program.retag (fun _ => .null) p = Program.retag (fun _ => .null) q := h
  refine ⟨fun level options => ?_, fun limit sights n => ⟨?_, ?_⟩⟩
  · rw [← Evaluation.evaluate_retag (fun _ => .null) p, h, Evaluation.evaluate_retag]
  · rw [← Machine.answer_retag (fun _ => .null) _ (.create p limit), ← Machine.create_retag, h,
      Machine.create_retag, Machine.answer_retag]
  · refine Machine.sameUntagged_of_retag ?_
    rw [← Machine.before_retag, ← Machine.create_retag, h, Machine.create_retag, Machine.before_retag]

open Evaluation (doorstep)
open Machine (answer before create signalFrom)

/-- Goes forward until it is home, and then waits unless the signal is on; every block bears a tag. -/
def tagged : Program :=
  [.loopUntil (.primitive .onGoal) [.action .moveForward (.str "step")] (.str "walk"),
    .ifElse (.primitive .globalSignalOn) [] [.action .wait (.int 7)] (.str "rest")]

/-- The same with other tags, or none. -/
def retagged : Program :=
  [.loopUntil (.primitive .onGoal) [.action .moveForward .null] (.str "rest"),
    .ifElse (.primitive .globalSignalOn) [] [.action .wait (.str "step")] .null]

/-- Both solve the level.  The first call of both goes forward; the block to show is that of the first
program's step, and none for the second. -/
theorem untag_inert_walk :
    untag tagged = untag retagged ∧
      Evaluation.evaluate tagged doorstep {} = Evaluation.evaluate retagged doorstep {} ∧
      ((Evaluation.evaluate retagged doorstep {}).map Evaluation.Result.solved).toOption = some true ∧
      answer (fun n => (signalFrom 2 n).holds) (create tagged 9) 0 = some .moveForward ∧
      answer (fun n => (signalFrom 2 n).holds) (create retagged 9) 0 = some .moveForward ∧
      (before (fun n => (signalFrom 2 n).holds) (create tagged 9) 1).SameUntagged
        (before (fun n => (signalFrom 2 n).holds) (create retagged 9) 1) ∧
      ((before (fun n => (signalFrom 2 n).holds) (create tagged 9) 1).current.map
        fun leaf => leaf.blockId.toText?) = some (some "step") ∧
      ((before (fun n => (signalFrom 2 n).holds) (create retagged 9) 1).current.map
        fun leaf => leaf.blockId.toText?) = some none := by
  have h : untag tagged = untag retagged := rfl
  obtain ⟨hevaluate, hcalls⟩ := untag_inert h
  obtain ⟨hanswer, -⟩ := hcalls 9 (signalFrom 2) 0
  obtain ⟨-, hsame⟩ := hcalls 9 (signalFrom 2) 1
  have hforward : answer (fun n => (signalFrom 2 n).holds) (create retagged 9) 0
      = some .moveForward := by decide +kernel
  exact ⟨h, hevaluate doorstep {}, by decide +kernel, hanswer.trans hforward, hforward, hsame,
    by decide +kernel, by decide +kernel⟩

end Program

end RobotPuzzle
