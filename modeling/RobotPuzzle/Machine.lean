/-
  The machine that runs a program, one action per call.

  1. **Frames** — the stack holds, top first, the bodies that are being run and the position in each.
     The stack is a value, so a machine can be kept and resumed anywhere.
  2. **Moves** — `move` makes one bookkeeping move of the top frame: it goes past an end, starts a loop
     anew, or enters the next node.  A move either leaves another stack or hands out a leaf.
  3. **A call** — `run` moves until a leaf comes out or the stack is empty.  Within a call the sight
     does not change, and a loop that waits for its condition hands out a wait after one fruitless pass
     (its `mark` is the number of actions at the start of the pass).  So every move takes something off
     the work that is left (`move_work`), and `run` ends for every program.
  4. **Limit** — only leaves count as steps; at the limit the machine stops instead of handing one out.
-/
import RobotPuzzle.Program.Basic

namespace RobotPuzzle

/-- A body that is being run. -/
inductive Frame where
  /-- the whole program, or a branch -/
  | block (body : List Node) (index : Nat)
  /-- a counted loop; the pass under way is one of those that remain -/
  | loop (body : List Node) (index remaining : Nat)
  /-- a loop with a condition; `mark` is the number of actions handed out when the pass began -/
  | loopUntil (condition : Condition) (body : List Node) (blockId : Json) (index mark : Nat)
deriving Inhabited

/-- An action together with the block identifier of its node. -/
structure Leaf where
  action : Action
  /-- a pass of an empty or idle loop hands out a WAIT under the identifier of the loop -/
  blockId : Json := .null
deriving Inhabited

namespace Machine

inductive Status where
  | running
  /-- the program has come to its end -/
  | done
  /-- an action came up that it may not hand out any more -/
  | stepLimit
deriving DecidableEq, Repr, Inhabited

def Status.name : Status → String
  | .running => "running"
  | .done => "done"
  | .stepLimit => "step_limit"

/-- The result of one move. -/
inductive Move where
  /-- the call goes on with this stack -/
  | next (stack : List Frame)
  /-- a leaf comes out -/
  | leaf (stack : List Frame) (leaf : Leaf)

/-- Enters a node above the frames below. -/
def enter (see : Condition → Bool) (steps : Nat) (below : List Frame) : Node → Move
  | .action action blockId => .leaf below { action, blockId }
  | .loop count body _ => .next (if 0 < count then .loop body 0 count :: below else below)
  | .loopUntil condition body blockId =>
    .next (if see condition then below else .loopUntil condition body blockId 0 steps :: below)
  | .ifThen condition body _ =>
    .next (if see condition && !body.isEmpty then .block body 0 :: below else below)
  | .ifElse condition body other _ =>
    let branch := if see condition then body else other
    .next (if branch.isEmpty then below else .block branch 0 :: below)

/-- One move of the top frame. -/
def move (see : Condition → Bool) (steps : Nat) (below : List Frame) : Frame → Move
  | .block body index =>
    match body[index]? with
    | none => .next below
    | some node => enter see steps (.block body (index + 1) :: below) node
  | .loop body index remaining =>
    if remaining = 0 then .next below
    else
      match body[index]? with
      | none => .next (if remaining ≤ 1 then below else .loop body 0 (remaining - 1) :: below)
      | some node => enter see steps (.loop body (index + 1) remaining :: below) node
  | .loopUntil condition body blockId index mark =>
    match body[index]? with
    | none =>
      if see condition then .next below
      else if mark = steps then
        .leaf (.loopUntil condition body blockId 0 (steps + 1) :: below) { action := .wait, blockId }
      else .next (.loopUntil condition body blockId 0 steps :: below)
    | some node => enter see steps (.loopUntil condition body blockId (index + 1) mark :: below) node

/-! ## The work that is left -/

mutual

/-- An upper bound for the moves that a node takes within one call. -/
def Node.work : Node → Nat
  | .action _ _ => 1
  | .loop count body _ => count * (bodyWork body + 1) + 1
  | .loopUntil _ body _ => bodyWork body + 2
  | .ifThen _ body _ => bodyWork body + 2
  | .ifElse _ body other _ => bodyWork body + bodyWork other + 2

def bodyWork : List Node → Nat
  | [] => 0
  | n :: rest => Node.work n + bodyWork rest

end

/-- The moves left in a frame; a loop whose mark lies behind may make one full pass more. -/
def frameWork (steps : Nat) : Frame → Nat
  | .block body index => bodyWork (body.drop index) + 1
  | .loop body index remaining =>
    bodyWork (body.drop index) + 1 + (remaining - 1) * (bodyWork body + 1)
  | .loopUntil _ body _ index mark =>
    bodyWork (body.drop index) + 1 + if mark = steps then 0 else bodyWork body + 1

def stackWork (steps : Nat) : List Frame → Nat
  | [] => 0
  | frame :: below => frameWork steps frame + stackWork steps below

/-- Of a body whose next node is `node`, the work is that of the node and of what comes behind it. -/
theorem bodyWork_drop {body : List Node} {index : Nat} {node : Node} (h : body[index]? = some node) :
    bodyWork (body.drop index) = Node.work node + bodyWork (body.drop (index + 1)) := by
  obtain ⟨hlt, rfl⟩ := List.getElem?_eq_some_iff.1 h
  rw [List.drop_eq_getElem_cons hlt, bodyWork]

/-- All passes of a loop that is entered now, the first one included. -/
theorem frameWork_loop_start (steps : Nat) (body : List Node) {count : Nat} (h : 0 < count) :
    frameWork steps (.loop body 0 count) = count * (bodyWork body + 1) := by
  obtain ⟨k, rfl⟩ := Nat.exists_eq_add_one_of_ne_zero (Nat.ne_of_gt h)
  rw [frameWork, List.drop_zero, Nat.add_sub_cancel, Nat.succ_mul, Nat.add_comm]

/-- A loop that is marked with the present number of actions makes this pass and none after it. -/
theorem frameWork_loopUntil_start (steps : Nat) (condition : Condition) (body : List Node)
    (blockId : Json) :
    frameWork steps (.loopUntil condition body blockId 0 steps) = bodyWork body + 1 := by
  rw [frameWork, List.drop_zero, if_pos rfl, Nat.add_zero]

theorem frameWork_block_start (steps : Nat) (body : List Node) :
    frameWork steps (.block body 0) = bodyWork body + 1 := by
  rw [frameWork, List.drop_zero]

/-- Entering a node costs less than the node is counted for: what it puts on the stack, if anything, is
one move cheaper.  An action is not such a move, it ends the call. -/
theorem enter_work {see : Condition → Bool} {steps : Nat} {below stack : List Frame} {node : Node}
    (h : enter see steps below node = .next stack) :
    stackWork steps stack < stackWork steps below + Node.work node := by
  cases node with
  | action a id => cases h
  | loop count body id =>
    obtain rfl := Move.next.inj h
    rw [Node.work]
    by_cases hcount : 0 < count
    · rw [if_pos hcount, stackWork, frameWork_loop_start steps body hcount]
      omega
    · rw [if_neg hcount]
      omega
  | loopUntil c body id =>
    obtain rfl := Move.next.inj h
    rw [Node.work]
    cases see c with
    | true =>
      rw [if_pos rfl]
      omega
    | false =>
      rw [if_neg Bool.false_ne_true, stackWork, frameWork_loopUntil_start]
      omega
  | ifThen c body id =>
    obtain rfl := Move.next.inj h
    rw [Node.work]
    cases see c && !body.isEmpty with
    | true =>
      rw [if_pos rfl, stackWork, frameWork_block_start]
      omega
    | false =>
      rw [if_neg Bool.false_ne_true]
      omega
  | ifElse c body other id =>
    obtain rfl := Move.next.inj h
    have hbranch : bodyWork (if see c then body else other) ≤ bodyWork body + bodyWork other := by
      cases see c with
      | true => exact Nat.le_add_right _ _
      | false => exact Nat.le_add_left _ _
    rw [Node.work]
    by_cases hempty : (if see c then body else other).isEmpty = true
    · rw [if_pos hempty]
      omega
    · rw [if_neg hempty, stackWork, frameWork_block_start]
      omega

/-- Every move takes something off the work that is left: going past an end gives up the frame or the
pass that is over, and entering a node uses up what the node is counted for. -/
theorem move_work {see : Condition → Bool} {steps : Nat} {below stack : List Frame} {top : Frame}
    (h : move see steps below top = .next stack) :
    stackWork steps stack < stackWork steps (top :: below) := by
  cases top with
  | block body index =>
    rw [stackWork, frameWork]
    cases hnode : body[index]? with
    | none =>
      rw [move, hnode] at h
      obtain rfl := Move.next.inj h
      omega
    | some node =>
      rw [move, hnode] at h
      have hentered := enter_work h
      rw [stackWork, frameWork] at hentered
      rw [bodyWork_drop hnode]
      omega
  | loop body index remaining =>
    rw [stackWork, frameWork]
    by_cases hover : remaining = 0
    · rw [move, if_pos hover] at h
      obtain rfl := Move.next.inj h
      omega
    rw [move, if_neg hover] at h
    cases hnode : body[index]? with
    | none =>
      rw [hnode] at h
      obtain rfl := Move.next.inj h
      by_cases hlast : remaining ≤ 1
      · rw [if_pos hlast]
        omega
      · rw [if_neg hlast, stackWork, frameWork_loop_start steps body (by omega)]
        omega
    | some node =>
      rw [hnode] at h
      have hentered := enter_work h
      rw [stackWork, frameWork] at hentered
      rw [bodyWork_drop hnode]
      omega
  | loopUntil c body id index mark =>
    rw [stackWork, frameWork]
    cases hnode : body[index]? with
    | none =>
      rw [move, hnode] at h
      cases hsee : see c with
      | true =>
        rw [hsee] at h
        obtain rfl := Move.next.inj h
        omega
      | false =>
        rw [hsee] at h
        -- a fruitless pass hands out a wait, so a loop starts anew only with its mark behind
        by_cases hmark : mark = steps
        · rw [if_neg Bool.false_ne_true, if_pos hmark] at h
          cases h
        · rw [if_neg Bool.false_ne_true, if_neg hmark] at h
          obtain rfl := Move.next.inj h
          rw [if_neg hmark, stackWork, frameWork_loopUntil_start]
          omega
    | some node =>
      rw [move, hnode] at h
      have hentered := enter_work h
      rw [stackWork, frameWork] at hentered
      rw [bodyWork_drop hnode]
      omega

/-- How a call leaves the stack. -/
inductive Pause where
  /-- an action is handed out, and the stack waits for the next call -/
  | leaf (stack : List Frame) (leaf : Leaf)
  /-- nothing is left to run -/
  | finished

/-- Moves until a leaf comes out or the stack is empty. -/
def run (see : Condition → Bool) (steps : Nat) : List Frame → Pause
  | [] => .finished
  | top :: below =>
    match h : move see steps below top with
    | .leaf stack leaf => .leaf stack leaf
    | .next stack =>
      have : stackWork steps stack < stackWork steps (top :: below) := move_work h
      run see steps stack
termination_by stack => stackWork steps stack

end Machine

/-- A machine between two calls. -/
structure Machine where
  /-- the frames, the one being run first -/
  stack : List Frame
  status : Machine.Status := .running
  /-- the number of actions handed out -/
  steps : Nat := 0
  /-- the number of actions it may hand out -/
  maxSteps : Int
  /-- the leaf handed out last -/
  current : Option Leaf := none
deriving Inhabited

namespace Machine

/-- The number of actions after which a machine stops, where nothing else is said. -/
def defaultMaxSteps : Int := 200

/-- A machine at the start of a program. -/
def create (program : Program) (maxSteps : Int) : Machine :=
  { stack := [.block program 0], maxSteps }

/-- One call: the machine after it, and the action that came out. -/
def call (m : Machine) (see : Condition → Bool) : Machine × Option Action :=
  if m.status = .running then
    match run see m.steps m.stack with
    | .finished => ({ m with stack := [], status := .done, current := none }, none)
    | .leaf stack leaf =>
      if m.maxSteps ≤ m.steps then
        ({ m with stack, status := .stepLimit, current := none }, none)
      else ({ m with stack, steps := m.steps + 1, current := some leaf }, some leaf.action)
  else (m, none)

theorem call_of_not_running {m : Machine} (h : m.status ≠ .running) (see : Condition → Bool) :
    m.call see = (m, none) := by
  simp [call, h]

/-- A call that leaves the machine running has handed out an action. -/
theorem call_running {m : Machine} {see : Condition → Bool}
    (h : (m.call see).1.status = .running) : (m.call see).2.isSome = true := by
  unfold call at h ⊢
  split
  · rename_i hr
    simp only [hr, if_true] at h
    split
    · rename_i hf; simp [hf] at h
    · rename_i stack leaf hf
      simp only [hf] at h
      split
      · rename_i hl; simp [hl] at h
      · rfl
  · rename_i hr; simp [hr] at h

end Machine

end RobotPuzzle
