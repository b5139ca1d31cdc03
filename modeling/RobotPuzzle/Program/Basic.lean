/-
  Programs: trees of actions, loops and branches over a fixed vocabulary of conditions.

  A program is a list of nodes, run in order.  A block identifier is a tag that an editor puts on a
  node; `null` is none, and nothing here looks at it.
-/
import RobotPuzzle.Robot

namespace RobotPuzzle

/-- What a robot can ask about its surroundings. -/
inductive ConditionKind where
  | pathAheadClear
  | leftClear
  | rightClear
  | onGoal
  | onPressurePlate
  | hazardAhead
  | hazardLeft
  | hazardRight
  | wallLeft
  | wallRight
  | globalSignalOn
  | onRaft
deriving DecidableEq, Repr, Inhabited

namespace ConditionKind

def all : List ConditionKind :=
  [pathAheadClear, leftClear, rightClear, onGoal, onPressurePlate, hazardAhead, hazardLeft,
   hazardRight, wallLeft, wallRight, globalSignalOn, onRaft]

def name : ConditionKind → String
  | pathAheadClear => "PATH_AHEAD_CLEAR"
  | leftClear => "LEFT_CLEAR"
  | rightClear => "RIGHT_CLEAR"
  | onGoal => "ON_GOAL"
  | onPressurePlate => "ON_PRESSURE_PLATE"
  | hazardAhead => "HAZARD_AHEAD"
  | hazardLeft => "HAZARD_LEFT"
  | hazardRight => "HAZARD_RIGHT"
  | wallLeft => "WALL_LEFT"
  | wallRight => "WALL_RIGHT"
  | globalSignalOn => "GLOBAL_SIGNAL_ON"
  | onRaft => "ON_RAFT"

/-- The kind of that name; one kind has a second name. -/
def ofName? (name : String) : Option ConditionKind :=
  if name == "AHEAD_CLEAR" then some pathAheadClear else all.find? (·.name == name)

theorem ofName?_name (k : ConditionKind) : ofName? k.name = some k := by cases k <;> rfl

end ConditionKind

/-- A condition. -/
inductive Condition where
  | primitive (kind : ConditionKind)
  | not (operand : Condition)
  | and (left right : Condition)
  | or (left right : Condition)
deriving DecidableEq, Repr, Inhabited

/-- A node of a program. -/
inductive Node where
  | action (action : Action) (blockId : Json)
  /-- the body, exactly `count` times -/
  | loop (count : Nat) (body : List Node) (blockId : Json)
  /-- the body, again and again, until the condition holds before it -/
  | loopUntil (condition : Condition) (body : List Node) (blockId : Json)
  | ifThen (condition : Condition) (body : List Node) (blockId : Json)
  | ifElse (condition : Condition) (body other : List Node) (blockId : Json)
deriving Inhabited

/-- A program: nodes in order. -/
abbrev Program := List Node

/-- An action without a block identifier. -/
def Node.act (a : Action) : Node := .action a .null

/-- A program of actions. -/
def Program.ofActions (actions : List Action) : Program := actions.map Node.act

mutual

/-- The number of action nodes in a node. -/
def Node.countActions : Node → Nat
  | .action _ _ => 1
  | .loop _ body _ => Program.countActions body
  | .loopUntil _ body _ => Program.countActions body
  | .ifThen _ body _ => Program.countActions body
  | .ifElse _ body other _ => Program.countActions body + Program.countActions other

/-- The number of action nodes in a program, not of actions executed. -/
def Program.countActions : List Node → Nat
  | [] => 0
  | n :: rest => n.countActions + Program.countActions rest

end

theorem Program.countActions_append (p q : Program) :
    Program.countActions (p ++ q) = Program.countActions p + Program.countActions q := by
  induction p with
  | nil => simp [Program.countActions]
  | cons n rest ih => simp [Program.countActions, ih, Nat.add_assoc]

end RobotPuzzle
