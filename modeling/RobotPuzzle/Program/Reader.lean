/-
  Reading programs.

  Every node and condition is an object that names its own kind.  What is not in the vocabulary is
  refused, and the first fault in reading order is the one reported; the only fault that is not a
  refusal is a condition whose name is a list or an object (`Fault.isRefusal`).

  The members of an object are smaller than the object (`Json.sizeOf_getD_lt`), so the readers recurse
  on the size of the value.
-/
import RobotPuzzle.Json.Shown
import RobotPuzzle.Program.Basic

namespace RobotPuzzle

theorem Json.sizeOf_lookup_lt {name : String} {members : List (String × Json)} {v : Json}
    (h : Json.lookup name members = some v) : sizeOf v < sizeOf members := by
  induction members with
  | nil => simp [Json.lookup] at h
  | cons m rest ih =>
    obtain ⟨n, w⟩ := m
    simp only [Json.lookup] at h
    split at h
    · injection h with h
      subst h
      simp only [List.cons.sizeOf_spec, Prod.mk.sizeOf_spec]
      omega
    · have := ih h
      simp only [List.cons.sizeOf_spec]
      omega

/-- A member of an object is smaller than the object. -/
theorem Json.sizeOf_getD_lt (name : String) (members : List (String × Json)) :
    sizeOf ((Json.obj members).getD name) < sizeOf (Json.obj members) := by
  simp only [Json.getD, Json.get?_obj, Json.obj.sizeOf_spec]
  cases h : Json.lookup name members with
  | none =>
    have : 0 < sizeOf members := by
      cases members <;> simp only [List.nil.sizeOf_spec, List.cons.sizeOf_spec] <;> omega
    simp
    omega
  | some v =>
    have := Json.sizeOf_lookup_lt h
    simp
    omega

namespace Program

/-- Why a value is not a program. -/
inductive Fault where
  | conditionNoObject (kind : String)
  | condition (value : Json)
  /-- the name of a condition is a list or an object, which cannot be looked up -/
  | conditionName (kind : String)
  | conditionKind (value : Json)
  | nodeNoObject (kind : String)
  | action (value : Json)
  | count (value : Json)
  | nodeType (value : Json)
  | noProgram
  | noSteps

def Fault.message : Fault → String
  | .conditionNoObject kind => "Condition must be an object, got " ++ kind
  | .condition value => "Unsupported condition: " ++ value.shown
  | .conditionName kind => "unhashable type: '" ++ kind ++ "'"
  | .conditionKind value => "Unsupported condition kind: " ++ value.shown
  | .nodeNoObject kind => "Node must be an object, got " ++ kind
  | .action value => "Unsupported action: " ++ value.shown
  | .count value => "Repeat count must be a non-negative integer, got " ++ value.shown
  | .nodeType value => "Unsupported node type: " ++ value.shown
  | .noProgram => "Program must be an object with type 'sequence'"
  | .noSteps => "Sequence steps must be a list"

/-- The program is refused; the other fault is a failure of the reader itself. -/
def Fault.isRefusal : Fault → Bool
  | .conditionName _ => false
  | _ => true

/-- The kind of condition that a value names. -/
def readConditionKind (name : Json) : Except Fault ConditionKind :=
  match name with
  | .str text =>
    match ConditionKind.ofName? text with
    | some kind => .ok kind
    | none => .error (.condition name)
  | .arr _ => .error (.conditionName name.kind)
  | .obj _ => .error (.conditionName name.kind)
  | _ => .error (.condition name)

/-- A condition. -/
def readCondition (v : Json) : Except Fault Condition :=
  match v with
  | .obj members =>
    let kind := (Json.obj members).getD "kind"
    match kind.toText? with
    | some "primitive" => do
      let kind ← readConditionKind ((Json.obj members).getD "condition")
      pure (.primitive kind)
    | some "not" => do
      let operand ← readCondition ((Json.obj members).getD "operand")
      pure (.not operand)
    | some "and" => do
      let left ← readCondition ((Json.obj members).getD "left")
      let right ← readCondition ((Json.obj members).getD "right")
      pure (.and left right)
    | some "or" => do
      let left ← readCondition ((Json.obj members).getD "left")
      let right ← readCondition ((Json.obj members).getD "right")
      pure (.or left right)
    | _ => .error (.conditionKind kind)
  | v => .error (.conditionNoObject v.kind)
termination_by sizeOf v
decreasing_by all_goals exact Json.sizeOf_getD_lt _ _

/-- How often a loop runs: a whole number from zero on, and not a truth value. -/
def readCount : Json → Except Fault Nat
  | .int n => if 0 ≤ n then .ok n.toNat else .error (.count (.int n))
  | v => .error (.count v)

mutual

/-- A node. -/
def readNode (v : Json) : Except Fault Node :=
  match v with
  | .obj members =>
    let type := (Json.obj members).getD "type"
    let blockId := (Json.obj members).getD "blockId"
    match type.toText? with
    | some "action" =>
      let name := (Json.obj members).getD "action"
      match Action.ofJson? name with
      | some action => .ok (.action action blockId)
      | none => .error (.action name)
    | some "repeat" => do
      let count ← readCount ((Json.obj members).getD "count")
      let body ← readProgram ((Json.obj members).getD "body")
      pure (.loop count body blockId)
    | some "repeat_until" => do
      let condition ← readCondition ((Json.obj members).getD "condition")
      let body ← readProgram ((Json.obj members).getD "body")
      pure (.loopUntil condition body blockId)
    | some "if" => do
      let condition ← readCondition ((Json.obj members).getD "condition")
      let body ← readProgram ((Json.obj members).getD "thenBranch")
      if ((Json.obj members).getD "elseBranch").toOption.isNone then
        pure (.ifThen condition body blockId)
      else
        let other ← readProgram ((Json.obj members).getD "elseBranch")
        pure (.ifElse condition body other blockId)
    | _ => .error (.nodeType type)
  | v => .error (.nodeNoObject v.kind)
termination_by sizeOf v
decreasing_by all_goals exact Json.sizeOf_getD_lt _ _

/-- A program: an object of type `sequence`; without steps it is empty. -/
def readProgram (v : Json) : Except Fault Program :=
  match v with
  | .obj members =>
    if ((Json.obj members).getD "type").toText? == some "sequence" then
      match _h : Json.lookup "steps" members with
      | none => .ok []
      | some (.arr steps) => readSteps steps
      | some _ => .error .noSteps
    else .error .noProgram
  | _ => .error .noProgram
termination_by sizeOf v
decreasing_by
  have := Json.sizeOf_lookup_lt _h
  simp only [Json.arr.sizeOf_spec, Json.obj.sizeOf_spec] at *
  omega

/-- Nodes in order. -/
def readSteps (steps : List Json) : Except Fault (List Node) :=
  match steps with
  | [] => .ok []
  | v :: rest => do
    let node ← readNode v
    let others ← readSteps rest
    pure (node :: others)
termination_by sizeOf steps

end

/-- The program a JSON value describes. -/
def ofJson (v : Json) : Except Fault Program := readProgram v

end Program

end RobotPuzzle
