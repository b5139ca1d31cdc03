/-
  Programs as JSON.
-/
import RobotPuzzle.Program.Basic

namespace RobotPuzzle

def Condition.toJson : Condition → Json
  | .primitive kind => .obj [("kind", .str "primitive"), ("condition", .str kind.name)]
  | .not operand => .obj [("kind", .str "not"), ("operand", operand.toJson)]
  | .and left right => .obj [("kind", .str "and"), ("left", left.toJson), ("right", right.toJson)]
  | .or left right => .obj [("kind", .str "or"), ("left", left.toJson), ("right", right.toJson)]

/-- The member for a block identifier, if there is one. -/
def blockMember : Json → List (String × Json)
  | .null => []
  | blockId => [("blockId", blockId)]

mutual

def Node.toJson : Node → Json
  | .action action blockId =>
    .obj ([("type", .str "action"), ("action", .str action.name)] ++ blockMember blockId)
  | .loop count body blockId =>
    .obj ([("type", .str "repeat"), ("count", .int count), ("body", Program.toJson body)]
      ++ blockMember blockId)
  | .loopUntil condition body blockId =>
    .obj ([("type", .str "repeat_until"), ("condition", condition.toJson),
      ("body", Program.toJson body)] ++ blockMember blockId)
  | .ifThen condition body blockId =>
    .obj ([("type", .str "if"), ("condition", condition.toJson), ("thenBranch", Program.toJson body)]
      ++ blockMember blockId)
  | .ifElse condition body other blockId =>
    .obj ([("type", .str "if"), ("condition", condition.toJson), ("thenBranch", Program.toJson body),
      ("elseBranch", Program.toJson other)] ++ blockMember blockId)

/-- A program is an object of type `sequence` with its nodes as steps. -/
def Program.toJson (p : List Node) : Json :=
  .obj [("type", .str "sequence"), ("steps", .arr (Program.stepsToJson p))]

def Program.stepsToJson : List Node → List Json
  | [] => []
  | n :: rest => n.toJson :: Program.stepsToJson rest

end

end RobotPuzzle
