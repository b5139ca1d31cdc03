/-
  Programs that are written and read again.

  1. **There and back** (`spells_toJson`) — what the writer makes of a program spells that program, member
     by member, so the reader returns it.
  2. **The tidy form** (`tidy`) — what is left of a value when every object keeps only the members that an
     object of its kind has, in the order in which they are written, and the second name of a condition is
     replaced by the first.  It is computed from the value alone, by a table of the vocabulary.
  3. **Back and there** (`toJson_of_spells`) — what is written of a program that has been read is the tidy
     form of the value it was read from, along the derivation that the value spells the program.
  4. **Together** — `reads_back`: every program is read back, and what is written of one that has been read
     is the tidy form of the value, which is the same program again.

  The crux is that `tidy` is defined without the reader and the writer, and that it meets them at the
  derivations: for each rule of the grammar, what is written of the program and what is left of the value
  are the same members in the same order.

  Two theorems in one: what is written is read back, and what was read is written in one form.  The first
  is about programs, the second about values; together they say that `tidy` picks one value out of all
  that spell the same program.
-/
import RobotPuzzle.Program.Writer
import RobotPuzzle.Proofs.Grammar

namespace RobotPuzzle

theorem Json.getD_of_get? {v w : Json} {name : String} (h : v.get? name = some w) :
    v.getD name = w := by
  rw [Json.getD, h, Option.getD_some]

namespace Program

/-! ## What is written spells the program

  A node is written as its own members with the block identifier behind them, if it has one.  All nodes
  are written in this way, so the lemmas on members are about any list in front of that identifier. -/

section Written

variable {members : List (String × Json)} {name : String} {blockId v w : Json}

theorem getD_written (hv : .obj (members ++ blockMember blockId) = v)
    (h : Json.lookup name members = some w) : v.getD name = w := by
  rw [← hv, Json.getD, Json.get?_obj, Json.lookup_append, h]
  rfl

/-- The block identifier is found, or is null if it has not been written. -/
theorem getD_blockId (hv : .obj (members ++ blockMember blockId) = v)
    (h : Json.lookup "blockId" members = none) : v.getD "blockId" = blockId := by
  rw [← hv, Json.getD, Json.get?_obj, Json.lookup_append, h]
  cases blockId <;> rfl

/-- Nothing but a block identifier is written behind the other members. -/
theorem getD_unwritten (hv : .obj (members ++ blockMember blockId) = v)
    (h : Json.lookup name members = none) (hname : name ≠ "blockId") : v.getD name = .null := by
  have hlast : Json.lookup name (blockMember blockId) = none := by
    cases blockId <;> simp [blockMember, Json.lookup, Ne.symm hname]
  rw [← hv, Json.getD, Json.get?_obj, Json.lookup_append, h, hlast]
  rfl

theorem spells_conditionToJson (c : Condition) : SpellsCondition c.toJson c := by
  induction c with
  | primitive kind => exact .primitive rfl (.name kind)
  | not operand ih => exact .not rfl ih
  | and left right ihl ihr => exact .and rfl ihl ihr
  | or left right ihl ihr => exact .or rfl ihl ihr

/-- A program is spelled by what is written of it if its steps are. -/
theorem spells_ofSteps {p : Program} (h : SpellsSteps (stepsToJson p) p) :
    SpellsProgram (Program.toJson p) p := by
  rw [Program.toJson]
  exact .steps rfl rfl h

/-- The condition of a node is spelled by the member of that name. -/
theorem spells_condition {c : Condition} (hv : .obj (members ++ blockMember blockId) = v)
    (h : Json.lookup "condition" members = some c.toJson) :
    SpellsCondition (v.getD "condition") c := by
  rw [getD_written hv h]
  exact spells_conditionToJson c

theorem spells_branch {p : Program} (name : String)
    (hv : .obj (members ++ blockMember blockId) = v)
    (h : Json.lookup name members = some (Program.toJson p))
    (hp : SpellsSteps (stepsToJson p) p) : SpellsProgram (v.getD name) p := by
  rw [getD_written hv h]
  exact spells_ofSteps hp

end Written

mutual

/-- What is written of a node spells it. -/
theorem spells_nodeToJson (n : Node) : SpellsNode n.toJson n := by
  generalize hv : n.toJson = v
  cases n with
  | action a blockId =>
    rw [Node.toJson] at hv
    rw [← getD_blockId hv rfl]
    exact .action (getD_written hv rfl) (getD_written hv rfl)
  | loop count body blockId =>
    rw [Node.toJson] at hv
    have hbody := spells_branch "body" hv rfl (spells_stepsToJson body)
    rw [← getD_blockId hv rfl]
    exact .loop (getD_written hv rfl) (getD_written hv rfl) hbody
  | loopUntil c body blockId =>
    rw [Node.toJson] at hv
    have hbody := spells_branch "body" hv rfl (spells_stepsToJson body)
    rw [← getD_blockId hv rfl]
    exact .loopUntil (getD_written hv rfl) (spells_condition hv rfl) hbody
  | ifThen c body blockId =>
    rw [Node.toJson] at hv
    have hbody := spells_branch "thenBranch" hv rfl (spells_stepsToJson body)
    -- no second branch is written, and that is what spells one without it
    have helse : v.getD "elseBranch" = .null := getD_unwritten hv rfl (by decide)
    rw [← getD_blockId hv rfl]
    exact .ifThen (getD_written hv rfl) (spells_condition hv rfl) hbody helse
  | ifElse c body other blockId =>
    rw [Node.toJson] at hv
    have hbody := spells_branch "thenBranch" hv rfl (spells_stepsToJson body)
    have hother := spells_branch "elseBranch" hv rfl (spells_stepsToJson other)
    rw [← getD_blockId hv rfl]
    exact .ifElse (getD_written hv rfl) (spells_condition hv rfl) hbody hother

/-- So it is with steps, one by one. -/
theorem spells_stepsToJson (p : List Node) : SpellsSteps (stepsToJson p) p := by
  cases p with
  | nil =>
    rw [stepsToJson]
    exact .nil
  | cons n rest =>
    rw [stepsToJson]
    exact .cons (spells_nodeToJson n) (spells_stepsToJson rest)

end

/-- **What is written of a program spells it.** -/
theorem spells_toJson (p : Program) : SpellsProgram (Program.toJson p) p :=
  spells_ofSteps (spells_stepsToJson p)

/-! ## The tidy form

  The kind of an object is named in one of two members, and which one it is depends on where the object
  stands.  So `tidyIn` is told the name of that member on the way down. -/

/-- The members that an object of that kind has, in the order in which they are written. -/
def vocabulary : String → List String
  | "sequence" => ["type", "steps"]
  | "action" => ["type", "action", "blockId"]
  | "repeat" => ["type", "count", "body", "blockId"]
  | "repeat_until" => ["type", "condition", "body", "blockId"]
  | "if" => ["type", "condition", "thenBranch", "elseBranch", "blockId"]
  | "primitive" => ["kind", "condition"]
  | "not" => ["kind", "operand"]
  | "and" => ["kind", "left", "right"]
  | "or" => ["kind", "left", "right"]
  | _ => []

/-- The member in which an object names its kind, when it stands in the member of that name:
`kind` for conditions, `type` for all else. -/
def kindMember : String → String
  | "condition" => "kind"
  | "operand" => "kind"
  | "left" => "kind"
  | "right" => "kind"
  | _ => "type"

/-- A member that is there.  Steps that are missing are none. -/
def keep (name : String) : Json → List (String × Json)
  | .null => if name == "steps" then [(name, .arr [])] else []
  | v => [(name, v)]

/-- A value that names its kind in that member, with the members of the vocabulary only.  A block
identifier is nobody's business and stays as it is. -/
def tidyIn (member : String) (v : Json) : Json :=
  match v with
  | .obj members =>
    let kind := (((Json.obj members).getD member).toText?).getD ""
    .obj ((vocabulary kind).flatMap fun name =>
      if name == "blockId" then keep name ((Json.obj members).getD name)
      else keep name (tidyIn (kindMember name) ((Json.obj members).getD name)))
  | .arr items => .arr (items.map (tidyIn member))
  | .str text => .str (if text == "AHEAD_CLEAR" then "PATH_AHEAD_CLEAR" else text)
  | v => v
termination_by sizeOf v
decreasing_by
  · exact Json.sizeOf_getD_lt _ _
  · rename_i hitem
    have := List.sizeOf_lt_of_mem hitem
    simp only [Json.arr.sizeOf_spec]
    omega

/-- The tidy form of a program. -/
def tidy (v : Json) : Json := tidyIn "type" v

/-- A branch with the second name of its condition, with members that no branch has, and with a body that
leaves out its steps. -/
def loose : Json :=
  .obj [("version", .int 2), ("type", .str "sequence"), ("steps", .arr [
    .obj [("blockId", .str "b1"), ("note", .null), ("elseBranch", .null), ("type", .str "if"),
      ("condition", .obj [("condition", .str "AHEAD_CLEAR"), ("kind", .str "primitive")]),
      ("thenBranch", .obj [("type", .str "sequence")])]])]

example : tidy loose =
  .obj [("type", .str "sequence"), ("steps", .arr [
    .obj [("type", .str "if"),
      ("condition", .obj [("kind", .str "primitive"), ("condition", .str "PATH_AHEAD_CLEAR")]),
      ("thenBranch", .obj [("type", .str "sequence"), ("steps", .arr [])]),
      ("blockId", .str "b1")]])] := by
  cbv

theorem tidyIn_of_kind {member kind : String} {v : Json} (h : v.getD member = .str kind) :
    tidyIn member v = .obj ((vocabulary kind).flatMap fun name =>
      if name == "blockId" then keep name (v.getD name)
      else keep name (tidyIn (kindMember name) (v.getD name))) := by
  obtain ⟨members, rfl⟩ := Json.eq_obj_of_getD h
  rw [tidyIn]
  simp only [h]
  rfl

@[simp] theorem keep_text (name text : String) : keep name (.str text) = [(name, .str text)] := rfl

@[simp] theorem keep_int (name : String) (n : Int) : keep name (.int n) = [(name, .int n)] := rfl

@[simp] theorem keep_arr (name : String) (items : List Json) :
    keep name (.arr items) = [(name, .arr items)] := rfl

@[simp] theorem keep_elseBranch : keep "elseBranch" .null = [] := rfl

@[simp] theorem keep_steps : keep "steps" .null = [("steps", .arr [])] := rfl

@[simp] theorem keep_condition (name : String) (c : Condition) :
    keep name c.toJson = [(name, c.toJson)] := by
  cases c <;> rfl

@[simp] theorem keep_program (name : String) (p : Program) :
    keep name (Program.toJson p) = [(name, Program.toJson p)] := by
  rw [Program.toJson]
  rfl

/-- A block identifier is kept as the writer writes it: not at all if it is null. -/
@[simp] theorem keep_blockId (v : Json) : keep "blockId" v = blockMember v := by
  cases v <;> rfl

@[simp] theorem tidyIn_null (member : String) : tidyIn member .null = .null := by
  rw [tidyIn] <;> exact fun _ h => nomatch h

@[simp] theorem tidyIn_int (member : String) (n : Int) : tidyIn member (.int n) = .int n := by
  rw [tidyIn] <;> exact fun _ h => nomatch h

@[simp] theorem tidyIn_arr (member : String) (items : List Json) :
    tidyIn member (.arr items) = .arr (items.map (tidyIn member)) := by
  rw [tidyIn]

theorem tidyIn_text {member text : String} (h : text ≠ "AHEAD_CLEAR") :
    tidyIn member (.str text) = .str text := by
  rw [tidyIn, if_neg (by simpa using h)]

/-- The name of a kind of condition becomes its own name. -/
theorem tidyIn_kindName {member : String} {v : Json} {kind : ConditionKind} (h : NamesKind v kind) :
    tidyIn member v = .str kind.name := by
  cases h with
  | name =>
    apply tidyIn_text
    cases kind <;> decide
  | aheadClear =>
    rw [tidyIn]
    rfl

theorem tidyIn_actionName {member : String} (a : Action) :
    tidyIn member (.str a.name) = .str a.name := by
  apply tidyIn_text
  cases a <;> decide

/-! ## A program that has been read is written tidily

  By induction on the derivation.  In each case the vocabulary of the kind is gone through, and what a
  member is made of is known from its rule or from the induction. -/

/-- What is written of a condition is the tidy form of any value that spells it. -/
theorem conditionToJson_of_spells {v : Json} {c : Condition} (h : SpellsCondition v c) :
    c.toJson = tidyIn "kind" v := by
  induction h with
  | primitive hkind hname =>
    rw [tidyIn_of_kind hkind]
    simp [vocabulary, kindMember, hkind, tidyIn_text, tidyIn_kindName hname, Condition.toJson]
  | not hkind hc ih =>
    rw [tidyIn_of_kind hkind]
    simp [vocabulary, kindMember, hkind, tidyIn_text, ← ih, Condition.toJson]
  | and hkind hc hd ihc ihd =>
    rw [tidyIn_of_kind hkind]
    simp [vocabulary, kindMember, hkind, tidyIn_text, ← ihc, ← ihd, Condition.toJson]
  | or hkind hc hd ihc ihd =>
    rw [tidyIn_of_kind hkind]
    simp [vocabulary, kindMember, hkind, tidyIn_text, ← ihc, ← ihd, Condition.toJson]

mutual

/-- So it is with nodes. -/
theorem nodeToJson_of_spells {v : Json} {n : Node} : SpellsNode v n → n.toJson = tidyIn "type" v
  | .action htype ha => by
    -- the type tells which members are kept, and each of them is tidied
    rw [tidyIn_of_kind htype]
    simp [vocabulary, kindMember, htype, ha, tidyIn_text, tidyIn_actionName, Node.toJson]
  | .loop htype hcount hbody => by
    have hbody := toJson_of_spells hbody
    rw [tidyIn_of_kind htype]
    simp [vocabulary, kindMember, htype, hcount, tidyIn_text, ← hbody, Node.toJson]
  | .loopUntil htype hc hbody => by
    have hc := conditionToJson_of_spells hc
    have hbody := toJson_of_spells hbody
    rw [tidyIn_of_kind htype]
    simp [vocabulary, kindMember, htype, tidyIn_text, ← hc, ← hbody, Node.toJson]
  | .ifThen htype hc hbody helse => by
    have hc := conditionToJson_of_spells hc
    have hbody := toJson_of_spells hbody
    rw [tidyIn_of_kind htype]
    simp [vocabulary, kindMember, htype, helse, tidyIn_text, ← hc, ← hbody, Node.toJson]
  | .ifElse htype hc hbody hother => by
    have hc := conditionToJson_of_spells hc
    have hbody := toJson_of_spells hbody
    have hother := toJson_of_spells hother
    rw [tidyIn_of_kind htype]
    simp [vocabulary, kindMember, htype, tidyIn_text, ← hc, ← hbody, ← hother, Node.toJson]

/-- So it is with programs, and steps that are left out are written as an empty list. -/
theorem toJson_of_spells {v : Json} {p : List Node} :
    SpellsProgram v p → Program.toJson p = tidyIn "type" v
  | .empty htype hsteps => by
    have hsteps : v.getD "steps" = .null := by rw [Json.getD, hsteps, Option.getD_none]
    rw [tidyIn_of_kind htype]
    simp [vocabulary, kindMember, htype, hsteps, tidyIn_text, Program.toJson, stepsToJson]
  | .steps htype hsteps hnodes => by
    have hsteps := Json.getD_of_get? hsteps
    have hnodes := stepsToJson_of_spells hnodes
    rw [tidyIn_of_kind htype]
    simp [vocabulary, kindMember, htype, hsteps, tidyIn_text, ← hnodes, Program.toJson]

theorem stepsToJson_of_spells {steps : List Json} {p : List Node} :
    SpellsSteps steps p → stepsToJson p = steps.map (tidyIn "type")
  | .nil => by
    rw [stepsToJson]
    rfl
  | .cons hn hnodes => by
    rw [stepsToJson, List.map_cons, nodeToJson_of_spells hn, stepsToJson_of_spells hnodes]

end

theorem ofJson_toJson (p : Program) : ofJson (Program.toJson p) = .ok p :=
  ofJson_eq_ok_iff.2 (spells_toJson p)

/-- What is written of a program that has been read is the tidy form of the value. -/
theorem toJson_eq_tidy {v : Json} {p : Program} (h : ofJson v = .ok p) : Program.toJson p = tidy v :=
  toJson_of_spells (ofJson_eq_ok_iff.1 h)

/-- **Programs are read back from what is written of them.**  And whatever value a program was read from,
what is written of the program is the tidy form of that value, which is the same program again. -/
theorem reads_back :
    (∀ p : Program, ofJson (Program.toJson p) = .ok p) ∧
      ∀ (v : Json) (p : Program), ofJson v = .ok p →
        Program.toJson p = tidy v ∧ ofJson (tidy v) = .ok p := by
  refine ⟨ofJson_toJson, fun v p h => ?_⟩
  have htidy := toJson_eq_tidy h
  refine ⟨htidy, ?_⟩
  rw [← htidy]
  exact ofJson_toJson p

/-- The branch is read, and what is written of it has neither the second name nor the other members. -/
theorem reads_back_loose :
    ofJson loose = .ok [.ifThen (.primitive .pathAheadClear) [] (.str "b1")] ∧
      Program.toJson [.ifThen (.primitive .pathAheadClear) [] (.str "b1")] = tidy loose ∧
      ofJson (tidy loose) = .ok [.ifThen (.primitive .pathAheadClear) [] (.str "b1")] := by
  have hsteps : SpellsProgram loose [.ifThen (.primitive .pathAheadClear) [] (.str "b1")] :=
    .steps rfl rfl (.cons (.ifThen rfl (.primitive rfl .aheadClear) (.empty rfl rfl) rfl) .nil)
  have hread := ofJson_eq_ok_iff.2 hsteps
  exact ⟨hread, reads_back.2 _ _ hread⟩

end Program

end RobotPuzzle
