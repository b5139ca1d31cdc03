/-
  The grammar of programs, and that the reader accepts just that.

  1. **The grammar** — which values spell which program (`SpellsProgram`), said member by member: a member
     that is missing counts as `null`, and only `steps` may be missing where `null` would be refused.
  2. **Stumbling** — the reader goes through a value in a fixed order and stops at the first fault.  It
     stumbles if that is the name of a condition that is a list or an object (`ProgramStumbles`); every
     other fault is a refusal.
  3. **Outcomes** — what the reader returns is spelled, and where it fails without refusing it has stumbled:
     `Accounts`, with a rule for one reading after the other, along the recursion of the reader.
  4. **Completeness** — the reader returns whatever is spelled and fails wherever it stumbles, along the
     derivations, with one equation of the reader for each kind of object.
  5. **Together** — `ofJson_grammar`.  Stumbling does happen: `listNamed` has a condition whose name is a
     list, so it is no program, and it is not refused either.

  The crux is that what is spelled and where it stumbles are two relations on the value alone, and both
  are met by the reader from either side.  Going along the reader shows that nothing else comes out of it;
  going along a derivation shows that it does come out.  Neither direction uses the other, and the three
  outcomes follow from both.

  The grammar is a relation between values and programs, with one rule for each node and each condition.
  It does not fix the order of members and allows others beside them.  The reader is shown to be a
  decision procedure for it, but for one kind of value; of that kind the example has the smallest, a
  condition whose name is a list.
-/
import RobotPuzzle.Program.Reader

namespace RobotPuzzle

namespace Json

/-- A list or an object. -/
def compound : Json → Bool
  | .arr _ => true
  | .obj _ => true
  | _ => false

/-- Only a text is one. -/
theorem eq_str_of_toText? {v : Json} {text : String} (h : v.toText? = some text) : v = .str text := by
  cases v with
  | str s =>
    cases h
    rfl
  | null => cases h
  | bool b => cases h
  | int n => cases h
  | real x => cases h
  | arr items => cases h
  | obj members => cases h

theorem toOption_isNone_iff {v : Json} : v.toOption.isNone = true ↔ v = .null := by
  cases v <;> simp [toOption]

/-- Only an object has members other than `null`. -/
theorem eq_obj_of_getD {v : Json} {name text : String} (h : v.getD name = .str text) :
    ∃ members, v = .obj members := by
  cases v with
  | obj members => exact ⟨members, rfl⟩
  | null => cases h
  | bool b => cases h
  | int n => cases h
  | real x => cases h
  | str s => cases h
  | arr items => cases h

end Json

namespace Program

/-! ## The grammar

  A condition is spelled by an object with a `kind`, a node by one with a `type`, and either may have
  other members besides, which are not looked at.  The three relations for programs go together, as the
  reader does. -/

/-- A value is the name of a kind of condition. -/
inductive NamesKind : Json → ConditionKind → Prop where
  /-- the name of the kind -/
  | name (kind : ConditionKind) : NamesKind (.str kind.name) kind
  /-- or the short one that one of them has besides -/
  | aheadClear : NamesKind (.str "AHEAD_CLEAR") .pathAheadClear

/-- A value spells a condition. -/
inductive SpellsCondition : Json → Condition → Prop where
  /-- a question to the sensors, by name -/
  | primitive {v : Json} {kind : ConditionKind} (hkind : v.getD "kind" = .str "primitive")
      (hname : NamesKind (v.getD "condition") kind) : SpellsCondition v (.primitive kind)
  /-- the opposite of an operand -/
  | not {v : Json} {c : Condition} (hkind : v.getD "kind" = .str "not")
      (hc : SpellsCondition (v.getD "operand") c) : SpellsCondition v (.not c)
  /-- both of two -/
  | and {v : Json} {c d : Condition} (hkind : v.getD "kind" = .str "and")
      (hc : SpellsCondition (v.getD "left") c) (hd : SpellsCondition (v.getD "right") d) :
      SpellsCondition v (.and c d)
  /-- one of two -/
  | or {v : Json} {c d : Condition} (hkind : v.getD "kind" = .str "or")
      (hc : SpellsCondition (v.getD "left") c) (hd : SpellsCondition (v.getD "right") d) :
      SpellsCondition v (.or c d)

mutual

/-- A value spells a node. -/
inductive SpellsNode : Json → Node → Prop where
  /-- an action, by name -/
  | action {v : Json} {a : Action} (htype : v.getD "type" = .str "action")
      (ha : v.getD "action" = .str a.name) : SpellsNode v (.action a (v.getD "blockId"))
  /-- a body and how often it is run, which is a number from nought -/
  | loop {v : Json} {count : Nat} {body : List Node} (htype : v.getD "type" = .str "repeat")
      (hcount : v.getD "count" = .int count) (hbody : SpellsProgram (v.getD "body") body) :
      SpellsNode v (.loop count body (v.getD "blockId"))
  /-- a body and a condition that ends it -/
  | loopUntil {v : Json} {c : Condition} {body : List Node}
      (htype : v.getD "type" = .str "repeat_until") (hc : SpellsCondition (v.getD "condition") c)
      (hbody : SpellsProgram (v.getD "body") body) :
      SpellsNode v (.loopUntil c body (v.getD "blockId"))
  /-- a branch; a second one may be null -/
  | ifThen {v : Json} {c : Condition} {body : List Node} (htype : v.getD "type" = .str "if")
      (hc : SpellsCondition (v.getD "condition") c)
      (hbody : SpellsProgram (v.getD "thenBranch") body) (helse : v.getD "elseBranch" = .null) :
      SpellsNode v (.ifThen c body (v.getD "blockId"))
  /-- two branches -/
  | ifElse {v : Json} {c : Condition} {body other : List Node} (htype : v.getD "type" = .str "if")
      (hc : SpellsCondition (v.getD "condition") c)
      (hbody : SpellsProgram (v.getD "thenBranch") body)
      (hother : SpellsProgram (v.getD "elseBranch") other) :
      SpellsNode v (.ifElse c body other (v.getD "blockId"))

/-- A value spells a program. -/
inductive SpellsProgram : Json → List Node → Prop where
  /-- steps may be left out -/
  | empty {v : Json} (htype : v.getD "type" = .str "sequence") (hsteps : v.get? "steps" = none) :
      SpellsProgram v []
  /-- or are listed -/
  | steps {v : Json} {steps : List Json} {nodes : List Node}
      (htype : v.getD "type" = .str "sequence") (hsteps : v.get? "steps" = some (.arr steps))
      (hnodes : SpellsSteps steps nodes) : SpellsProgram v nodes

/-- Values spell nodes, one by one. -/
inductive SpellsSteps : List Json → List Node → Prop where
  /-- no steps -/
  | nil : SpellsSteps [] []
  /-- a step, and those behind it -/
  | cons {v : Json} {rest : List Json} {n : Node} {nodes : List Node} (hn : SpellsNode v n)
      (hnodes : SpellsSteps rest nodes) : SpellsSteps (v :: rest) (n :: nodes)

end

/-! ## Stumbling

  An object is read member by member, so each case says that the members before have been read.  Where the
  first fault is a refusal there is no derivation, whatever comes later. -/

/-- The first fault of a condition is a name that is a list or an object. -/
inductive ConditionStumbles : Json → Prop where
  /-- the name itself -/
  | name {v : Json} (hkind : v.getD "kind" = .str "primitive")
      (hname : (v.getD "condition").compound = true) : ConditionStumbles v
  /-- in the operand -/
  | operand {v : Json} (hkind : v.getD "kind" = .str "not")
      (hc : ConditionStumbles (v.getD "operand")) : ConditionStumbles v
  /-- in the first of two -/
  | left {v : Json} (hkind : v.getD "kind" = .str "and" ∨ v.getD "kind" = .str "or")
      (hc : ConditionStumbles (v.getD "left")) : ConditionStumbles v
  /-- in the second one, if the first can be read -/
  | right {v : Json} {c : Condition} (hkind : v.getD "kind" = .str "and" ∨ v.getD "kind" = .str "or")
      (hc : SpellsCondition (v.getD "left") c) (hd : ConditionStumbles (v.getD "right")) :
      ConditionStumbles v

mutual

/-- The first fault of a node is such a name. -/
inductive NodeStumbles : Json → Prop where
  /-- in a counted body, if the count can be read -/
  | loopBody {v : Json} {count : Nat} (htype : v.getD "type" = .str "repeat")
      (hcount : v.getD "count" = .int count) (hbody : ProgramStumbles (v.getD "body")) :
      NodeStumbles v
  /-- in a condition, which is read first -/
  | condition {v : Json} (htype : v.getD "type" = .str "repeat_until" ∨ v.getD "type" = .str "if")
      (hc : ConditionStumbles (v.getD "condition")) : NodeStumbles v
  /-- in the body behind it -/
  | untilBody {v : Json} {c : Condition} (htype : v.getD "type" = .str "repeat_until")
      (hc : SpellsCondition (v.getD "condition") c) (hbody : ProgramStumbles (v.getD "body")) :
      NodeStumbles v
  /-- in the first branch -/
  | thenBranch {v : Json} {c : Condition} (htype : v.getD "type" = .str "if")
      (hc : SpellsCondition (v.getD "condition") c)
      (hbody : ProgramStumbles (v.getD "thenBranch")) : NodeStumbles v
  /-- in the second one, if the first can be read -/
  | elseBranch {v : Json} {c : Condition} {body : List Node} (htype : v.getD "type" = .str "if")
      (hc : SpellsCondition (v.getD "condition") c)
      (hbody : SpellsProgram (v.getD "thenBranch") body)
      (hother : ProgramStumbles (v.getD "elseBranch")) : NodeStumbles v

/-- The first fault of a program is such a name. -/
inductive ProgramStumbles : Json → Prop where
  /-- in the steps -/
  | steps {v : Json} {steps : List Json} (htype : v.getD "type" = .str "sequence")
      (hsteps : v.get? "steps" = some (.arr steps)) (hs : StepsStumble steps) : ProgramStumbles v

/-- The first fault of some steps is such a name. -/
inductive StepsStumble : List Json → Prop where
  /-- in the first step -/
  | here {v : Json} {rest : List Json} (hv : NodeStumbles v) : StepsStumble (v :: rest)
  /-- in a later one, if the first can be read -/
  | later {v : Json} {rest : List Json} {n : Node} (hn : SpellsNode v n)
      (hrest : StepsStumble rest) : StepsStumble (v :: rest)

end

/-! ## Names and numbers

  What stands at the leaves: kinds of conditions, counts and actions. -/

theorem readConditionKind_of_names {v : Json} {kind : ConditionKind} (h : NamesKind v kind) :
    readConditionKind v = .ok kind := by
  cases h with
  | name => rw [readConditionKind, ConditionKind.ofName?_name]
  | aheadClear => rfl

/-- What is read as a kind is a name of it, either its own or the second one. -/
theorem names_of_ofName? {text : String} {kind : ConditionKind}
    (h : ConditionKind.ofName? text = some kind) : NamesKind (.str text) kind := by
  unfold ConditionKind.ofName? at h
  split at h
  · rename_i halias
    cases h
    rw [beq_iff_eq.1 halias]
    exact .aheadClear
  · have hname : kind.name = text := by simpa using List.find?_some h
    rw [← hname]
    exact .name kind

/-- A count is a whole number, and not below zero. -/
theorem readCount_eq_ok_iff {v : Json} {n : Nat} : readCount v = .ok n ↔ v = .int n := by
  constructor
  · intro h
    unfold readCount at h
    split at h
    · rename_i m
      split at h
      · rename_i hm
        cases h
        rw [Int.toNat_of_nonneg hm]
      · cases h
    · cases h
  · rintro rfl
    rw [readCount, if_pos (Int.natCast_nonneg n), Int.toNat_natCast]

/-- An action is read from its name. -/
theorem actionOfJson?_eq_some_iff {v : Json} {a : Action} :
    Action.ofJson? v = some a ↔ v = .str a.name := by
  unfold Action.ofJson?
  rw [Option.bind_eq_some_iff]
  constructor
  · rintro ⟨text, htext, ha⟩
    rw [Json.eq_str_of_toText? htext, Action.name_of_ofName? ha]
  · rintro rfl
    exact ⟨a.name, rfl, Action.ofName?_name a⟩

/-! ## The reader, kind by kind

  The reader looks at the kind of an object and branches.  With the kind known, these say what is left of
  it, so that no proof below has to go through the branches again. -/

section Equations

variable {v : Json}

theorem readCondition_primitive (h : v.getD "kind" = .str "primitive") :
    readCondition v = (do
      let kind ← readConditionKind (v.getD "condition")
      pure (.primitive kind)) := by
  obtain ⟨members, rfl⟩ := Json.eq_obj_of_getD h
  rw [readCondition, h]
  rfl

theorem readCondition_not (h : v.getD "kind" = .str "not") :
    readCondition v = (do
      let operand ← readCondition (v.getD "operand")
      pure (.not operand)) := by
  obtain ⟨members, rfl⟩ := Json.eq_obj_of_getD h
  rw [readCondition, h]
  rfl

theorem readCondition_and (h : v.getD "kind" = .str "and") :
    readCondition v = (do
      let left ← readCondition (v.getD "left")
      let right ← readCondition (v.getD "right")
      pure (.and left right)) := by
  obtain ⟨members, rfl⟩ := Json.eq_obj_of_getD h
  rw [readCondition, h]
  rfl

theorem readCondition_or (h : v.getD "kind" = .str "or") :
    readCondition v = (do
      let left ← readCondition (v.getD "left")
      let right ← readCondition (v.getD "right")
      pure (.or left right)) := by
  obtain ⟨members, rfl⟩ := Json.eq_obj_of_getD h
  rw [readCondition, h]
  rfl

/-- An action has a name, and a block identifier that is taken as it is. -/
theorem readNode_action (h : v.getD "type" = .str "action") :
    readNode v =
      match Action.ofJson? (v.getD "action") with
      | some action => .ok (.action action (v.getD "blockId"))
      | none => .error (.action (v.getD "action")) := by
  obtain ⟨members, rfl⟩ := Json.eq_obj_of_getD h
  rw [readNode, h]
  rfl

theorem readNode_repeat (h : v.getD "type" = .str "repeat") :
    readNode v = (do
      let count ← readCount (v.getD "count")
      let body ← readProgram (v.getD "body")
      pure (.loop count body (v.getD "blockId"))) := by
  obtain ⟨members, rfl⟩ := Json.eq_obj_of_getD h
  rw [readNode, h]
  rfl

theorem readNode_repeatUntil (h : v.getD "type" = .str "repeat_until") :
    readNode v = (do
      let condition ← readCondition (v.getD "condition")
      let body ← readProgram (v.getD "body")
      pure (.loopUntil condition body (v.getD "blockId"))) := by
  obtain ⟨members, rfl⟩ := Json.eq_obj_of_getD h
  rw [readNode, h]
  rfl

theorem readNode_if (h : v.getD "type" = .str "if") :
    readNode v = (do
      let condition ← readCondition (v.getD "condition")
      let body ← readProgram (v.getD "thenBranch")
      if (v.getD "elseBranch").toOption.isNone then
        pure (.ifThen condition body (v.getD "blockId"))
      else
        let other ← readProgram (v.getD "elseBranch")
        pure (.ifElse condition body other (v.getD "blockId"))) := by
  obtain ⟨members, rfl⟩ := Json.eq_obj_of_getD h
  rw [readNode, h]
  rfl

/-- A program has a list of steps, or none if they are left out. -/
theorem readProgram_sequence (h : v.getD "type" = .str "sequence") :
    readProgram v =
      match v.get? "steps" with
      | none => .ok []
      | some (.arr steps) => readSteps steps
      | some _ => .error .noSteps := by
  obtain ⟨members, rfl⟩ := Json.eq_obj_of_getD h
  have htype : (((Json.obj members).getD "type").toText? == some "sequence") = true := by
    rw [h]
    rfl
  rw [readProgram, if_pos htype, Json.get?_obj]
  split <;> simp_all

end Equations

/-! ## Outcomes

  This is one half of what is to be shown: nothing but what is spelled is returned, and nothing but
  stumbling fails without a refusal. -/

/-- A reading accounts for a value: what it returns is spelled by the value, and where it fails without
refusing the value stumbles. -/
def Accounts {α : Type} (spells : α → Prop) (stumbles : Prop) : Except Fault α → Prop
  | .ok a => spells a
  | .error fault => fault.isRefusal = false → stumbles

section Accounting

variable {α β : Type} {spells : α → Prop} {spells' : β → Prop} {stumbles stumbles' : Prop}

theorem Accounts.of_refusal {fault : Fault} (h : fault.isRefusal = true) :
    Accounts spells stumbles (.error fault) := by
  intro hf
  rw [h] at hf
  cases hf

/-- One reading after the other.  The second one is asked about what the first has returned, and so may
say that it is spelled. -/
theorem Accounts.bind {x : Except Fault α} {f : α → Except Fault β} (hx : Accounts spells stumbles x)
    (hs : stumbles → stumbles') (hf : ∀ a, spells a → Accounts spells' stumbles' (f a)) :
    Accounts spells' stumbles' (x >>= f) := by
  cases x with
  | ok a => exact hf a hx
  | error fault => exact fun h => hs (hx h)

end Accounting

/-- A name that is a list or an object is looked up, and that fails; any other value is refused. -/
theorem readConditionKind_accounts (v : Json) :
    Accounts (NamesKind v) (v.compound = true) (readConditionKind v) := by
  unfold readConditionKind
  split
  · split
    · rename_i hkind
      exact names_of_ofName? hkind
    · exact .of_refusal rfl
  · exact fun _ => rfl
  · exact fun _ => rfl
  · exact .of_refusal rfl

/-- A count never stumbles. -/
theorem readCount_accounts (v : Json) : Accounts (fun n : Nat => v = .int n) False (readCount v) := by
  cases h : readCount v with
  | ok n => exact readCount_eq_ok_iff.1 h
  | error fault =>
    unfold readCount at h
    split at h
    · split at h
      · cases h
      · cases h
        exact .of_refusal rfl
    · cases h
      exact .of_refusal rfl

/-- **Conditions**, by the recursion of the reader. -/
theorem readCondition_accounts (v : Json) :
    Accounts (SpellsCondition v) (ConditionStumbles v) (readCondition v) := by
  -- the recursion is that of the reader, one case for each kind of object
  cases v with
  | obj members =>
    rw [readCondition]
    split
    · rename_i hkind
      have hkind := Json.eq_str_of_toText? hkind
      refine (readConditionKind_accounts _).bind (.name hkind) ?_
      intro kind hname
      exact .primitive hkind hname
    · rename_i hkind
      have hkind := Json.eq_str_of_toText? hkind
      refine (readCondition_accounts _).bind (.operand hkind) ?_
      intro c hc
      exact .not hkind hc
    · rename_i hkind
      have hkind := Json.eq_str_of_toText? hkind
      refine (readCondition_accounts _).bind (.left (.inl hkind)) ?_
      intro c hc
      refine (readCondition_accounts _).bind (.right (.inl hkind) hc) ?_
      intro d hd
      exact .and hkind hc hd
    · rename_i hkind
      have hkind := Json.eq_str_of_toText? hkind
      refine (readCondition_accounts _).bind (.left (.inr hkind)) ?_
      intro c hc
      refine (readCondition_accounts _).bind (.right (.inr hkind) hc) ?_
      intro d hd
      exact .or hkind hc hd
    · exact .of_refusal rfl
  | _ =>
    rw [readCondition]
    · exact .of_refusal rfl
    · exact fun members h => Json.noConfusion h
termination_by sizeOf v
decreasing_by all_goals exact Json.sizeOf_getD_lt _ _

mutual

/-- **Nodes**, together with the programs in them and the steps of those.  Members are smaller than the
object that has them, so this ends. -/
theorem readNode_accounts (v : Json) :
    Accounts (SpellsNode v) (NodeStumbles v) (readNode v) := by
  cases v with
  | obj members =>
    rw [readNode]
    split
    · rename_i htype
      have htype := Json.eq_str_of_toText? htype
      dsimp only
      split
      · rename_i ha
        exact .action htype (actionOfJson?_eq_some_iff.1 ha)
      · exact .of_refusal rfl
    · rename_i htype
      have htype := Json.eq_str_of_toText? htype
      refine (readCount_accounts _).bind False.elim ?_
      intro count hcount
      refine (readProgram_accounts _).bind (.loopBody htype hcount) ?_
      intro body hbody
      exact .loop htype hcount hbody
    · rename_i htype
      have htype := Json.eq_str_of_toText? htype
      refine (readCondition_accounts _).bind (.condition (.inl htype)) ?_
      intro c hc
      refine (readProgram_accounts _).bind (.untilBody htype hc) ?_
      intro body hbody
      exact .loopUntil htype hc hbody
    · rename_i htype
      have htype := Json.eq_str_of_toText? htype
      refine (readCondition_accounts _).bind (.condition (.inr htype)) ?_
      intro c hc
      refine (readProgram_accounts _).bind (.thenBranch htype hc) ?_
      intro body hbody
      -- a missing branch is `null`, and that is not read as a program
      split
      · rename_i helse
        exact .ifThen htype hc hbody (Json.toOption_isNone_iff.1 helse)
      · refine (readProgram_accounts _).bind (.elseBranch htype hc hbody) ?_
        intro other hother
        exact .ifElse htype hc hbody hother
    · exact .of_refusal rfl
  | _ =>
    rw [readNode]
    · exact .of_refusal rfl
    · exact fun members h => Json.noConfusion h
termination_by sizeOf v
decreasing_by all_goals exact Json.sizeOf_getD_lt _ _

/-- **Programs.** -/
theorem readProgram_accounts (v : Json) :
    Accounts (SpellsProgram v) (ProgramStumbles v) (readProgram v) := by
  cases v with
  | obj members =>
    rw [readProgram]
    -- the type is asked first, and then the steps, which may be left out
    split
    · rename_i htype
      have htype := Json.eq_str_of_toText? (beq_iff_eq.1 htype)
      split
      · rename_i hsteps
        exact .empty htype hsteps
      · rename_i steps hsteps
        have hlt := Json.sizeOf_lookup_lt hsteps
        have hread := readSteps_accounts steps
        cases h : readSteps steps with
        | ok nodes =>
          rw [h] at hread
          exact .steps htype hsteps hread
        | error fault =>
          rw [h] at hread
          exact fun hf => .steps htype hsteps (hread hf)
      · exact .of_refusal rfl
    · exact .of_refusal rfl
  | _ =>
    rw [readProgram]
    · exact .of_refusal rfl
    · exact fun members h => Json.noConfusion h
termination_by sizeOf v
decreasing_by
  simp only [Json.arr.sizeOf_spec, Json.obj.sizeOf_spec] at *
  omega

/-- **Steps**: a step that stumbles does so behind steps that have been read. -/
theorem readSteps_accounts (steps : List Json) :
    Accounts (SpellsSteps steps) (StepsStumble steps) (readSteps steps) := by
  cases steps with
  | nil =>
    rw [readSteps]
    exact .nil
  | cons v rest =>
    rw [readSteps]
    refine (readNode_accounts v).bind .here ?_
    intro n hn
    refine (readSteps_accounts rest).bind (.later hn) ?_
    intro nodes hnodes
    exact .cons hn hnodes
termination_by sizeOf steps

end

/-! ## What is spelled is read

  The other half begins here.  Each rule has its equation, and in the equation the parts are read by
  induction. -/

theorem readCondition_of_spells {v : Json} {c : Condition} (h : SpellsCondition v c) :
    readCondition v = .ok c := by
  induction h with
  | primitive hkind hname => rw [readCondition_primitive hkind, readConditionKind_of_names hname]; rfl
  | not hkind hc ih => rw [readCondition_not hkind, ih]; rfl
  | and hkind hc hd ihc ihd => rw [readCondition_and hkind, ihc, ihd]; rfl
  | or hkind hc hd ihc ihd => rw [readCondition_or hkind, ihc, ihd]; rfl

/-- What has members is not `null`. -/
theorem toOption_isNone_of_getD {v : Json} {name text : String} (h : v.getD name = .str text) :
    v.toOption.isNone = false := by
  obtain ⟨members, rfl⟩ := Json.eq_obj_of_getD h
  rfl

theorem SpellsProgram.isSequence {v : Json} {nodes : List Node} (h : SpellsProgram v nodes) :
    v.getD "type" = .str "sequence" := by
  cases h with
  | empty htype hsteps => exact htype
  | steps htype hsteps hnodes => exact htype

theorem ProgramStumbles.isSequence {v : Json} (h : ProgramStumbles v) :
    v.getD "type" = .str "sequence" := by
  cases h with
  | steps htype hsteps hs => exact htype

mutual

/-- What spells a node is read as that node.  A second branch that is spelled is not null, so the reader
does look at it. -/
theorem readNode_of_spells {v : Json} {n : Node} : SpellsNode v n → readNode v = .ok n
  | .action htype ha => by rw [readNode_action htype, actionOfJson?_eq_some_iff.2 ha]
  | .loop htype hcount hbody => by
    rw [readNode_repeat htype, readCount_eq_ok_iff.2 hcount, readProgram_of_spells hbody]
    rfl
  | .loopUntil htype hc hbody => by
    rw [readNode_repeatUntil htype, readCondition_of_spells hc, readProgram_of_spells hbody]
    rfl
  | .ifThen htype hc hbody helse => by
    rw [readNode_if htype, readCondition_of_spells hc, readProgram_of_spells hbody, helse]
    rfl
  | .ifElse htype hc hbody hother => by
    rw [readNode_if htype, readCondition_of_spells hc, readProgram_of_spells hbody,
      readProgram_of_spells hother, toOption_isNone_of_getD hother.isSequence]
    rfl

theorem readProgram_of_spells {v : Json} {nodes : List Node} :
    SpellsProgram v nodes → readProgram v = .ok nodes
  | .empty htype hsteps => by rw [readProgram_sequence htype, hsteps]
  | .steps htype hsteps hnodes => by
    rw [readProgram_sequence htype, hsteps]
    exact readSteps_of_spells hnodes

theorem readSteps_of_spells {steps : List Json} {nodes : List Node} :
    SpellsSteps steps nodes → readSteps steps = .ok nodes
  | .nil => by rw [readSteps]
  | .cons hn hnodes => by
    rw [readSteps, readNode_of_spells hn, readSteps_of_spells hnodes]
    rfl

end

/-! ## Where it stumbles it fails

  What has been read before is known from the derivation, so the reader comes to the place where it
  stumbles. -/

theorem readConditionKind_of_compound {v : Json} (h : v.compound = true) :
    ∃ kind, readConditionKind v = .error (.conditionName kind) := by
  cases v with
  | arr items => exact ⟨_, rfl⟩
  | obj members => exact ⟨_, rfl⟩
  | _ => cases h

/-- A condition at which the reader stumbles fails with that fault. -/
theorem readCondition_of_stumbles {v : Json} (h : ConditionStumbles v) :
    ∃ kind, readCondition v = .error (.conditionName kind) := by
  induction h with
  | name hkind hname =>
    obtain ⟨kind, hk⟩ := readConditionKind_of_compound hname
    exact ⟨kind, by rw [readCondition_primitive hkind, hk]; rfl⟩
  | operand hkind hc ih =>
    obtain ⟨kind, hk⟩ := ih
    exact ⟨kind, by rw [readCondition_not hkind, hk]; rfl⟩
  | left hkind hc ih =>
    obtain ⟨kind, hk⟩ := ih
    refine ⟨kind, ?_⟩
    -- both kinds read the left operand first
    rcases hkind with hand | hor
    · rw [readCondition_and hand, hk]
      rfl
    · rw [readCondition_or hor, hk]
      rfl
  | right hkind hc hd ih =>
    obtain ⟨kind, hk⟩ := ih
    refine ⟨kind, ?_⟩
    rcases hkind with hand | hor
    · rw [readCondition_and hand, readCondition_of_spells hc, hk]
      rfl
    · rw [readCondition_or hor, readCondition_of_spells hc, hk]
      rfl

mutual

/-- So does a node. -/
theorem readNode_of_stumbles {v : Json} :
    NodeStumbles v → ∃ kind, readNode v = .error (.conditionName kind)
  | .loopBody htype hcount hbody => by
    obtain ⟨kind, hk⟩ := readProgram_of_stumbles hbody
    exact ⟨kind, by rw [readNode_repeat htype, readCount_eq_ok_iff.2 hcount, hk]; rfl⟩
  | .condition htype hc => by
    obtain ⟨kind, hk⟩ := readCondition_of_stumbles hc
    refine ⟨kind, ?_⟩
    -- both kinds read their condition before any body
    rcases htype with huntil | hif
    · rw [readNode_repeatUntil huntil, hk]
      rfl
    · rw [readNode_if hif, hk]
      rfl
  | .untilBody htype hc hbody => by
    obtain ⟨kind, hk⟩ := readProgram_of_stumbles hbody
    exact ⟨kind, by rw [readNode_repeatUntil htype, readCondition_of_spells hc, hk]; rfl⟩
  | .thenBranch htype hc hbody => by
    obtain ⟨kind, hk⟩ := readProgram_of_stumbles hbody
    exact ⟨kind, by rw [readNode_if htype, readCondition_of_spells hc, hk]; rfl⟩
  | .elseBranch htype hc hbody hother => by
    -- the second branch is looked at only when it is a sequence, so it is not left out
    obtain ⟨kind, hk⟩ := readProgram_of_stumbles hother
    refine ⟨kind, ?_⟩
    rw [readNode_if htype, readCondition_of_spells hc, readProgram_of_spells hbody, hk,
      toOption_isNone_of_getD hother.isSequence]
    rfl

theorem readProgram_of_stumbles {v : Json} :
    ProgramStumbles v → ∃ kind, readProgram v = .error (.conditionName kind)
  | .steps htype hsteps hs => by
    rw [readProgram_sequence htype, hsteps]
    exact readSteps_of_stumble hs

theorem readSteps_of_stumble {steps : List Json} :
    StepsStumble steps → ∃ kind, readSteps steps = .error (.conditionName kind)
  | .here hv => by
    obtain ⟨kind, hk⟩ := readNode_of_stumbles hv
    exact ⟨kind, by rw [readSteps, hk]; rfl⟩
  | .later hn hrest => by
    obtain ⟨kind, hk⟩ := readSteps_of_stumble hrest
    exact ⟨kind, by rw [readSteps, readNode_of_spells hn, hk]; rfl⟩

end

/-! ## The reader and its grammar

  Both halves together give an equivalence for each outcome but refusal, and refusal is what is left. -/

/-- What is returned is what is spelled. -/
theorem ofJson_eq_ok_iff {v : Json} {p : Program} : ofJson v = .ok p ↔ SpellsProgram v p := by
  constructor
  · intro h
    have hread := readProgram_accounts v
    rw [ofJson] at h
    rw [h] at hread
    exact hread
  · exact readProgram_of_spells

/-- The reader fails without refusing just where it stumbles. -/
theorem exists_conditionName_iff {v : Json} :
    (∃ kind, ofJson v = .error (.conditionName kind)) ↔ ProgramStumbles v := by
  constructor
  · rintro ⟨kind, h⟩
    have hread := readProgram_accounts v
    rw [ofJson] at h
    rw [h] at hread
    exact hread rfl
  · exact readProgram_of_stumbles

theorem exists_refusal_iff {v : Json} :
    (∃ fault, ofJson v = .error fault ∧ fault.isRefusal = true) ↔
      (¬ ∃ p, SpellsProgram v p) ∧ ¬ ProgramStumbles v := by
  simp only [← ofJson_eq_ok_iff, ← exists_conditionName_iff]
  cases ofJson v with
  | ok p => simp
  | error fault => cases fault <;> simp [Fault.isRefusal]

/-- **The reader accepts just its grammar.**  It returns a program for a value exactly if the value spells
that program.  Any other value is refused, except one at which the reader stumbles: there the name of a
condition, a list or an object, is looked up, and that is what fails. -/
theorem ofJson_grammar (v : Json) :
    (∀ p, ofJson v = .ok p ↔ SpellsProgram v p) ∧
      ((∃ fault, ofJson v = .error fault ∧ fault.isRefusal = true) ↔
        (¬ ∃ p, SpellsProgram v p) ∧ ¬ ProgramStumbles v) ∧
      ((∃ kind, ofJson v = .error (.conditionName kind)) ↔ ProgramStumbles v) :=
  ⟨fun _ => ofJson_eq_ok_iff, exists_refusal_iff, exists_conditionName_iff⟩

/-- A program with one branch, whose condition has a list for its name. -/
def listNamed : Json :=
  .obj [("type", .str "sequence"),
    ("steps", .arr [.obj [("type", .str "if"),
      ("condition", .obj [("kind", .str "primitive"), ("condition", .arr [])]),
      ("thenBranch", .obj [("type", .str "sequence")])]])]

/-- It is no program and is not refused either. -/
theorem not_refused_listNamed :
    ¬ ((¬ ∃ p, SpellsProgram listNamed p) →
      ∃ fault, ofJson listNamed = .error fault ∧ fault.isRefusal = true) := by
  have hstumbles : ProgramStumbles listNamed :=
    .steps rfl rfl (.here (.condition (.inr rfl) (.name rfl rfl)))
  obtain ⟨kind, hkind⟩ := exists_conditionName_iff.2 hstumbles
  have hspells : ¬ ∃ p, SpellsProgram listNamed p := by
    rintro ⟨p, hp⟩
    rw [ofJson_eq_ok_iff.2 hp] at hkind
    cases hkind
  intro h
  exact (exists_refusal_iff.1 (h hspells)).2 hstumbles

end Program

end RobotPuzzle
