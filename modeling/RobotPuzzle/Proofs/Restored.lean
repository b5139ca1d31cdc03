/-
  Levels that are written and read again.

  1. **Regular levels** (`Regular`) — the board has rows of one width, none of them empty, and every heading
     is one of the four.
  2. **There and back** (`spells_toJson`) — what the writer makes of a regular level spells that level: the
     spawner and the exits are always named, and a member that is left out reads as the level has it.
  3. **Every reading is regular** (`regular_ofJson`) — however the numbers and headings were spelled, and
     whether the level names a spawner or a start, exits or a goal.
  4. **Together** — a level survives being written and read exactly if it is regular
     (`ofJson_toJson_iff`), and so every level that has been read is `restored`.

  The crux is that writing and reading need not be compared with each other: both are compared with the
  format, by `ofJson_format`.  The writer's side is a derivation, built from the members; the reader's
  side is the conditions on what may come out, which is just what such a derivation asks for.

  Levels are written in one form and read in several, so the theorem is about what is read: its hypothesis
  is that some value was accepted, whatever form it had.  The example is a value of an older form.
-/
import RobotPuzzle.Proofs.Format

namespace RobotPuzzle

namespace Json

/-- A member that is left out when there is no value. -/
def optionalMember (name : String) : Json → List (String × Json)
  | .null => []
  | v => [(name, v)]

theorem lookup_optionalMember_self (name : String) (v : Json) :
    (lookup name (optionalMember name v)).getD .null = v := by
  cases v with
  | null => rfl
  | bool b | int n | real x | str text | arr items | obj members =>
    rw [optionalMember, lookup_cons_self, Option.getD_some]
    exact nofun

theorem lookup_optionalMember_of_ne {name other : String} (h : other ≠ name) (v : Json) :
    lookup other (optionalMember name v) = none := by
  cases v <;> simp [optionalMember, lookup, Ne.symm h]

end Json

namespace Level

/-! ## Regular levels

  Numbers and quotas may be any whole numbers, so these are all the conditions. -/

/-- The board has even rows with something in them, and robots can enter. -/
structure Regular (level : Level) : Prop where
  /-- there is a row -/
  nonempty : level.grid ≠ []
  /-- no row is empty -/
  filled : ∀ row ∈ level.grid, row ≠ []
  /-- all rows have one length -/
  even : Grid.EvenRows level.grid
  /-- the headings of the spawner are directions -/
  headed : Simulation.Headed level.spawner

/-! ## What is written spells the level

  The writer names a spawner and exits always, so the older forms do not come up. -/

theorem namesHeading_number (d : Direction) : NamesHeading (.int d.number) d.number := by
  have h := NamesHeading.turns d.number
  rwa [← Direction.number_ofTurns, Direction.ofTurns_number] at h

/-- What is written of a cell spells it. -/
theorem spellsCell_toJson (c : Cell) : SpellsCell c.toJson c := ⟨rfl, rfl⟩

/-- So it is with a pose that has a heading. -/
theorem spellsPose_toJson {pose : Pose} (h : (Direction.ofNumber? pose.heading).isSome = true) :
    SpellsPose pose.toJson pose := by
  obtain ⟨d, hd⟩ := Option.isSome_iff_exists.1 h
  have hheading : NamesHeading (.int pose.heading) pose.heading := by
    rw [← Direction.number_of_ofNumber? hd]
    exact namesHeading_number d
  exact ⟨⟨rfl, rfl⟩, hheading⟩

/-- So it is with a spawner; an empty list of starts is void. -/
theorem spellsSpawner_toJson {spawner : Spawner} (h : Simulation.Headed spawner) :
    SpellsSpawner spawner.toJson spawner := by
  obtain ⟨hpose, hstarts⟩ := List.forall_mem_cons.1 h
  obtain ⟨cell, heading⟩ := spellsPose_toJson hpose
  refine ⟨?_, ⟨⟨rfl, rfl⟩, heading⟩, rfl, rfl⟩
  obtain ⟨pose, count, interval, starts⟩ := spawner
  cases starts with
  | nil => exact .void rfl
  | cons first others =>
    refine .poses rfl rfl ?_
    rw [List.forall₂_map_left_iff, List.forall₂_same]
    exact fun start hstart => spellsPose_toJson (hstarts start hstart)

/-- The members of a level, those that may be missing at the end. -/
theorem toJson_eq (level : Level) :
    level.toJson = .obj ([("grid", .arr (level.grid.map fun row => .arr (row.map .int))),
      ("spawner", level.spawner.toJson),
      ("exits", .arr (level.exits.map Cell.toJson)),
      ("requiredSaved", .int level.requiredSaved)]
      ++ Json.optionalMember "maxTicks" (Json.ofOption .int level.maxTicks)
      ++ Json.optionalMember "id" level.id ++ Json.optionalMember "name" level.name) := rfl

/-- The rows of a regular board are spelled by what is written of them. -/
theorem spellsRows_toJson {level : Level} (h : Regular level) :
    SpellsRows (.arr (level.grid.map fun row => .arr (row.map .int)))
      (level.grid.map fun row => row.map .int) := by
  refine ⟨by rw [List.map_map]; rfl, List.map_eq_nil_iff.not.2 h.nonempty, ?_, ?_⟩
  · rw [List.forall_mem_map]
    exact fun row hrow => List.map_eq_nil_iff.not.2 (h.filled row hrow)
  · refine h.even.of_lengths ?_
    rw [List.map_map]
    exact List.map_congr_left fun row _ => List.length_map _

theorem spellsLimit_ofOption (limit : Option Int) : SpellsLimit (Json.ofOption .int limit) limit := by
  cases limit with
  | none => exact .none
  | some n => exact .some rfl

/-- The members that may be missing read as the level has them. -/
theorem getD_toJson (level : Level) :
    level.toJson.getD "maxTicks" = Json.ofOption .int level.maxTicks ∧
      level.toJson.getD "id" = level.id ∧ level.toJson.getD "name" = level.name := by
  rw [toJson_eq]
  simp [Json.getD, Json.lookup_append, Json.lookup, Json.lookup_optionalMember_of_ne,
    Json.lookup_optionalMember_self]

/-- **What is written of a regular level spells it.** -/
theorem spells_toJson {level : Level} (h : Regular level) : SpellsLevel level.toJson level := by
  obtain ⟨hlimit, hid, hname⟩ := getD_toJson level
  refine ⟨⟨_, spellsRows_toJson h, ?_⟩, .spawner nofun (spellsSpawner_toJson h.headed),
    .listed nofun rfl ?_, rfl, ?_, hid, hname⟩
  · rw [List.forall₂_map_left_iff, List.forall₂_same]
    intro row _
    rw [List.forall₂_map_left_iff, List.forall₂_same]
    exact fun n _ => rfl
  · rw [List.forall₂_map_left_iff, List.forall₂_same]
    exact fun c _ => spellsCell_toJson c
  · rw [hlimit]
    exact spellsLimit_ofOption level.maxTicks

/-! ## What is read is regular

  However a value is written, the rows of its board and its headings have been checked. -/

/-- The rows have been checked before their numbers are read, and there are as many numbers as there were
cells. -/
theorem regular_ofJson {v : Json} {level : Level} (h : ofJson v = .ok level) : Regular level := by
  obtain ⟨rows, hread, hgrid, -⟩ := ofJson_cases h
  have hrows := ((readRows_reads _).ok rows).1 hread
  -- the numbers stand in rows of the same lengths
  have hlengths : level.grid.map (·.length) = rows.map (·.length) := lengths_of_mapM hgrid
  refine ⟨?_, ?_, hrows.even.of_lengths hlengths, headed_ofJson h⟩
  · intro hnone
    rw [hnone] at hlengths
    exact hrows.nonempty (List.map_eq_nil_iff.1 hlengths.symm)
  · rintro _ hrow rfl
    have hzero : 0 ∈ rows.map (·.length) := by
      rw [← hlengths]
      exact List.mem_map_of_mem hrow
    obtain ⟨row, hmem, hlength⟩ := List.mem_map.1 hzero
    exact hrows.filled row hmem (List.length_eq_zero_iff.1 hlength)

/-- **A level survives being written and read exactly if it is regular.** -/
theorem ofJson_toJson_iff (level : Level) : ofJson level.toJson = .ok level ↔ Regular level :=
  ⟨regular_ofJson, fun h => ((ofJson_reads _).ok level).2 (spells_toJson h)⟩

/-- **A level that has been read comes back.**  Whatever value the reader returns a level for, it returns
the same level, with the same identifier and name, for what is written of it. -/
theorem restored {v : Json} {level : Level} (h : ofJson v = .ok level) :
    ofJson level.toJson = .ok level :=
  (ofJson_toJson_iff level).2 (regular_ofJson h)

/-- An older level: a start and a goal, numerals and truth values for numbers, and a far turn. -/
def heirloom : Json :=
  .obj [("name", .arr [.null]), ("grid", .arr [.arr [.str " +1_0 ", .bool true]]),
    ("start", .obj [("x", .bool false), ("y", .str "\u0660"), ("dir", .int (-1000000000000000000001))]),
    ("goal", .obj [("x", .int 1), ("y", .str "-0")])]

/-- What it says. -/
def heirloomRead : Level :=
  { grid := [[10, 1]], spawner := { pose := ⟨⟨0, 0⟩, 3⟩ }, exits := [⟨1, 0⟩], name := .arr [.null] }

/-- The older level is read, and comes back in the newer form. -/
theorem restored_heirloom :
    ofJson heirloom = .ok heirloomRead ∧ ofJson heirloomRead.toJson = .ok heirloomRead := by
  have h : ofJson heirloom = .ok heirloomRead := by rfl
  exact ⟨h, restored h⟩

end Level

end RobotPuzzle
