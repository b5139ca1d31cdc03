/-
  Marking a level when saving may fail.

  1. **Outcomes** — a call of `add`, with any value, ends in one of five ways (`Adds`, `add_adds`).
  2. **Failed calls** — memory is changed before the file is written, and is not changed back.  So a call that
     fails on the disk leaves the file as it was, but the identifier in memory; a retry finds it there
     and answers no, without writing anything.  Only a later save brings it to the file.  A call with a
     value that is no identifier changes nothing at all (`failed_add`).

  The crux is the order of the two effects.  The call would have to save first, or take the mark back, for
  a retry to mean anything; as it is, the mark that the failed call has left behind is just what the retry
  asks about.

  The disk is a parameter that says which of its steps fail, and another one may fail at the retry; so the
  statement covers every failure and every way in which it is tried again.  What is said about memory and
  about the file is exact, and the last part says how the identifier gets to the file after all: with any
  other save that works.
-/
import RobotPuzzle.Proofs.Saved

namespace RobotPuzzle

namespace ProgressStore

/-! ## Outcomes

  Whether an identifier is new is asked of memory, not of the file. -/

/-- Only a text is an identifier, and every text but the empty one. -/
theorem identifier?_eq_some_iff {value : Json} {id : String} :
    identifier? value = some id ↔ value = .str id ∧ id ≠ "" := by
  cases value with
  | str text =>
    rw [identifier?, Json.str.injEq]
    by_cases hempty : text.isEmpty = true
    · rw [if_pos hempty]
      refine iff_of_false (Option.some_ne_none id).symm fun ⟨hsame, hid⟩ => hid ?_
      rw [← hsame, String.isEmpty_iff.1 hempty]
    · rw [if_neg hempty, Option.some.injEq]
      refine (and_iff_left_of_imp fun hsame hid => hempty ?_).symm
      rw [hsame]
      exact String.isEmpty_iff.2 hid
  | _ =>
    refine iff_of_false (Option.some_ne_none id).symm fun ⟨htext, _⟩ => ?_
    cases htext

/-- What a call of `add` makes of a store, and its answer. -/
inductive Adds (s : ProgressStore) (fails : Disk.Health) (value : Json) :
    Bool → ProgressStore → Except AddFault Bool → Prop
  /-- The value is no identifier. -/
  | refused {saving : Bool} : identifier? value = none →
      Adds s fails value saving s (.error .noIdentifier)
  /-- The level was marked before. -/
  | known {saving : Bool} {id : String} : identifier? value = some id → id ∈ s.ids →
      Adds s fails value saving s (.ok false)
  /-- The level is marked in memory only. -/
  | noted {id : String} : identifier? value = some id → id ∉ s.ids →
      Adds s fails value false { s with ids := insertId id s.ids } (.ok true)
  /-- The level is marked in memory, and saving it fails. -/
  | failed {id : String} {step : SaveStep} {disk : Disk} : identifier? value = some id → id ∉ s.ids →
      s.disk.save fails (fileText (insertId id s.ids)) = (disk, some step) →
      Adds s fails value true ⟨insertId id s.ids, disk⟩ (.error (.saving step))
  /-- The level is marked in memory and in the file. -/
  | saved {id : String} {disk : Disk} : identifier? value = some id → id ∉ s.ids →
      s.disk.save fails (fileText (insertId id s.ids)) = (disk, none) →
      Adds s fails value true ⟨insertId id s.ids, disk⟩ (.ok true)

section Adds

variable {s left : ProgressStore} {fails : Disk.Health} {value : Json} {id : String} {saving : Bool}
  {answer : Except AddFault Bool}

/-- Every call ends in one of the five ways.  The cases are the questions in the order in which `add` asks
them: an identifier, a new one, to be saved, and saved with success. -/
theorem add_adds (s : ProgressStore) (fails : Disk.Health) (value : Json) (saving : Bool) :
    Adds s fails value saving (s.add fails value saving).1 (s.add fails value saving).2 := by
  unfold add
  cases hid : identifier? value with
  | none => exact .refused hid
  | some id =>
  by_cases hknown : s.ids.contains id = true
  · simp only [if_pos hknown]
    exact .known hid (List.contains_iff_mem.1 hknown)
  simp only [if_neg hknown]
  have hnew : id ∉ s.ids := fun h => hknown (List.contains_iff_mem.2 h)
  cases saving with
  | false => exact .noted hid hnew
  | true =>
    rw [if_pos rfl]
    cases hsave : s.disk.save fails (fileText (insertId id s.ids)) with
    | mk disk failed =>
      simp only [save, hsave]
      cases failed with
      | none => exact .saved hid hnew hsave
      | some step => exact .failed hid hnew hsave

theorem Adds.of_eq (h : s.add fails value saving = (left, answer)) :
    Adds s fails value saving left answer := by
  have hadds := add_adds s fails value saving
  rwa [h] at hadds

theorem add_of_none (hid : identifier? value = none) (s : ProgressStore) (fails : Disk.Health)
    (saving : Bool) : s.add fails value saving = (s, .error .noIdentifier) := by
  rw [add, hid]

/-- A level that is marked already is not marked again. -/
theorem add_of_mem (hid : identifier? value = some id) (hmem : id ∈ s.ids) (fails : Disk.Health)
    (saving : Bool) : s.add fails value saving = (s, .ok false) := by
  simp only [add, hid, if_pos (List.contains_iff_mem.2 hmem)]

/-- On a disk that works a save brings all of memory to the file. -/
theorem mem_load_save {other : String} (s : ProgressStore) :
    other ∈ (load (s.save Disk.healthy).1.disk).ids ↔ other ∈ s.ids := by
  simp only [save, Disk.save_healthy, load, Option.map_some, Option.getD_some, mem_idsOfFile_fileText]

/-! ## Failed calls

  Saving goes step by step, to a draft first, and any of the steps may fail.  The file is touched by the
  last one only. -/

/-- **A failed call.**  The file is as it was, and so is memory exactly if the value was no identifier, that
is no text with at least one character.  Otherwise the identifier is in memory now, a retry answers no
whatever the disk does then, and it takes another save to bring it to the file. -/
theorem failed_add {fault : AddFault} (h : s.add fails value saving = (left, .error fault)) :
    left.disk.file = s.disk.file ∧ (left.ids = s.ids ↔ fault = .noIdentifier) ∧
      (fault = .noIdentifier ↔ ∀ id, value = .str id → id = "") ∧
      (∀ later again, left.add later value again
        = (left, if fault = .noIdentifier then .error .noIdentifier else .ok false)) ∧
      (fault ≠ .noIdentifier → ∃ id, value = .str id ∧ left.ids = insertId id s.ids ∧
        ∀ other, other ∈ (load (left.save Disk.healthy).1.disk).ids ↔ other = id ∨ other ∈ s.ids) := by
  cases Adds.of_eq h with
  | refused hnone =>
    -- nothing has been noted, so nothing has changed and another call ends like this one
    have hempty : ∀ id, value = .str id → id = "" := by
      intro id hvalue
      by_contra hid
      rw [identifier?_eq_some_iff.2 ⟨hvalue, hid⟩] at hnone
      cases hnone
    refine ⟨rfl, iff_of_true rfl rfl, iff_of_true rfl hempty, fun later again => ?_,
      fun hne => absurd rfl hne⟩
    rw [if_pos rfl]
    exact add_of_none hnone s later again
  | @failed id step disk hid hnew hsave =>
    obtain ⟨hvalue, hne⟩ := identifier?_eq_some_iff.1 hid
    have hmem : id ∈ insertId id s.ids := mem_insertId.2 (.inl rfl)
    -- the identifier has been noted before the save failed, so that it counts as known from now on
    have hfile : disk.file = s.disk.file := by
      have hkept := Disk.save_failed (congrArg Prod.snd hsave)
      rwa [hsave] at hkept
    have hchanged : insertId id s.ids ≠ s.ids := fun heq => hnew (heq ▸ hmem)
    refine ⟨hfile, iff_of_false hchanged AddFault.noConfusion,
      iff_of_false AddFault.noConfusion fun hempty => hne (hempty id hvalue), fun later again => ?_,
      fun _ => ⟨id, hvalue, rfl, fun other => ?_⟩⟩
    · rw [if_neg AddFault.noConfusion]
      exact add_of_mem hid hmem later again
    · rw [mem_load_save]
      exact mem_insertId

/-- The draft cannot be written.  The level counts as completed all the same. -/
theorem failed_add_fullDisk :
    let fails : Disk.Health := (· == .writeDraft)
    let s : ProgressStore := { ids := ["a"], disk := { file := some (.text (fileText ["a"])) } }
    let left : ProgressStore := { s with ids := ["a", "b"] }
    s.add fails "b" true = (left, .error (.saving .writeDraft)) ∧ left.disk.file = s.disk.file ∧
      left.add Disk.healthy "b" true = (left, .ok false) ∧
      ∀ other, other ∈ (load (left.save Disk.healthy).1.disk).ids ↔ other = "b" ∨ other ∈ ["a"] := by
  intro fails s left
  have hadd : s.add fails "b" true = (left, .error (.saving .writeDraft)) := rfl
  obtain ⟨hfile, -, -, hretry, hsaved⟩ := failed_add hadd
  obtain ⟨id, hid, -, hloaded⟩ := hsaved AddFault.noConfusion
  cases hid
  exact ⟨hadd, hfile, hretry Disk.healthy true, hloaded⟩

/-- The first save of all fails.  Memory is not as it was, and with the disk working again the same call
does not save the level either. -/
theorem not_restored_of_failed_save :
    let fails : Disk.Health := (· == .writeDraft)
    let left : ProgressStore := { ids := ["a"], disk := {} }
    ProgressStore.add {} fails "a" true = (left, .error (.saving .writeDraft)) ∧
      left.ids ≠ ({} : ProgressStore).ids ∧
      left.add Disk.healthy "a" true = (left, .ok false) ∧ left.disk.file = none := by
  refine ⟨rfl, List.cons_ne_nil _ _, rfl, rfl⟩

end Adds

end ProgressStore

end RobotPuzzle
