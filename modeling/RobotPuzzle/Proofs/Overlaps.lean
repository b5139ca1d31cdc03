/-
  Calls of `add` that overlap.

  1. **Turns** — a call marks its identifier in memory, copies memory, writes the copy to the draft, and puts
     the draft in the place of the file.  Any number of calls on one store take turns, a step each, in any
     order (`Overlap.run`).  A call that has all turns to itself does what `add` does (`run_alone`).
  2. **Deeds** — which call's copy is in the draft and in the file can be read off what the calls have done
     (`authors`), and so can whether somebody has marked a level since a call made its copy
     (`Overtaken`).
  3. **What every turn keeps** — draft and file hold the copies of their authors.  A copy lacks something
     of memory exactly if it is overtaken (`Kept`, `Turned.kept`).
  4. **In the end** — memory holds all identifiers.  The file lacks some of them exactly if the copy that it
     holds was overtaken (`overlap_keeps_iff`), which can happen (`not_kept_of_overlap`).

  The crux is `whole` in `Copied`: a copy has all of memory exactly if it has not been overtaken.  Memory
  changes with marks alone, and a mark overtakes every copy there is; so the equivalence is kept by each
  turn on its own, and in the end it is applied to the copy that has got into the file.

  The turns are a list of numbers, those of the calls, so that every interleaving is covered, also one in
  which a call has several turns on end or none for long.  The condition is read off the deeds: which copy
  got into the file, and whether anything was noted after that copy was made.  One call at a time is the
  case in which nothing is overtaken.
-/
import RobotPuzzle.Proofs.Retries

namespace RobotPuzzle

namespace ProgressStore

/-! ## Turns

  A step either reads or writes one of the three things that calls share, which are memory, the draft and
  the file.  There is one draft for all calls, and whoever comes second to take it
  away does not find it. -/

/-- How far a call of `add` has come. -/
inductive AddStage where
  /-- nothing has been done yet -/
  | called
  /-- the identifier is in memory -/
  | noted
  /-- memory has been copied -/
  | copied (ids : List String)
  /-- the copy is in the draft -/
  | drafted
  /-- the call has given its answer -/
  | ended (answer : Except AddFault Bool)

/-- What a step of a call changes. -/
inductive AddDeed where
  /-- the identifier is put into memory -/
  | note
  /-- memory is copied -/
  | copy
  /-- the copy is written to the draft -/
  | draft
  /-- the draft takes the place of the file -/
  | replace
deriving DecidableEq, Repr

/-- A call of `add` that saves. -/
structure AddCall where
  /-- what is to be added -/
  id : String
  /-- how far it has come -/
  stage : AddStage := .called

/-- The next step of a call.  A draft that somebody else has taken away cannot replace the file. -/
def AddCall.step (s : ProgressStore) (call : AddCall) : ProgressStore × AddStage × Option AddDeed :=
  match call.stage with
  | .called =>
    if call.id.isEmpty then (s, .ended (.error .noIdentifier), none)
    else if s.ids.contains call.id then (s, .ended (.ok false), none)
    else ({ s with ids := insertId call.id s.ids }, .noted, some .note)
  | .noted => (s, .copied s.ids, some .copy)
  | .copied ids => ({ s with disk := s.disk.writeDraft (fileText ids) }, .drafted, some .draft)
  | .drafted =>
    if s.disk.draft.isSome then
      ({ s with disk := s.disk.replaceFile }, .ended (.ok true), some .replace)
    else (s, .ended (.error (.saving .replaceFile)), none)
  | .ended answer => (s, .ended answer, none)

/-- A store, the calls on it, and what they have done so far, by the number of the call. -/
structure Overlap where
  /-- the store that all share -/
  store : ProgressStore
  /-- the calls, by number -/
  calls : List AddCall
  /-- what they have done, the first one first -/
  deeds : List (Nat × AddDeed) := []

namespace Overlap

/-- Calls for these identifiers come in. -/
def start (s : ProgressStore) (ids : List String) : Overlap :=
  { store := s, calls := ids.map ({ id := · }) }

/-- A call takes its next step. -/
def turn (o : Overlap) (i : Nat) : Overlap :=
  match o.calls[i]? with
  | none => o
  | some call =>
    let (store, stage, deed) := call.step o.store
    { store
      calls := o.calls.set i { call with stage }
      deeds := o.deeds ++ (deed.map (i, ·)).toList }

def run (o : Overlap) (turns : List Nat) : Overlap := turns.foldl turn o

/-- All calls have ended. -/
def Over (o : Overlap) : Prop := ∀ call ∈ o.calls, ∃ answer, call.stage = .ended answer

end Overlap

/-- What the turn of a call makes of an overlap. -/
inductive Turned (o : Overlap) (i : Nat) : Overlap → Prop
  /-- there is no such call, or it is over -/
  | idle : Turned o i o
  /-- There is nothing to mark, or no draft any more. -/
  | ends {call : AddCall} (answer : Except AddFault Bool) : o.calls[i]? = some call →
      (call.stage = .called ∧ (call.id = "" ∨ call.id ∈ o.store.ids) ∨
        call.stage = .drafted ∧ o.store.disk.draft = none) →
      Turned o i { o with calls := o.calls.set i { call with stage := .ended answer } }
  /-- a new identifier is put into memory -/
  | notes {call : AddCall} : o.calls[i]? = some call → call.stage = .called → call.id ≠ "" →
      call.id ∉ o.store.ids →
      Turned o i ⟨{ o.store with ids := insertId call.id o.store.ids },
        o.calls.set i { call with stage := .noted }, o.deeds ++ [(i, .note)]⟩
  /-- memory is copied -/
  | copies {call : AddCall} : o.calls[i]? = some call → call.stage = .noted →
      Turned o i ⟨o.store, o.calls.set i { call with stage := .copied o.store.ids },
        o.deeds ++ [(i, .copy)]⟩
  /-- the copy is written -/
  | drafts {call : AddCall} {ids : List String} : o.calls[i]? = some call → call.stage = .copied ids →
      Turned o i ⟨{ o.store with disk := o.store.disk.writeDraft (fileText ids) },
        o.calls.set i { call with stage := .drafted }, o.deeds ++ [(i, .draft)]⟩
  /-- the draft takes the place of the file -/
  | replaces {call : AddCall} : o.calls[i]? = some call → call.stage = .drafted →
      o.store.disk.draft ≠ none →
      Turned o i ⟨{ o.store with disk := o.store.disk.replaceFile },
        o.calls.set i { call with stage := .ended (.ok true) }, o.deeds ++ [(i, .replace)]⟩

/-- **A turn** is one of these, according to how far the call has come. -/
theorem turn_turned (o : Overlap) (i : Nat) : Turned o i (o.turn i) := by
  unfold Overlap.turn
  cases hcall : o.calls[i]? with
  | none => exact .idle
  | some call =>
    cases hstage : call.stage with
    | called =>
      -- an empty identifier and a known one end the call at once
      by_cases hempty : call.id.isEmpty = true
      · simp only [AddCall.step, hstage, if_pos hempty, Option.map_none, Option.toList_none,
          List.append_nil]
        exact .ends _ hcall (.inl ⟨hstage, .inl (String.isEmpty_iff.1 hempty)⟩)
      · by_cases hknown : o.store.ids.contains call.id = true
        · simp only [AddCall.step, hstage, if_neg hempty, if_pos hknown, Option.map_none,
            Option.toList_none, List.append_nil]
          exact .ends _ hcall (.inl ⟨hstage, .inr (List.contains_iff_mem.1 hknown)⟩)
        · simp only [AddCall.step, hstage, if_neg hempty, if_neg hknown]
          exact .notes hcall hstage (fun h => hempty (String.isEmpty_iff.2 h))
            fun h => hknown (List.contains_iff_mem.2 h)
    | noted =>
      simp only [AddCall.step, hstage]
      exact .copies hcall hstage
    | copied ids =>
      simp only [AddCall.step, hstage]
      exact .drafts hcall hstage
    | drafted =>
      -- another call may have moved the draft already
      by_cases hdraft : o.store.disk.draft.isSome = true
      · simp only [AddCall.step, hstage, if_pos hdraft]
        exact .replaces hcall hstage (Option.isSome_iff_ne_none.1 hdraft)
      · simp only [AddCall.step, hstage, if_neg hdraft, Option.map_none, Option.toList_none,
          List.append_nil]
        exact .ends _ hcall (.inr ⟨hstage, Option.not_isSome_iff_eq_none.1 hdraft⟩)
    | ended answer =>
      -- a call that is over stays as it is
      have hsame : o.calls.set i { call with stage := .ended answer } = o.calls := by
        obtain ⟨hlt, rfl⟩ := List.getElem?_eq_some_iff.1 hcall
        rw [← hstage]
        exact List.set_getElem_self hlt
      simp only [AddCall.step, hstage, Option.map_none, Option.toList_none, List.append_nil, hsame]
      exact .idle

/-- Four turns on end are a call of `add` on a disk that works. -/
theorem run_alone {o : Overlap} {i : Nat} {id : String} (hcall : o.calls[i]? = some { id }) :
    (o.run [i, i, i, i]).store = (o.store.add Disk.healthy id true).1 ∧
      (o.run [i, i, i, i]).calls
        = o.calls.set i ⟨id, .ended (o.store.add Disk.healthy id true).2⟩ := by
  have hlt : i < o.calls.length := (List.getElem?_eq_some_iff.1 hcall).1
  -- one turn of this call, whatever stage it has come to
  have hturn : ∀ (store : ProgressStore) (stage : AddStage) (deeds : List (Nat × AddDeed)),
      Overlap.turn ⟨store, o.calls.set i ⟨id, stage⟩, deeds⟩ i
        = ⟨(AddCall.step store ⟨id, stage⟩).1,
            o.calls.set i ⟨id, (AddCall.step store ⟨id, stage⟩).2.1⟩,
            deeds ++ ((AddCall.step store ⟨id, stage⟩).2.2.map (i, ·)).toList⟩ := by
    intro store stage deeds
    simp only [Overlap.turn, List.getElem?_set_self hlt, List.set_set]
  have hsame : o.calls.set i ⟨id, .called⟩ = o.calls := by
    obtain ⟨_, hget⟩ := List.getElem?_eq_some_iff.1 hcall
    rw [← hget]
    exact List.set_getElem_self hlt
  have hfirst := hturn o.store .called o.deeds
  rw [hsame] at hfirst
  simp only [Overlap.run, List.foldl_cons, List.foldl_nil]
  rw [show o.turn i = _ from hfirst]
  unfold add identifier?
  -- the same three outcomes as those of `add`
  by_cases hempty : id.isEmpty = true
  · simp only [AddCall.step, if_pos hempty, hturn, and_self]
  · by_cases hknown : o.store.ids.contains id = true
    · simp only [AddCall.step, if_neg hempty, if_pos hknown, hturn, and_self]
    · simp only [AddCall.step, if_neg hempty, if_neg hknown, hturn, save, Disk.save_healthy,
        Disk.writeDraft, Disk.replaceFile, Option.isSome_some, if_true, and_self]

/-! ## Deeds

  The deeds are enough to say who wrote last and who was late, without looking at what was written. -/

/-- Somebody has marked a level since call `i` made its copy. -/
def Overtaken (i : Nat) : List (Nat × AddDeed) → Prop
  | [] => False
  | deed :: later => deed = (i, .copy) ∧ AddDeed.note ∈ later.map Prod.snd ∨ Overtaken i later

instance decidableOvertaken (i : Nat) : DecidablePred (Overtaken i)
  | [] => isFalse id
  | deed :: later =>
    have := decidableOvertaken i later
    inferInstanceAs (Decidable (deed = (i, .copy) ∧ AddDeed.note ∈ later.map Prod.snd ∨ _))

/-- A further deed overtakes a copy if it is a mark and the copy has been made. -/
theorem overtaken_concat {i j : Nat} {deed : AddDeed} {deeds : List (Nat × AddDeed)} :
    Overtaken i (deeds ++ [(j, deed)])
      ↔ Overtaken i deeds ∨ deed = .note ∧ (i, .copy) ∈ deeds := by
  induction deeds with
  | nil => simp [Overtaken]
  | cons first later ih =>
    simp only [List.cons_append, Overtaken, ih, List.map_append, List.map_cons, List.map_nil,
      List.mem_append, List.mem_cons, eq_comm (a := first),
      eq_comm (a := AddDeed.note)]
    tauto

theorem Overtaken.copied {i : Nat} : ∀ {deeds : List (Nat × AddDeed)},
    Overtaken i deeds → (i, .copy) ∈ deeds
  | _ :: _, .inl ⟨hcopy, _⟩ => hcopy ▸ List.mem_cons_self
  | _ :: _, .inr hlater => List.mem_cons_of_mem _ hlater.copied

/-- The calls whose copies are in the draft and in the file. -/
structure Authors where
  /-- the call whose copy is in the draft -/
  draft : Option Nat := none
  /-- the call whose copy is in the file -/
  file : Option Nat := none
deriving DecidableEq, Repr

def Authors.after (a : Authors) : Nat × AddDeed → Authors
  | (i, .draft) => { a with draft := some i }
  | (_, .replace) => { draft := none, file := a.draft }
  | _ => a

def authors (deeds : List (Nat × AddDeed)) : Authors := deeds.foldl Authors.after {}

theorem authors_concat (deeds : List (Nat × AddDeed)) (deed : Nat × AddDeed) :
    authors (deeds ++ [deed]) = (authors deeds).after deed := by
  rw [authors, List.foldl_append]
  rfl

/-! ## What every turn keeps

  For a call whose turn it is, its new stage has to fit.  For the others it is enough that the turn spares
  them: memory only grows, their copies stay as good as they were or are overtaken, and no deed is taken
  back. -/

/-- Call `i` has made a copy with these identifiers, and what the copy lacks has been marked since. -/
structure Copied (s : ProgressStore) (o : Overlap) (i : Nat) (ids : List String) : Prop where
  /-- the copy has been made -/
  made : (i, .copy) ∈ o.deeds
  /-- it has what the store had at the start -/
  old : ∀ id ∈ s.ids, id ∈ ids
  /-- and nothing that is not in memory -/
  held : ∀ id ∈ ids, id ∈ o.store.ids
  /-- it has all of memory exactly if nobody has noted anything since -/
  whole : (∀ id ∈ o.store.ids, id ∈ ids) ↔ ¬ Overtaken i o.deeds

/-- The copy of call `i` is what the file, or the draft, contains. -/
def Holds (s : ProgressStore) (o : Overlap) (i : Nat) (content : Option FileContent) : Prop :=
  ∃ ids, content = some (.text (fileText ids)) ∧ Copied s o i ids

/-- Call `i` has done what its stage says.  If it has ended and has marked a level, then some copy is in
the file. -/
def Fits (s : ProgressStore) (o : Overlap) (i : Nat) (call : AddCall) : Prop :=
  match call.stage with
  | .called => ∀ deed, (i, deed) ∉ o.deeds
  | .noted => call.id ∈ o.store.ids ∧ (i, .copy) ∉ o.deeds
  | .copied ids => call.id ∈ o.store.ids ∧ Copied s o i ids
  | .drafted => call.id ∈ o.store.ids ∧ (i, .draft) ∈ o.deeds
  | .ended _ => (call.id = "" ∨ call.id ∈ o.store.ids) ∧
      ((i, .note) ∈ o.deeds → (authors o.deeds).file ≠ none)

/-- Draft and file hold the copies of their authors; a file without an author has not been touched. -/
structure Written (s : ProgressStore) (o : Overlap) : Prop where
  /-- the draft holds the copy of its author -/
  draft : ∀ i, (authors o.deeds).draft = some i → Holds s o i o.store.disk.draft
  /-- without an author the draft is gone, and the file has one -/
  moved : (authors o.deeds).draft = none → ∀ i, (i, .draft) ∈ o.deeds →
    o.store.disk.draft = none ∧ (authors o.deeds).file ≠ none
  /-- the file holds the copy of its author -/
  file : ∀ i, (authors o.deeds).file = some i → Holds s o i o.store.disk.file
  /-- without an author it is as it was -/
  untouched : (authors o.deeds).file = none → o.store.disk.file = s.disk.file

/-- What holds after every turn, with `s` the store and `ids` the identifiers at the start. -/
structure Kept (s : ProgressStore) (ids : List String) (o : Overlap) : Prop where
  /-- calls keep their identifiers -/
  names : o.calls.map AddCall.id = ids
  /-- what a call has done fits its stage -/
  fits : ∀ i call, o.calls[i]? = some call → Fits s o i call
  /-- nothing is forgotten -/
  old : ∀ id ∈ s.ids, id ∈ o.store.ids
  /-- what is new is what somebody was to add -/
  added : ∀ id ∈ o.store.ids, id ∈ s.ids ∨ id ∈ ids ∧ id ≠ ""
  /-- nothing is new if nobody has noted anything -/
  unmarked : (∀ i < o.calls.length, (i, .note) ∉ o.deeds) → o.store.ids = s.ids
  /-- and the disk holds copies of memory -/
  written : Written s o

/-- What a step of call `i` leaves as it is for the others. -/
structure Spares (s : ProgressStore) (i : Nat) (o after : Overlap) : Prop where
  /-- memory only grows -/
  memory : ∀ id ∈ o.store.ids, id ∈ after.store.ids
  /-- copies stay what they are -/
  copies : ∀ j ids, Copied s o j ids → Copied s after j ids
  /-- nothing that was done is undone -/
  done : ∀ deed ∈ o.deeds, deed ∈ after.deeds
  /-- nobody else has done anything -/
  others : ∀ deed ∈ after.deeds, deed.1 ≠ i → deed ∈ o.deeds
  /-- a file with an author keeps having one -/
  authored : (authors o.deeds).file ≠ none → (authors after.deeds).file ≠ none

section Turns

variable {s : ProgressStore} {ids : List String} {o after : Overlap} {i j : Nat} {call : AddCall}

theorem Spares.holds (h : Spares s i o after) {content : Option FileContent}
    (hholds : Holds s o j content) : Holds s after j content := by
  obtain ⟨ids, hcontent, hcopied⟩ := hholds
  exact ⟨ids, hcontent, h.copies j ids hcopied⟩

/-- A call that is spared fits as before. -/
theorem Fits.spared (hfits : Fits s o j call) (h : Spares s i o after) (hne : j ≠ i) :
    Fits s after j call := by
  have hown : ∀ {deed}, (j, deed) ∈ after.deeds → (j, deed) ∈ o.deeds := fun hmem =>
    h.others _ hmem hne
  unfold Fits at hfits ⊢
  split at hfits <;> rename_i hstage
  · exact fun deed hmem => hfits deed (hown hmem)
  · exact ⟨h.memory _ hfits.1, fun hmem => hfits.2 (hown hmem)⟩
  · exact ⟨h.memory _ hfits.1, h.copies _ _ hfits.2⟩
  · exact ⟨h.memory _ hfits.1, h.done _ hfits.2⟩
  · exact ⟨hfits.1.imp_right (h.memory _), fun hnote => h.authored (hfits.2 (hown hnote))⟩

/-- A step of call `i` that changes its own stage and spares the others. -/
theorem fits_set {stage : AddStage} (hfits : ∀ j call, o.calls[j]? = some call → Fits s o j call)
    (hspares : Spares s i o after) (hcalls : after.calls = o.calls.set i { call with stage })
    (hown : Fits s after i { call with stage }) :
    ∀ j call, after.calls[j]? = some call → Fits s after j call := by
  intro j other hother
  rw [hcalls, List.getElem?_set] at hother
  by_cases hij : i = j
  · subst hij
    rw [if_pos rfl] at hother
    split at hother
    · cases hother
      exact hown
    · cases hother
  · rw [if_neg hij] at hother
    exact (hfits j other hother).spared hspares (Ne.symm hij)

theorem names_set {stage : AddStage} (hcall : o.calls[i]? = some call)
    (hnames : o.calls.map AddCall.id = ids) :
    (o.calls.set i { call with stage }).map AddCall.id = ids := by
  obtain ⟨hlt, rfl⟩ := List.getElem?_eq_some_iff.1 hcall
  have hmap : i < (o.calls.map AddCall.id).length := by rwa [List.length_map]
  have hget : (o.calls.map AddCall.id)[i] = o.calls[i].id := List.getElem_map _
  rw [List.map_set, ← hnames, ← hget]
  exact List.set_getElem_self _

/-! ### A step spares the others

  There are three kinds of steps, as far as the others are concerned: those that do nothing, those that
  mark nothing, and marks. -/

theorem Copied.of_eq (h : Copied s o i ids) (hids : after.store.ids = o.store.ids)
    (hdeeds : after.deeds = o.deeds) : Copied s after i ids := by
  obtain ⟨made, old, held, whole⟩ := h
  rw [← hids] at held whole
  rw [← hdeeds] at made whole
  exact ⟨made, old, held, whole⟩

theorem spares_of_eq (hids : after.store.ids = o.store.ids) (hdeeds : after.deeds = o.deeds) :
    Spares s i o after where
  memory := fun _ hid => hids ▸ hid
  copies := fun _ _ h => h.of_eq hids hdeeds
  done := fun _ h => hdeeds ▸ h
  others := fun _ h _ => hdeeds ▸ h
  authored := fun h => hdeeds ▸ h

theorem mem_concat_of_ne {deed : AddDeed} {deeds : List (Nat × AddDeed)} {other : Nat × AddDeed}
    (h : other ∈ deeds ++ [(i, deed)]) (hne : other.1 ≠ i) : other ∈ deeds := by
  rcases List.mem_append.1 h with h | h
  · exact h
  · exact absurd (congrArg Prod.fst (List.mem_singleton.1 h)) hne

/-- A deed that marks nothing overtakes no copy. -/
theorem spares_deed {deed : AddDeed} (hids : after.store.ids = o.store.ids)
    (hdeeds : after.deeds = o.deeds ++ [(i, deed)]) (hnote : deed ≠ .note)
    (hreplace : deed = .replace → (authors o.deeds).draft ≠ none) : Spares s i o after where
  memory := fun id hid => hids ▸ hid
  copies := fun j ids h => by
    refine ⟨hdeeds ▸ List.mem_append_left _ h.made, h.old, fun id hid => hids ▸ h.held id hid, ?_⟩
    rw [hids, hdeeds, overtaken_concat, h.whole]
    simp [hnote]
  done := fun other h => hdeeds ▸ List.mem_append_left _ h
  others := fun other h hne => mem_concat_of_ne (hdeeds ▸ h) hne
  authored := fun h => by
    rw [hdeeds, authors_concat]
    cases deed with
    | note | copy | draft => exact h
    | replace => exact hreplace rfl

/-- A mark overtakes all copies there are. -/
theorem spares_note {id : String} (hids : after.store.ids = insertId id o.store.ids)
    (hdeeds : after.deeds = o.deeds ++ [(i, .note)]) (hnew : id ∉ o.store.ids) :
    Spares s i o after where
  memory := fun other hmem => hids ▸ mem_insertId.2 (.inr hmem)
  copies := fun j ids h => by
    refine ⟨hdeeds ▸ List.mem_append_left _ h.made, h.old,
      fun other hmem => hids ▸ mem_insertId.2 (.inr (h.held other hmem)), ?_⟩
    have hlacks : id ∉ ids := fun hmem => hnew (h.held id hmem)
    rw [hdeeds, overtaken_concat]
    refine iff_of_false (fun hall => hlacks (hall id ?_)) (not_not.2 (.inr ⟨rfl, h.made⟩))
    rw [hids]
    exact mem_insertId.2 (.inl rfl)
  done := fun other h => hdeeds ▸ List.mem_append_left _ h
  others := fun other h hne => mem_concat_of_ne (hdeeds ▸ h) hne
  authored := fun h => by
    rw [hdeeds, authors_concat]
    exact h

/-! ### One turn, and all of them

  Each case of a turn says what becomes of the three things that are shared, and of the stage of the call.
-/

/-- A fresh copy has all of memory. -/
theorem Kept.copied_fresh (h : Kept s ids o) (hfresh : (i, .copy) ∉ o.deeds)
    (hids : after.store.ids = o.store.ids) (hdeeds : after.deeds = o.deeds ++ [(i, .copy)]) :
    Copied s after i o.store.ids where
  made := by rw [hdeeds]; simp
  old := h.old
  held := fun id hid => hids ▸ hid
  whole := by
    rw [hids, hdeeds, overtaken_concat]
    refine iff_of_true (fun id hid => hid) ?_
    rintro (hover | ⟨hnote, -⟩)
    · exact hfresh hover.copied
    · cases hnote

/-- Draft and file after a step that touches neither. -/
theorem Written.spared (h : Written s o) (hspares : Spares s i o after)
    (hdisk : after.store.disk = o.store.disk) (hauthors : authors after.deeds = authors o.deeds)
    (hdrafts : ∀ j, (j, .draft) ∈ after.deeds → (j, .draft) ∈ o.deeds) : Written s after where
  draft := fun j hj => by
    rw [hdisk]
    exact hspares.holds (h.draft j (hauthors ▸ hj))
  moved := fun hnone j hj => by
    rw [hdisk, hauthors]
    exact h.moved (hauthors ▸ hnone) j (hdrafts j hj)
  file := fun j hj => by
    rw [hdisk]
    exact hspares.holds (h.file j (hauthors ▸ hj))
  untouched := fun hnone => by
    rw [hdisk]
    exact h.untouched (hauthors ▸ hnone)

/-- Whoever does not find the draft any more finds a copy in the file. -/
theorem Written.filed (h : Written s o) (hdrafted : (i, .draft) ∈ o.deeds)
    (hgone : o.store.disk.draft = none) : (authors o.deeds).file ≠ none := by
  cases hauthor : (authors o.deeds).draft with
  | none => exact (h.moved hauthor i hdrafted).2
  | some j =>
    obtain ⟨ids, hcontent, -⟩ := h.draft j hauthor
    rw [hgone] at hcontent
    cases hcontent

/-- A draft that somebody finds has an author. -/
theorem Written.authored (h : Written s o) (hdrafted : (i, .draft) ∈ o.deeds)
    (hthere : o.store.disk.draft ≠ none) : ∃ j, (authors o.deeds).draft = some j :=
  Option.ne_none_iff_exists'.1 fun hnone => hthere (h.moved hnone i hdrafted).1

/-- The copy of a call is written to the draft. -/
theorem Written.drafts (h : Written s o) (hspares : Spares s i o after) (hcopied : Copied s after i ids)
    (hdisk : after.store.disk = o.store.disk.writeDraft (fileText ids))
    (hdeeds : after.deeds = o.deeds ++ [(i, .draft)]) : Written s after := by
  constructor <;> rw [hdisk, hdeeds, authors_concat]
  · rintro j hj
    cases hj
    exact ⟨ids, rfl, hcopied⟩
  · exact fun hnone => nomatch hnone
  · exact fun j hj => hspares.holds (h.file j hj)
  · exact h.untouched

/-- The draft takes the place of the file. -/
theorem Written.replaces (h : Written s o) (hspares : Spares s i o after)
    (hauthor : (authors o.deeds).draft = some j) (hdisk : after.store.disk = o.store.disk.replaceFile)
    (hdeeds : after.deeds = o.deeds ++ [(i, .replace)]) : Written s after := by
  have hauthors : authors after.deeds = { draft := none, file := some j } := by
    rw [hdeeds, authors_concat]
    exact congrArg (Authors.mk none) hauthor
  constructor <;> rw [hauthors, hdisk]
  · exact fun k hk => nomatch hk
  · exact fun _ k _ => ⟨rfl, nofun⟩
  · rintro k hk
    cases hk
    exact hspares.holds (h.draft j hauthor)
  · exact fun hnone => nomatch hnone

/-- **A step of a call** keeps everything, if it spares the others and what is written has its author. -/
theorem Kept.step {stage : AddStage} (h : Kept s ids o) (hcall : o.calls[i]? = some call)
    (hcalls : after.calls = o.calls.set i { call with stage }) (hspares : Spares s i o after)
    (hown : Fits s after i { call with stage })
    (hadded : ∀ id ∈ after.store.ids, id ∈ o.store.ids ∨ id = call.id ∧ id ≠ "")
    (hunmarked : (i, .note) ∉ after.deeds → after.store.ids = o.store.ids)
    (hwritten : Written s after) : Kept s ids after where
  names := by
    rw [hcalls]
    exact names_set hcall h.names
  fits := fits_set h.fits hspares hcalls hown
  old := fun id hid => hspares.memory id (h.old id hid)
  added := fun id hid => by
    -- a new identifier is that of the call
    rcases hadded id hid with hmem | ⟨rfl, hne⟩
    · exact h.added id hmem
    · refine .inr ⟨?_, hne⟩
      rw [← h.names]
      exact List.mem_map_of_mem (List.mem_of_getElem? hcall)
  unmarked := fun hnone => by
    rw [hcalls, List.length_set] at hnone
    rw [hunmarked (hnone i (List.getElem?_eq_some_iff.1 hcall).1)]
    exact h.unmarked fun k hk hmem => hnone k hk (hspares.done _ hmem)
  written := hwritten

/-- **One turn.** -/
theorem Turned.kept (hturned : Turned o i after) (h : Kept s ids o) : Kept s ids after := by
  cases hturned with
  | idle => exact h
  | @ends call answer hcall hreason =>
    have hspares : Spares s i o { o with calls := o.calls.set i { call with stage := .ended answer } } :=
      spares_of_eq rfl rfl
    -- what the stage of the call says about its deeds so far
    have hfits := h.fits i call hcall
    refine h.step hcall rfl hspares ?_ (fun id hid => .inl hid) (fun _ => rfl)
      (h.written.spared hspares rfl rfl fun j hj => hj)
    -- a call ends at once with nothing done, or at the last stage when its draft has been moved for
    -- it
    rcases hreason with ⟨hstage, hdone⟩ | ⟨hstage, hgone⟩ <;> rw [Fits, hstage] at hfits
    · exact ⟨hdone, fun hnote => absurd hnote (hfits .note)⟩
    · exact ⟨.inr hfits.1, fun _ => h.written.filed hfits.2 hgone⟩
  | @notes call hcall hstage hid hnew =>
    have hspares : Spares s i o ⟨{ o.store with ids := insertId call.id o.store.ids },
        o.calls.set i { call with stage := .noted }, o.deeds ++ [(i, .note)]⟩ :=
      spares_note rfl rfl hnew
    have hfits := h.fits i call hcall
    rw [Fits, hstage] at hfits
    -- memory gains the identifier, and the file stays
    refine h.step hcall rfl hspares ⟨mem_insertId.2 (.inl rfl), ?_⟩ (fun id hmem => ?_)
      (fun hnone => absurd (by simp) hnone)
      (h.written.spared hspares rfl (authors_concat _ _) fun j hj => ?_)
    · simpa using hfits .copy
    · exact (mem_insertId.1 hmem).symm.imp_right fun heq => ⟨heq, heq ▸ hid⟩
    · simpa using hj
  | @copies call hcall hstage =>
    have hspares : Spares s i o ⟨o.store, o.calls.set i { call with stage := .copied o.store.ids },
        o.deeds ++ [(i, .copy)]⟩ :=
      spares_deed rfl rfl AddDeed.noConfusion AddDeed.noConfusion
    have hfits := h.fits i call hcall
    rw [Fits, hstage] at hfits
    refine h.step hcall rfl hspares ⟨hfits.1, h.copied_fresh hfits.2 rfl rfl⟩
      (fun id hid => .inl hid) (fun _ => rfl)
      (h.written.spared hspares rfl (authors_concat _ _) fun j hj => ?_)
    simpa using hj
  | @drafts call copy hcall hstage =>
    have hspares : Spares s i o ⟨{ o.store with disk := o.store.disk.writeDraft (fileText copy) },
        o.calls.set i { call with stage := .drafted }, o.deeds ++ [(i, .draft)]⟩ :=
      spares_deed rfl rfl AddDeed.noConfusion AddDeed.noConfusion
    have hfits := h.fits i call hcall
    rw [Fits, hstage] at hfits
    exact h.step hcall rfl hspares ⟨hfits.1, by simp⟩ (fun id hid => .inl hid) (fun _ => rfl)
      (h.written.drafts hspares (hspares.copies _ _ hfits.2) rfl rfl)
  | @replaces call hcall hstage hdraft =>
    have hfits := h.fits i call hcall
    rw [Fits, hstage] at hfits
    -- the draft that is moved need not be the one that this call has written
    obtain ⟨j, hauthor⟩ := h.written.authored hfits.2 hdraft
    have hspares : Spares s i o ⟨{ o.store with disk := o.store.disk.replaceFile },
        o.calls.set i { call with stage := .ended (.ok true) }, o.deeds ++ [(i, .replace)]⟩ :=
      spares_deed rfl rfl AddDeed.noConfusion fun _ => by rw [hauthor]; exact nofun
    refine h.step hcall rfl hspares ⟨.inr hfits.1, fun _ => ?_⟩ (fun id hid => .inl hid)
      (fun _ => rfl) (h.written.replaces hspares hauthor rfl rfl)
    rw [authors_concat]
    exact fun hnone => nomatch hauthor.symm.trans hnone

/-- At the start nobody has done anything. -/
theorem kept_start (s : ProgressStore) (ids : List String) : Kept s ids (Overlap.start s ids) where
  names := by
    rw [Overlap.start, List.map_map]
    exact List.map_id ids
  fits := fun i call hcall => by
    simp only [Overlap.start, List.getElem?_map, Option.map_eq_some_iff] at hcall
    -- every call is at its first stage
    obtain ⟨id, -, rfl⟩ := hcall
    exact fun deed hmem => nomatch hmem
  old := fun _ hid => hid
  added := fun _ hid => .inl hid
  unmarked := fun _ => rfl
  written :=
    { draft := nofun
      moved := fun _ _ hmem => nomatch hmem
      file := nofun
      untouched := fun _ => rfl }

/-- **All turns.** -/
theorem Kept.run (h : Kept s ids o) (turns : List Nat) : Kept s ids (o.run turns) := by
  induction turns generalizing o with
  | nil => exact h
  | cons i rest ih => exact ih ((turn_turned o i).kept h)

/-! ## In the end

  When all calls have ended there is no draft to wait for.  So the file is what it was, or holds the copy
  of the last who replaced it. -/

/-- In the end memory has what it had and all the identifiers that are not empty. -/
theorem Kept.mem_of_over (h : Kept s ids o) (hover : o.Over) {id : String} :
    id ∈ o.store.ids ↔ id ∈ s.ids ∨ id ∈ ids ∧ id ≠ "" := by
  refine ⟨h.added id, ?_⟩
  rintro (hold | ⟨hid, hne⟩)
  · exact h.old id hold
  · rw [← h.names] at hid
    obtain ⟨call, hcall, rfl⟩ := List.mem_map.1 hid
    obtain ⟨i, hget⟩ := List.mem_iff_getElem?.1 hcall
    obtain ⟨answer, hstage⟩ := hover call hcall
    have hfits := h.fits i call hget
    rw [Fits, hstage] at hfits
    exact hfits.1.resolve_left hne

/-- With no copy in the file no call has marked anything. -/
theorem Kept.ids_of_over (h : Kept s ids o) (hover : o.Over) (hnone : (authors o.deeds).file = none) :
    o.store.ids = s.ids := by
  refine h.unmarked fun i hlt hnote => ?_
  obtain ⟨answer, hstage⟩ := hover _ (List.getElem_mem hlt)
  have hfits := h.fits i _ (List.getElem?_eq_getElem hlt)
  rw [Fits, hstage] at hfits
  exact hfits.2 hnote hnone

/-- What is in the file when the copy of call `i` is in it. -/
theorem Kept.kept_of_author (h : Kept s ids o) (hauthor : (authors o.deeds).file = some i) :
    (∀ id ∈ s.ids, id ∈ (load o.store.disk).ids) ∧ (∀ id ∈ (load o.store.disk).ids, id ∈ o.store.ids) ∧
      ((∀ id ∈ o.store.ids, id ∈ (load o.store.disk).ids) ↔ ¬ Overtaken i o.deeds) := by
  obtain ⟨copy, hcontent, hcopied⟩ := h.written.file i hauthor
  have hmem : ∀ {id}, id ∈ (load o.store.disk).ids ↔ id ∈ copy := by
    intro id
    simp only [load, hcontent, Option.map_some, Option.getD_some, mem_idsOfFile_fileText]
  simp only [hmem]
  exact ⟨hcopied.old, hcopied.held, hcopied.whole⟩

end Turns

/-- **When the calls are over.**  Memory has every identifier.  If no copy got into the file, nothing was
new and the file has not been touched.  Otherwise the file, opened again, has what was there at the start
and nothing that is not in memory.  So a store whose file had all of memory keeps it all exactly if
nobody marked a level after the copy in the file was made. -/
theorem overlap_keeps_iff (s : ProgressStore) (ids : List String) (turns : List Nat)
    (hover : ((Overlap.start s ids).run turns).Over) :
    let o := (Overlap.start s ids).run turns
    let kept := (load o.store.disk).ids
    (∀ id, id ∈ o.store.ids ↔ id ∈ s.ids ∨ id ∈ ids ∧ id ≠ "") ∧
      ((authors o.deeds).file = none → o.store.ids = s.ids ∧ o.store.disk.file = s.disk.file) ∧
      (∀ i, (authors o.deeds).file = some i →
        (∀ id ∈ s.ids, id ∈ kept) ∧ (∀ id ∈ kept, id ∈ o.store.ids) ∧
          ((∀ id ∈ o.store.ids, id ∈ kept) ↔ ¬ Overtaken i o.deeds)) ∧
      ((∀ id ∈ s.ids, id ∈ (load s.disk).ids) →
        ((∀ id ∈ o.store.ids, id ∈ kept)
          ↔ ∀ i, (authors o.deeds).file = some i → ¬ Overtaken i o.deeds)) := by
  intro o kept
  have hkept : Kept s ids o := (kept_start s ids).run turns
  -- with nothing in the file nothing was new
  have hidle : (authors o.deeds).file = none →
      o.store.ids = s.ids ∧ o.store.disk.file = s.disk.file := fun hnone =>
    ⟨hkept.ids_of_over hover hnone, hkept.written.untouched hnone⟩
  refine ⟨fun id => hkept.mem_of_over hover, hidle, fun i => hkept.kept_of_author, fun hs => ?_⟩
  cases hauthor : (authors o.deeds).file with
  | none =>
    obtain ⟨hids, hfile⟩ := hidle hauthor
    -- the file is as it was, and so is memory
    refine iff_of_true (fun id hid => ?_) nofun
    rw [hids] at hid
    simp only [kept, load, hfile]
    exact hs id hid
  | some i =>
    simp only [Option.some.injEq, forall_eq']
    exact (hkept.kept_of_author hauthor).2.2

/-- Two calls that take turns up to their copies.  Both copies have both levels. -/
theorem overlap_keeps_both :
    let o := (Overlap.start {} ["a", "b"]).run [0, 1, 0, 1, 0, 0, 1, 1]
    o.Over ∧ (authors o.deeds).file = some 1 ∧ ∀ id ∈ ["a", "b"], id ∈ (load o.store.disk).ids := by
  intro o
  have hover : o.Over := by
    have hcalls : o.calls = [⟨"a", .ended (.ok true)⟩, ⟨"b", .ended (.ok true)⟩] := rfl
    simp [Overlap.Over, hcalls]
  have hauthor : (authors o.deeds).file = some 1 := rfl
  obtain ⟨hmem, -, hfile, -⟩ := overlap_keeps_iff {} ["a", "b"] [0, 1, 0, 1, 0, 0, 1, 1] hover
  refine ⟨hover, hauthor, fun id hid => (hfile 1 hauthor).2.2.2 ?_ id ((hmem id).2 (.inr ⟨hid, ?_⟩))⟩
  · decide
  · rintro rfl
    revert hid
    decide

/-- Call 0 makes its copy, call 1 runs from start to end, and then call 0 replaces the file: level "b" is
completed in memory, but not in the file. -/
theorem not_kept_of_overlap :
    let o := (Overlap.start {} ["a", "b"]).run [0, 0, 1, 1, 1, 1, 0, 0]
    o.calls = [⟨"a", .ended (.ok true)⟩, ⟨"b", .ended (.ok true)⟩] ∧ "b" ∈ o.store.ids ∧
      "b" ∉ (load o.store.disk).ids := by
  intro o
  have hfile : o.store.disk.file = some (.text (fileText ["a"])) := rfl
  refine ⟨rfl, ?_, ?_⟩
  · have hids : o.store.ids = ["a", "b"] := rfl
    rw [hids]
    decide
  · rw [load, hfile, Option.map_some, Option.getD_some, mem_idsOfFile_fileText]
    decide

end ProgressStore

end RobotPuzzle
