/-
  The format of levels, and that the reader accepts just that.

  1. **The format** — which values spell which level (`SpellsLevel`), said part by part: numbers are what
     `Json.readInt` reads, headings are numbers or compass letters, older levels name a start and a goal.
  2. **Stumbling** — the reader goes through a value in a fixed order and stops at the first fault.  It
     stumbles (`Stumbles`) if there members are asked of something that is no object, or if there stands an
     infinite number; every other fault is a refusal.
  3. **Readings** — `Reads` says of a reading what it returns, and when it fails without refusing.  It has
     rules for one reading after the other and for a list, and each reader has one lemma.
  4. **Together** — `ofJson_format`: the reader returns a level just for the format, and it stumbles, refuses
     or returns one for every value.  At `oddSpawner` it stumbles, so that this value is not refused.

  The crux is `Reads.bind`.  For a reader that reads one part after the other it says at once what is
  returned, namely what all parts spell together, and where it stumbles: at the first part, or at the
  second one if the first is in order.  So the relations for the parts are put together just as the
  readers are, and a lemma on a reader is the lemmas on its parts in their order.

  `SpellsLevel` is the format, told by what a value says and not by how it is read: which members there
  are, which defaults hold, what counts as a heading or a number.  `Stumbles` is told in the same way.  So
  the three outcomes can be told apart without running the reader, and the theorem says for each which
  values it is for.  No value has two outcomes, and none has none.
-/
import RobotPuzzle.Proofs.Levels

namespace RobotPuzzle

namespace Json

/-- A number without end, of either sign. -/
inductive Infinite : Json → Prop where
  | real {x : Float} {negative : Bool} (h : Decimal.Double.ofFloat x = .infinite negative) :
      Infinite (.real x)

/-- Among the faults of reading a number, one is no refusal, and it is that of an infinite number. -/
theorem readInt_eq_infinite_iff {v : Json} : v.readInt = .error .infinite ↔ v.Infinite := by
  constructor
  · intro h
    cases v with
    | real x =>
      rw [readInt] at h
      -- a float is read as a number, stumbled at or refused
      split at h
      · exact .real ‹_›
      · cases h
      · cases h
    | str text =>
      rw [readInt] at h
      split at h <;> cases h
    | null | bool b | int n | arr items | obj members => cases h
  · rintro ⟨hx⟩
    rw [readInt, hx]

/-- The value has members. -/
def isObject : Json → Bool
  | .obj _ => true
  | _ => false

theorem getD_of_not_isObject {v : Json} (h : v.isObject = false) (name : String) :
    v.getD name = .null := by
  cases v with
  | obj members => cases h
  | null | bool b | int n | real x | str text | arr items => rfl

end Json

namespace Level

/-! ## The format

  These relations do not say how a value is read.  A number may be written as a float or as a text, and
  members that are missing are as good as null, or stand for what is usual. -/

/-- A value stands for that whole number. -/
def SpellsNumber (v : Json) (n : Int) : Prop := v.readInt = .ok n

/-- The letter of a heading on a compass. -/
def compassLetter : Direction → String
  | .north => "N"
  | .east => "E"
  | .south => "S"
  | .west => "W"

/-- A value stands for the heading with that number. -/
inductive NamesHeading : Json → Int → Prop where
  /-- a number, counted by fours -/
  | turns (n : Int) : NamesHeading (.int n) (n % 4)
  /-- the letter of a direction, in either case -/
  | letter {text : String} {d : Direction} (h : Text.upper text = compassLetter d) :
      NamesHeading (.str text) d.number

structure SpellsCell (v : Json) (c : Cell) : Prop where
  /-- the column -/
  x : SpellsNumber (v.getD "x") c.x
  /-- the row -/
  y : SpellsNumber (v.getD "y") c.y

structure SpellsPose (v : Json) (pose : Pose) : Prop where
  /-- the cell, named in the same object -/
  cell : SpellsCell v pose.cell
  /-- the heading, east if nothing is said -/
  heading : NamesHeading ((v.get? "dir").getD (.int 1)) pose.heading

/-- Whatever is void stands for no starts. -/
inductive SpellsStarts (v : Json) : List Pose → Prop where
  /-- nothing, or something empty -/
  | void (h : v.isVoid = true) : SpellsStarts v []
  /-- poses, one by one -/
  | poses {items : List Json} {starts : List Pose} (h : v.isVoid = false)
      (hitems : v.elements = .ok items) (hposes : List.Forall₂ SpellsPose items starts) :
      SpellsStarts v starts

structure SpellsSpawner (v : Json) (spawner : Spawner) : Prop where
  /-- the poses of the first robots -/
  starts : SpellsStarts (v.getD "starts") spawner.starts
  /-- the pose of the others -/
  pose : SpellsPose v spawner.pose
  /-- how many robots, one if nothing is said -/
  count : SpellsNumber ((v.get? "count").getD (.int 1)) spawner.count
  /-- how many ticks between two of them, none if nothing is said -/
  interval : SpellsNumber ((v.get? "intervalTicks").getD (.int 0)) spawner.interval

/-- Robots enter at the spawner, and in older levels at the start. -/
inductive SpellsEntry (v : Json) : Spawner → Prop where
  /-- the newer form -/
  | spawner {spawner : Spawner} (h : v.getD "spawner" ≠ .null)
      (hs : SpellsSpawner (v.getD "spawner") spawner) : SpellsEntry v spawner
  /-- the older one: a single robot -/
  | start {pose : Pose} (h : v.getD "spawner" = .null) (hp : SpellsPose (v.getD "start") pose) :
      SpellsEntry v { pose }

/-- Exits are listed, and in older levels there is one goal. -/
inductive SpellsExits (v : Json) : List Cell → Prop where
  /-- the newer form -/
  | listed {items : List Json} {exits : List Cell} (h : v.getD "exits" ≠ .null)
      (hitems : (v.getD "exits").elements = .ok items) (hcells : List.Forall₂ SpellsCell items exits) :
      SpellsExits v exits
  /-- the older one: a single exit -/
  | goal {c : Cell} (h : v.getD "exits" = .null) (hc : SpellsCell (v.getD "goal") c) :
      SpellsExits v [c]
  /-- neither of the two -/
  | none (h : v.getD "exits" = .null) (hgoal : v.getD "goal" = .null) : SpellsExits v []

/-- A list of rows of one width, none of them empty. -/
structure SpellsRows (v : Json) (rows : List (List Json)) : Prop where
  /-- a list of lists -/
  list : v = .arr (rows.map .arr)
  /-- there is a row -/
  nonempty : rows ≠ []
  /-- and something in each -/
  filled : ∀ row ∈ rows, row ≠ []
  /-- all are of one length -/
  even : Grid.EvenRows rows

/-- A tick limit, or none. -/
inductive SpellsLimit : Json → Option Int → Prop where
  /-- null stands for no limit -/
  | none : SpellsLimit .null none
  /-- anything else for a number -/
  | some {v : Json} {n : Int} (h : SpellsNumber v n) : SpellsLimit v (some n)

/-- A value spells a level. -/
structure SpellsLevel (v : Json) (level : Level) : Prop where
  /-- the rows, and a number for each cell -/
  grid : ∃ rows, SpellsRows (v.getD "grid") rows ∧
    List.Forall₂ (List.Forall₂ SpellsNumber) rows level.grid
  /-- where robots enter -/
  entry : SpellsEntry v level.spawner
  /-- where they are saved -/
  exits : SpellsExits v level.exits
  /-- the quota, one if nothing is said -/
  requiredSaved : SpellsNumber ((v.get? "requiredSaved").getD (.int 1)) level.requiredSaved
  /-- the tick limit -/
  maxTicks : SpellsLimit (v.getD "maxTicks") level.maxTicks
  /-- the identifier, whatever it is -/
  id : v.getD "id" = level.id
  /-- and the name -/
  name : v.getD "name" = level.name

/-! ## Stumbling

  Where a value stumbles depends on the order of reading, so each case says what has been read before.  A
  later fault does not count, not even one that would be a refusal. -/

/-- The first item of a list that cannot be read makes the reader stumble. -/
inductive FirstStumbles {α : Type} (reads stumbles : α → Prop) : List α → Prop where
  /-- the first item is such -/
  | here {a : α} {rest : List α} (h : stumbles a) : FirstStumbles reads stumbles (a :: rest)
  /-- the first item can be read, and one behind it is such -/
  | later {a : α} {rest : List α} (h : reads a) (hrest : FirstStumbles reads stumbles rest) :
      FirstStumbles reads stumbles (a :: rest)

inductive CellStumbles (v : Json) : Prop where
  /-- the column is infinite -/
  | x (h : (v.getD "x").Infinite)
  /-- the column can be read, and the row is infinite -/
  | y {n : Int} (hx : SpellsNumber (v.getD "x") n) (h : (v.getD "y").Infinite)

inductive SpawnerStumbles (v : Json) : Prop where
  /-- members are asked of something else -/
  | noObject (h : v.isObject = false)
  /-- one of the starts -/
  | starts {items : List Json} (hitems : v.getD "starts" = .arr items)
      (h : FirstStumbles (fun item => ∃ pose, SpellsPose item pose) CellStumbles items)
  /-- the starts can be read, but not the cell -/
  | cell {starts : List Pose} (hstarts : SpellsStarts (v.getD "starts") starts) (h : CellStumbles v)
  /-- the pose can be read, but not the count -/
  | count {starts : List Pose} {pose : Pose} (hstarts : SpellsStarts (v.getD "starts") starts)
      (hpose : SpellsPose v pose) (h : ((v.get? "count").getD (.int 1)).Infinite)
  /-- nor, if the count can, the interval -/
  | interval {starts : List Pose} {pose : Pose} {count : Int}
      (hstarts : SpellsStarts (v.getD "starts") starts) (hpose : SpellsPose v pose)
      (hcount : SpellsNumber ((v.get? "count").getD (.int 1)) count)
      (h : ((v.get? "intervalTicks").getD (.int 0)).Infinite)

inductive EntryStumbles (v : Json) : Prop where
  /-- the spawner, if there is one -/
  | spawner (h : v.getD "spawner" ≠ .null) (hs : SpawnerStumbles (v.getD "spawner"))
  /-- else the start -/
  | start (h : v.getD "spawner" = .null) (hs : CellStumbles (v.getD "start"))

inductive ExitsStumble (v : Json) : Prop where
  /-- one of the exits, if they are listed -/
  | listed {items : List Json} (hitems : v.getD "exits" = .arr items)
      (h : FirstStumbles (fun item => ∃ c, SpellsCell item c) CellStumbles items)
  /-- else the goal -/
  | goal (h : v.getD "exits" = .null) (hs : CellStumbles (v.getD "goal"))

/-- The first fault of a value is that members are asked of something that is no object, or that a number
is infinite. -/
inductive Stumbles (v : Json) : Prop where
  /-- the value itself has no members -/
  | noObject (h : v.isObject = false)
  /-- behind the rows comes the entry -/
  | entry {rows : List (List Json)} (hrows : SpellsRows (v.getD "grid") rows) (h : EntryStumbles v)
  /-- behind the entry the exits -/
  | exits {rows : List (List Json)} {spawner : Spawner} (hrows : SpellsRows (v.getD "grid") rows)
      (hentry : SpellsEntry v spawner) (h : ExitsStumble v)
  /-- behind the exits the numbers of the cells -/
  | cells {rows : List (List Json)} {spawner : Spawner} {exits : List Cell}
      (hrows : SpellsRows (v.getD "grid") rows) (hentry : SpellsEntry v spawner)
      (hexits : SpellsExits v exits)
      (h : FirstStumbles (fun row => ∃ ns, List.Forall₂ SpellsNumber row ns)
        (FirstStumbles (fun cell => ∃ n, SpellsNumber cell n) Json.Infinite) rows)
  /-- then the quota -/
  | requiredSaved {rows : List (List Json)} {spawner : Spawner} {exits : List Cell}
      {grid : List (List Int)} (hrows : SpellsRows (v.getD "grid") rows)
      (hentry : SpellsEntry v spawner) (hexits : SpellsExits v exits)
      (hgrid : List.Forall₂ (List.Forall₂ SpellsNumber) rows grid)
      (h : ((v.get? "requiredSaved").getD (.int 1)).Infinite)
  /-- and the tick limit last -/
  | maxTicks {rows : List (List Json)} {spawner : Spawner} {exits : List Cell}
      {grid : List (List Int)} {requiredSaved : Int} (hrows : SpellsRows (v.getD "grid") rows)
      (hentry : SpellsEntry v spawner) (hexits : SpellsExits v exits)
      (hgrid : List.Forall₂ (List.Forall₂ SpellsNumber) rows grid)
      (hrequired : SpellsNumber ((v.get? "requiredSaved").getD (.int 1)) requiredSaved)
      (h : (v.getD "maxTicks").Infinite)

/-! ## Readings

  A reading has three outcomes: a value, a refusal, or a fault that is none.  `Reads` fixes two of them,
  and the third is what is left (`refusal_iff`). -/

/-- A reading returns just what is spelled, and fails without refusing just where the value stumbles. -/
structure Reads {α : Type} (x : Except Fault α) (spells : α → Prop) (stumbles : Prop) : Prop where
  /-- what is returned is what is spelled -/
  ok : ∀ a, x = .ok a ↔ spells a
  /-- what fails without a refusal is what stumbles -/
  stumbles : (∃ fault, x = .error fault ∧ fault.isRefusal = false) ↔ stumbles

namespace Reads

variable {α β : Type} {x : Except Fault α} {spells spells' : α → Prop} {stumbles stumbles' : Prop}

/-- What is spelled and where it stumbles may be said in other words. -/
theorem congr (h : Reads x spells stumbles) (hspells : ∀ a, spells a ↔ spells' a)
    (hstumbles : stumbles ↔ stumbles') : Reads x spells' stumbles' :=
  ⟨fun a => (h.ok a).trans (hspells a), h.stumbles.trans hstumbles⟩

theorem pure (a : α) : Reads (.ok a) (· = a) False := by
  refine ⟨fun b => ⟨fun h => (Except.ok.inj h).symm, fun h => congrArg _ h.symm⟩, ⟨?_, False.elim⟩⟩
  rintro ⟨fault, h, -⟩
  cases h

/-- A fault returns nothing, and whether it stumbles can be seen. -/
theorem error (fault : Fault) :
    Reads (.error fault : Except Fault α) (fun _ => False) (fault.isRefusal = false) := by
  refine ⟨fun a => ⟨fun h => (nomatch h), False.elim⟩, ⟨?_, fun h => ⟨fault, rfl, h⟩⟩⟩
  rintro ⟨fault', h, hrefusal⟩
  cases h
  exact hrefusal

/-- A refusal is a reading of nothing that does not stumble. -/
theorem refused {fault : Fault} (h : fault.isRefusal = true) (hspells : ∀ a, ¬ spells a)
    (hstumbles : ¬ stumbles) : Reads (.error fault : Except Fault α) spells stumbles := by
  refine (error fault).congr (fun a => ⟨False.elim, hspells a⟩) ⟨fun hf => ?_, fun hs => absurd hs hstumbles⟩
  rw [h] at hf
  cases hf

/-- **One reading after the other.**  What the first one returns is the only thing that its value spells,
so the second one is asked about just that; if the first one fails, the second one is not made, and
whether the whole stumbles is up to the first. -/
theorem bind {f : α → Except Fault β} {spells' : α → β → Prop} {stumbles' : α → Prop}
    (hx : Reads x spells stumbles) (hf : ∀ a, spells a → Reads (f a) (spells' a) (stumbles' a)) :
    Reads (x >>= f) (fun b => ∃ a, spells a ∧ spells' a b)
      (stumbles ∨ ∃ a, spells a ∧ stumbles' a) := by
  cases x with
  | ok a =>
    have ha : spells a := (hx.ok a).1 rfl
    -- the first reader returns one value, so there is only one for the second
    have honly : ∀ a', spells a' → a' = a := fun a' h' => (Except.ok.inj ((hx.ok a').2 h')).symm
    have hno : ¬ stumbles := fun h => by
      obtain ⟨fault, hfault, -⟩ := hx.stumbles.2 h
      cases hfault
    constructor
    · intro b
      refine ((hf a ha).ok b).trans ⟨fun h => ⟨a, ha, h⟩, ?_⟩
      rintro ⟨a', ha', h⟩
      rw [honly a' ha'] at h
      exact h
    · refine (hf a ha).stumbles.trans ⟨fun h => .inr ⟨a, ha, h⟩, ?_⟩
      rintro (h | ⟨a', ha', h⟩)
      · exact absurd h hno
      · rw [honly a' ha'] at h
        exact h
  | error fault =>
    -- the first reader fails, so nothing is left for the second one to read
    have hnone : ∀ a, ¬ spells a := fun a ha => nomatch (hx.ok a).2 ha
    constructor
    · intro b
      refine ⟨fun h => (nomatch h), ?_⟩
      rintro ⟨a, ha, -⟩
      exact absurd ha (hnone a)
    · constructor
      · rintro ⟨fault', hfault, hrefusal⟩
        cases hfault
        -- the fault is that of the first reader, and it is no refusal
        exact .inl (hx.stumbles.1 ⟨fault, rfl, hrefusal⟩)
      · rintro (h | ⟨a, ha, -⟩)
        · obtain ⟨fault', hfault, hrefusal⟩ := hx.stumbles.2 h
          cases hfault
          exact ⟨fault, rfl, hrefusal⟩
        · exact absurd ha (hnone a)

/-- What is read last is put together with the rest. -/
theorem map (h : Reads x spells stumbles) (g : α → β) :
    Reads (x >>= fun a => .ok (g a)) (fun b => ∃ a, spells a ∧ b = g a) stumbles := by
  refine (h.bind fun a _ => pure (g a)).congr (fun b => Iff.rfl) ⟨?_, .inl⟩
  rintro (hs | ⟨a, -, hfalse⟩)
  · exact hs
  · exact hfalse.elim

/-- Reading a list item by item. -/
theorem mapM {f : α → Except Fault β} {spells : α → β → Prop} {stumbles : α → Prop}
    (hf : ∀ a, Reads (f a) (spells a) (stumbles a)) (items : List α) :
    Reads (items.mapM f) (List.Forall₂ spells items)
      (FirstStumbles (fun a => ∃ b, spells a b) stumbles items) := by
  induction items with
  | nil =>
    refine (pure []).congr (fun bs => ?_) ⟨False.elim, fun h => nomatch h⟩
    rw [List.forall₂_nil_left_iff]
  | cons a rest ih =>
    rw [List.mapM_cons]
    -- the item at the front is read first, and the others only if it is accepted
    refine ((hf a).bind fun b _ => ih.map (b :: ·)).congr (fun bs => ?_) ?_
    · constructor
      · rintro ⟨b, hb, others, hothers, rfl⟩
        exact .cons hb hothers
      · intro h
        cases h with
        | cons hb hothers => exact ⟨_, hb, _, hothers, rfl⟩
    · constructor
      · rintro (h | ⟨b, hb, h⟩)
        · exact .here h
        · exact .later ⟨b, hb⟩ h
      · intro h
        cases h with
        | here h => exact .inl h
        | later hb hrest =>
          obtain ⟨b, hb⟩ := hb
          exact .inr ⟨b, hb, hrest⟩

/-- What is neither returned nor stumbled at is refused. -/
theorem refusal_iff (h : Reads x spells stumbles) :
    (∃ fault, x = .error fault ∧ fault.isRefusal = true) ↔ (¬ ∃ a, spells a) ∧ ¬ stumbles := by
  rw [← h.stumbles]
  simp only [← h.ok]
  cases x with
  | ok a => simp
  | error fault => simp

end Reads

/-! ## The readers

  The readers of numbers, cells, headings and poses, from the smallest on.  Of these, numbers alone
  stumble by themselves. -/

theorem readNumber_reads (v : Json) : Reads (readNumber v) (SpellsNumber v) v.Infinite := by
  unfold readNumber SpellsNumber
  rw [← Json.readInt_eq_infinite_iff]
  cases v.readInt with
  | ok n => exact (Reads.pure n).congr (fun a => by simp [eq_comm]) (by simp)
  | error fault => exact (Reads.error _).congr (fun a => by simp) (by cases fault <;> simp [Fault.isRefusal])

/-- A member that is a number.  If it is missing, or there are no members, that is a refusal. -/
theorem readMember_reads (v : Json) (name : String) :
    Reads (member v name >>= readNumber) (SpellsNumber (v.getD name)) (v.getD name).Infinite := by
  -- a member that is missing is no number
  have hmissing : ∀ n, ¬ SpellsNumber .null n := fun n h => nomatch h
  have hfinite : ¬ Json.Infinite .null := fun h => nomatch h
  cases v with
  | obj members =>
    rw [Json.getD, Json.get?_obj, member]
    cases Json.lookup name members with
    | some w => exact readNumber_reads w
    | none => exact .refused rfl hmissing hfinite
  | null | bool b | int n | real x | str text | arr items => exact .refused rfl hmissing hfinite

/-- Of a cell the column is read before the row. -/
theorem readCell_reads (v : Json) : Reads (readCell v) (SpellsCell v) (CellStumbles v) := by
  -- the two readings one after the other, as the lemmas want them
  have heq : readCell v = (member v "x" >>= readNumber) >>= fun x =>
      (member v "y" >>= readNumber) >>= fun y => .ok ⟨x, y⟩ := by
    simp [readCell, bind_assoc]
    rfl
  rw [heq]
  refine ((readMember_reads v "x").bind fun x _ => (readMember_reads v "y").map (Cell.mk x)).congr
    (fun c => ?_) ?_
  · constructor
    · rintro ⟨x, hx, y, hy, rfl⟩
      exact ⟨hx, hy⟩
    · rintro ⟨hx, hy⟩
      exact ⟨_, hx, _, hy, rfl⟩
  · constructor
    · rintro (h | ⟨x, hx, h⟩)
      · exact .x h
      · exact .y hx h
    · rintro (h | ⟨hx, h⟩)
      · exact .inl h
      · exact .inr ⟨_, hx, h⟩

theorem compassLetter_injective {d e : Direction} (h : compassLetter d = compassLetter e) : d = e := by
  cases d <;> cases e <;> first | rfl | exact absurd h (by decide)

/-- A text names the heading whose letter it is, and no other. -/
theorem namesHeading_iff {text : String} {d : Direction} (h : Text.upper text = compassLetter d)
    (heading : Int) : heading = d.number ↔ NamesHeading (.str text) heading := by
  constructor
  · rintro rfl
    exact .letter h
  · intro hheading
    cases hheading with
    | letter h' => rw [compassLetter_injective (h'.symm.trans h)]

theorem readDirection_of_letter {text : String} {d : Direction}
    (h : Text.upper text = compassLetter d) : readDirection (.str text) = .ok d := by
  cases d <;> rw [readDirection, h] <;> rfl

/-- Any other text is refused. -/
theorem readDirection_of_no_letter {text : String} (h : ∀ d, Text.upper text ≠ compassLetter d) :
    readDirection (.str text) = .error (.direction (.str text)) := by
  dsimp only [readDirection]
  split
  · exact absurd ‹_› (h .north)
  · exact absurd ‹_› (h .east)
  · exact absurd ‹_› (h .south)
  · exact absurd ‹_› (h .west)
  · rfl

/-- A heading is a number or a letter, east if nothing is said.  It never stumbles: an infinite number is
no heading, like any other float. -/
theorem readHeading_reads (v : Json) :
    Reads (readHeading v) (NamesHeading ((v.get? "dir").getD (.int 1))) False := by
  unfold readHeading
  cases (v.get? "dir").getD (.int 1) with
  | int n =>
    refine (Reads.pure _).congr (fun heading => ?_) Iff.rfl
    rw [Direction.number_ofTurns]
    constructor
    · rintro rfl
      exact .turns n
    · intro h
      cases h
      rfl
  | str text =>
    by_cases hletter : ∃ d, Text.upper text = compassLetter d
    · -- a text is a heading if its capitals are one of the four letters
      obtain ⟨d, hd⟩ := hletter
      rw [readDirection_of_letter hd]
      exact (Reads.pure _).congr (namesHeading_iff hd) Iff.rfl
    · rw [readDirection_of_no_letter (not_exists.1 hletter)]
      refine .refused rfl (fun heading h => ?_) not_false
      cases h with
      | letter hd => exact hletter ⟨_, hd⟩
  | null | bool b | real x | arr items | obj members =>
    exact .refused rfl (fun heading h => nomatch h) not_false

/-- A pose is a cell with a heading, so it stumbles where its cell does. -/
theorem readPose_reads (v : Json) : Reads (readPose v) (SpellsPose v) (CellStumbles v) := by
  refine ((readCell_reads v).bind fun cell _ => (readHeading_reads v).map (Pose.mk cell)).congr
    (fun pose => ?_) ⟨?_, .inl⟩
  · constructor
    · rintro ⟨cell, hcell, heading, hheading, rfl⟩
      exact ⟨hcell, hheading⟩
    · rintro ⟨hcell, hheading⟩
      exact ⟨_, hcell, _, hheading, rfl⟩
  · rintro (h | ⟨cell, -, h⟩)
    · exact h
    · exact h.elim

/-! ## Lists

  Texts and objects have items too, namely their characters and their keys.  So a text may be given where
  a list is asked for; its items are texts again, and no reader of items takes those.  That is why
  stumbling is about lists alone. -/

theorem readItems_reads (v : Json) :
    Reads (readItems v) (fun items => v.elements = .ok items) False := by
  unfold readItems
  cases v.elements with
  | ok items => exact (Reads.pure _).congr (fun a => by rw [Except.ok.injEq, eq_comm]) Iff.rfl
  | error kind => exact .refused rfl (fun items h => nomatch h) not_false

theorem FirstStumbles.exists_mem {α : Type} {reads stumbles : α → Prop} {items : List α}
    (h : FirstStumbles reads stumbles items) : ∃ item ∈ items, stumbles item := by
  induction h with
  | here h => exact ⟨_, List.mem_cons_self, h⟩
  | later _ _ ih =>
    obtain ⟨item, hmem, h⟩ := ih
    exact ⟨item, List.mem_cons_of_mem _ hmem, h⟩

/-- Of the values with items only a list has items that are no texts. -/
theorem eq_arr_or_texts {v : Json} {items : List Json} (h : v.elements = .ok items) :
    v = .arr items ∨ ∀ item ∈ items, ∃ text, item = .str text := by
  cases v with
  | arr items' =>
    cases h
    exact .inl rfl
  | str text =>
    cases h
    -- the items of a text are its letters, and those of an object its keys
    refine .inr fun item hitem => ?_
    obtain ⟨c, -, rfl⟩ := List.mem_map.1 hitem
    exact ⟨_, rfl⟩
  | obj members =>
    cases h
    refine .inr fun item hitem => ?_
    obtain ⟨m, -, rfl⟩ := List.mem_map.1 hitem
    exact ⟨_, rfl⟩
  | null | bool b | int n | real x => cases h

/-- What has items, but none of them, is void. -/
theorem isVoid_of_no_elements {v : Json} (h : v.elements = .ok []) : v.isVoid = true := by
  cases v with
  | arr items =>
    cases h
    rfl
  | str text =>
    have htext := List.map_eq_nil_iff.1 (Except.ok.inj h)
    rw [Json.isVoid, String.isEmpty_iff, ← String.toList_eq_nil_iff]
    exact htext
  | obj members => exact List.isEmpty_iff.2 (List.map_eq_nil_iff.1 (Except.ok.inj h))
  | null | bool b | int n | real x => cases h

/-- **All items of a value.**  If it is no list, the items are texts; at these nothing stumbles, so
neither does the whole. -/
theorem readAll_reads {α : Type} {f : Json → Except Fault α} {spells : Json → α → Prop}
    {stumbles : Json → Prop} (hf : ∀ v, Reads (f v) (spells v) (stumbles v))
    (htext : ∀ text, ¬ stumbles (.str text)) (v : Json) :
    Reads (readItems v >>= fun items => items.mapM f)
      (fun as => ∃ items, v.elements = .ok items ∧ List.Forall₂ spells items as)
      (∃ items, v = .arr items ∧ FirstStumbles (fun item => ∃ a, spells item a) stumbles items) := by
  refine ((readItems_reads v).bind fun items _ => Reads.mapM hf items).congr (fun as => Iff.rfl) ?_
  constructor
  · rintro (h | ⟨items, hitems, h⟩)
    · exact h.elim
    · rcases eq_arr_or_texts hitems with hv | htexts
      · exact ⟨items, hv, h⟩
      · obtain ⟨item, hmem, hstumbles⟩ := h.exists_mem
        obtain ⟨text, rfl⟩ := htexts item hmem
        exact absurd hstumbles (htext text)
  · rintro ⟨items, rfl, h⟩
    exact .inr ⟨items, rfl, h⟩

/-- What is no object is no cell to stumble at: without members there is no infinite one. -/
theorem not_cellStumbles {v : Json} (h : v.isObject = false) : ¬ CellStumbles v := by
  rintro (hx | ⟨-, hy⟩)
  · rw [Json.getD_of_not_isObject h] at hx
    cases hx
  · rw [Json.getD_of_not_isObject h] at hy
    cases hy

theorem not_spellsCell {v : Json} (h : v.isObject = false) {c : Cell} : ¬ SpellsCell v c := by
  rintro ⟨hx, -⟩
  rw [Json.getD_of_not_isObject h] at hx
  cases hx

/-! ## Entry and exits

  Both may be given in an older form, and then the newer one has to be null or missing.  So there is one
  case for each form, and in each of them only one rule of the relation applies. -/

/-- Starts are read from a list, and whatever is void stands for none. -/
theorem readStarts_reads (v : Json) :
    Reads (readStarts v) (SpellsStarts (v.getD "starts")) (∃ items, v.getD "starts" = .arr items ∧
      FirstStumbles (fun item => ∃ pose, SpellsPose item pose) CellStumbles items) := by
  unfold readStarts
  dsimp only
  cases hvoid : (v.getD "starts").isVoid with
  | true =>
    -- void, so nothing is read
    rw [if_pos rfl]
    refine (Reads.pure []).congr (fun starts => ⟨?_, fun h => ?_⟩) ⟨False.elim, ?_⟩
    · rintro rfl
      exact .void hvoid
    · cases h with
      | void h => rfl
      | poses h hitems hposes =>
        rw [hvoid] at h
        cases h
    · rintro ⟨items, hitems, h⟩
      rw [hitems] at hvoid
      cases h <;> cases hvoid
  | false =>
    rw [if_neg Bool.false_ne_true]
    refine (readAll_reads readPose_reads (fun text => not_cellStumbles rfl) (v.getD "starts")).congr
      (fun starts => ⟨?_, fun h => ?_⟩) Iff.rfl
    · rintro ⟨items, hitems, hposes⟩
      exact .poses hvoid hitems hposes
    · cases h with
      | void h =>
        rw [hvoid] at h
        cases h
      | poses h hitems hposes => exact ⟨_, hitems, hposes⟩

/-- **The spawner**: starts, pose, count and interval, in this order.  What is no object stumbles right
away, as members are asked of it before it is looked at. -/
theorem readSpawner_reads (v : Json) : Reads (readSpawner v) (SpellsSpawner v) (SpawnerStumbles v) := by
  cases v with
  | obj members =>
    generalize hv : Json.obj members = v
    -- what is an object passes the check, and then the five parts are read in order
    have hobject : readSpawner v = (do
        let starts ← readStarts v
        let pose ← readPose v
        let count ← readNumber ((v.get? "count").getD (.int 1))
        let interval ← readNumber ((v.get? "intervalTicks").getD (.int 0))
        pure { pose, count, interval, starts }) := by
      rw [← hv]
      rfl
    rw [hobject]
    refine ((readStarts_reads v).bind fun starts _ => (readPose_reads v).bind fun pose _ =>
      (readNumber_reads _).bind fun count _ => (readNumber_reads _).map fun interval =>
        Spawner.mk pose count interval starts).congr (fun spawner => ?_) ?_
    · constructor
      · rintro ⟨starts, hstarts, pose, hpose, count, hcount, interval, hinterval, rfl⟩
        exact ⟨hstarts, hpose, hcount, hinterval⟩
      · rintro ⟨hstarts, hpose, hcount, hinterval⟩
        exact ⟨_, hstarts, _, hpose, _, hcount, _, hinterval, rfl⟩
    · constructor
      · rintro (⟨items, hitems, h⟩ | ⟨starts, hstarts, h | ⟨pose, hpose, h | ⟨count, hcount, h⟩⟩⟩)
        · exact .starts hitems h
        · exact .cell hstarts h
        · exact .count hstarts hpose h
        · exact .interval hstarts hpose hcount h
      · intro h
        cases h with
        | noObject h =>
          rw [← hv] at h
          cases h
        | starts hitems h => exact .inl ⟨_, hitems, h⟩
        | cell hstarts h => exact .inr ⟨_, hstarts, .inl h⟩
        | count hstarts hpose h => exact .inr ⟨_, hstarts, .inr ⟨_, hpose, .inl h⟩⟩
        | interval hstarts hpose hcount h =>
          exact .inr ⟨_, hstarts, .inr ⟨_, hpose, .inr ⟨_, hcount, h⟩⟩⟩
  | null | bool b | int n | real x | str text | arr items =>
    -- no value but an object has members, and the first question already fails
    refine (Reads.error _).congr (fun spawner => ⟨False.elim, fun h => ?_⟩)
      ⟨fun _ => .noObject rfl, fun _ => rfl⟩
    exact not_spellsCell rfl h.pose.cell

section Entry

variable {v : Json} {spawner : Spawner}

/-- With a spawner the entry is that one. -/
theorem spellsEntry_of_spawner (h : v.getD "spawner" ≠ .null) :
    SpellsEntry v spawner ↔ SpellsSpawner (v.getD "spawner") spawner := by
  refine ⟨fun hentry => ?_, .spawner h⟩
  cases hentry with
  | spawner _ hs => exact hs
  | start hnull hp => exact absurd hnull h

/-- Without one it is the start, with one robot. -/
theorem spellsEntry_of_start (h : v.getD "spawner" = .null) :
    SpellsEntry v spawner ↔ ∃ pose, SpellsPose (v.getD "start") pose ∧ spawner = { pose } := by
  constructor
  · intro hentry
    cases hentry with
    | spawner hsome hs => exact absurd h hsome
    | start _ hp => exact ⟨_, hp, rfl⟩
  · rintro ⟨pose, hp, rfl⟩
    exact .start h hp

/-- With a spawner the entry stumbles where that does. -/
theorem entryStumbles_of_spawner (h : v.getD "spawner" ≠ .null) :
    EntryStumbles v ↔ SpawnerStumbles (v.getD "spawner") := by
  refine ⟨fun hentry => ?_, .spawner h⟩
  cases hentry with
  | spawner _ hs => exact hs
  | start hnull hs => exact absurd hnull h

/-- Without one it stumbles where the start does. -/
theorem entryStumbles_of_start (h : v.getD "spawner" = .null) :
    EntryStumbles v ↔ CellStumbles (v.getD "start") := by
  refine ⟨fun hentry => ?_, .start h⟩
  cases hentry with
  | spawner hsome hs => exact absurd h hsome
  | start _ hs => exact hs

end Entry

/-- **The entry** is read in the form that it is given in, and a level with neither is refused. -/
theorem readEntry_reads (v : Json) : Reads (readEntry v) (SpellsEntry v) (EntryStumbles v) := by
  unfold readEntry
  split
  · -- neither a spawner nor a start
    rename_i hspawner hstart
    refine .refused rfl (fun spawner h => ?_) (fun h => ?_)
    · obtain ⟨pose, hpose, -⟩ := (spellsEntry_of_start hspawner).1 h
      rw [hstart] at hpose
      exact not_spellsCell rfl hpose.cell
    · rw [entryStumbles_of_start hspawner, hstart] at h
      exact not_cellStumbles rfl h
  · rename_i hspawner _
    exact ((readPose_reads _).map fun pose => ({ pose } : Spawner)).congr
      (fun spawner => (spellsEntry_of_start hspawner).symm) (entryStumbles_of_start hspawner).symm
  · rename_i hspawner _
    exact (readSpawner_reads _).congr (fun spawner => (spellsEntry_of_spawner hspawner).symm)
      (entryStumbles_of_spawner hspawner).symm

section Exits

variable {v : Json} {exits : List Cell}

/-- Exits that are listed. -/
theorem spellsExits_of_listed (h : v.getD "exits" ≠ .null) :
    SpellsExits v exits ↔
      ∃ items, (v.getD "exits").elements = .ok items ∧ List.Forall₂ SpellsCell items exits := by
  constructor
  · intro hexits
    cases hexits with
    | listed _ hitems hcells => exact ⟨_, hitems, hcells⟩
    | goal hnull hc => exact absurd hnull h
    | none hnull hgoal => exact absurd hnull h
  · rintro ⟨items, hitems, hcells⟩
    exact .listed h hitems hcells

/-- No list, but a goal: that is the only exit. -/
theorem spellsExits_of_goal (h : v.getD "exits" = .null) (hgoal : v.getD "goal" ≠ .null) :
    SpellsExits v exits ↔ ∃ c, SpellsCell (v.getD "goal") c ∧ exits = [c] := by
  constructor
  · intro hexits
    cases hexits with
    | listed hsome hitems hcells => exact absurd h hsome
    | goal _ hc => exact ⟨_, hc, rfl⟩
    | none _ hnull => exact absurd hnull hgoal
  · rintro ⟨c, hc, rfl⟩
    exact .goal h hc

/-- Neither a list nor a goal: no exits. -/
theorem spellsExits_of_none (h : v.getD "exits" = .null) (hgoal : v.getD "goal" = .null) :
    SpellsExits v exits ↔ exits = [] := by
  constructor
  · intro hexits
    cases hexits with
    | listed hsome hitems hcells => exact absurd h hsome
    | goal _ hc =>
      rw [hgoal] at hc
      exact (not_spellsCell rfl hc).elim
    | none => rfl
  · rintro rfl
    exact .none h hgoal

/-- A list of exits stumbles at its first item that is no cell, if that item does. -/
theorem exitsStumble_of_listed (h : v.getD "exits" ≠ .null) :
    ExitsStumble v ↔ ∃ items, v.getD "exits" = .arr items ∧
      FirstStumbles (fun item => ∃ c, SpellsCell item c) CellStumbles items := by
  constructor
  · intro hexits
    cases hexits with
    | listed hitems hfirst => exact ⟨_, hitems, hfirst⟩
    | goal hnull hs => exact absurd hnull h
  · rintro ⟨items, hitems, hfirst⟩
    exact .listed hitems hfirst

/-- Without a list it is the goal that stumbles, if there is one. -/
theorem exitsStumble_of_goal (h : v.getD "exits" = .null) :
    ExitsStumble v ↔ CellStumbles (v.getD "goal") := by
  refine ⟨fun hexits => ?_, .goal h⟩
  cases hexits with
  | listed hitems hfirst =>
    rw [h] at hitems
    cases hitems
  | goal _ hs => exact hs

end Exits

/-- **The exits** are read in the form that they are given in; none at all is in order. -/
theorem readExits_reads (v : Json) : Reads (readExits v) (SpellsExits v) (ExitsStumble v) := by
  unfold readExits
  split
  · rename_i hexits hgoal
    refine (Reads.pure []).congr (fun exits => (spellsExits_of_none hexits hgoal).symm)
      ⟨False.elim, fun h => ?_⟩
    rw [exitsStumble_of_goal hexits, hgoal] at h
    exact not_cellStumbles rfl h
  · rename_i hexits hgoal
    exact ((readCell_reads _).map fun c => [c]).congr
      (fun exits => (spellsExits_of_goal hexits hgoal).symm) (exitsStumble_of_goal hexits).symm
  · rename_i hexits _
    exact (readAll_reads readCell_reads (fun text => not_cellStumbles rfl) _).congr
      (fun exits => (spellsExits_of_listed hexits).symm) (exitsStumble_of_listed hexits).symm

/-! ## The board

  The rows are looked at first, without their cells, and these only after entry and exits.  So a fault in
  the entry is found before one in a cell. -/

theorem not_firstStumbles {α : Type} {reads : α → Prop} {items : List α} :
    ¬ FirstStumbles reads (fun _ => False) items := fun h => by
  obtain ⟨item, -, hfalse⟩ := h.exists_mem
  exact hfalse

/-- A row is a list that is not empty. -/
theorem readRow_reads (row : Json) :
    Reads (match row with
      | .arr (cell :: cells) => .ok (cell :: cells)
      | _ => .error .noGrid : Except Fault (List Json))
      (fun cells => row = .arr cells ∧ cells ≠ []) False := by
  split
  · refine (Reads.pure _).congr (fun cells => ⟨?_, ?_⟩) Iff.rfl
    · rintro rfl
      exact ⟨rfl, List.cons_ne_nil _ _⟩
    · rintro ⟨h, -⟩
      cases h
      rfl
  · rename_i hrow
    refine .refused rfl ?_ not_false
    rintro cells ⟨rfl, hne⟩
    obtain ⟨cell, others, rfl⟩ := List.exists_cons_of_ne_nil hne
    exact hrow cell others rfl

theorem readWidths_reads (rows : List (List Json)) :
    Reads (if rows.all fun row => row.length == (rows.head?.map (·.length)).getD 0 then pure rows
      else throw .unevenRows) (fun rows' => rows' = rows ∧ Grid.EvenRows rows) False := by
  split
  · rename_i heven
    exact (Reads.pure rows).congr (fun _ => (and_iff_left (evenRows_iff.1 heven)).symm) Iff.rfl
  · rename_i heven
    exact .refused rfl (fun _ h => heven (evenRows_iff.2 h.2)) not_false

/-- Rows, one by one. -/
theorem forall₂_rows_iff {items : List Json} {rows : List (List Json)} :
    List.Forall₂ (fun row cells => row = .arr cells ∧ cells ≠ []) items rows ↔
      items = rows.map .arr ∧ ∀ row ∈ rows, row ≠ [] := by
  induction rows generalizing items with
  | nil => simp
  | cons row rest ih =>
    cases items with
    | nil => simp
    | cons item others =>
      simp only [List.forall₂_cons, ih, List.map_cons, List.cons.injEq, List.forall_mem_cons]
      tauto

/-- **The rows**: a list of lists, none of them empty, and all of one length.  Nothing here stumbles. -/
theorem readRows_reads (v : Json) : Reads (readRows v) (SpellsRows v) False := by
  unfold readRows
  cases hvoid : v.isVoid with
  | true =>
    rw [if_pos rfl]
    -- nothing, and no items: there are no rows to spell
    refine .refused rfl (fun rows h => ?_) not_false
    rw [h.list] at hvoid
    exact h.nonempty (List.map_eq_nil_iff.1 (List.isEmpty_iff.1 hvoid))
  | false =>
    rw [if_neg Bool.false_ne_true]
    refine ((readItems_reads v).bind fun items _ => (Reads.mapM readRow_reads items).bind
      fun rows _ => readWidths_reads rows).congr (fun rows => ⟨?_, fun h => ?_⟩) ⟨?_, False.elim⟩
    · rintro ⟨items, hitems, _, hrows, rfl, heven⟩
      obtain ⟨rfl, hfilled⟩ := forall₂_rows_iff.1 hrows
      -- a value with no items would have been void
      have hsome : rows ≠ [] := by
        rintro rfl
        rw [isVoid_of_no_elements hitems] at hvoid
        cases hvoid
      refine ⟨?_, hsome, hfilled, heven⟩
      rcases eq_arr_or_texts hitems with hv | htexts
      · exact hv
      · -- the items of a text or of an object are texts, and a text is no row
        obtain ⟨row, others, rfl⟩ := List.exists_cons_of_ne_nil hsome
        obtain ⟨text, htext⟩ := htexts (.arr row) List.mem_cons_self
        cases htext
    · refine ⟨_, ?_, rows, forall₂_rows_iff.2 ⟨rfl, h.filled⟩, rfl, h.even⟩
      rw [h.list]
      rfl
    · rintro (h | ⟨items, -, h | ⟨rows, -, h⟩⟩)
      · exact h
      · exact not_firstStumbles h
      · exact h

/-- A tick limit, if there is one. -/
def readLimit : Json → Except Fault (Option Int)
  | .null => .ok none
  | v => some <$> readNumber v

/-- A tick limit may be null, and is a number otherwise. -/
theorem readLimit_reads (v : Json) : Reads (readLimit v) (SpellsLimit v) v.Infinite := by
  unfold readLimit
  split
  · refine (Reads.pure none).congr (fun limit => ⟨?_, fun h => ?_⟩) ⟨False.elim, fun h => nomatch h⟩
    · rintro rfl
      exact .none
    · cases h with
      | none => rfl
      | some h => cases h
  · -- anything but null is read as a number
    rename_i hsome
    refine ((readNumber_reads v).map some).congr (fun limit => ⟨?_, fun h => ?_⟩) Iff.rfl
    · rintro ⟨n, hn, rfl⟩
      exact .some hn
    · cases h with
      | none => exact absurd rfl hsome
      | some h => exact ⟨_, h, rfl⟩

/-! ## The level

  What comes first in this reader is the board without its cells, then entry, exits, cells, quota and tick
  limit; id and name are taken as they are. -/

/-- The reader of an object, without the two forms that it has for a level with a tick limit and one
without. -/
theorem ofJson_of_isObject {v : Json} (h : v.isObject = true) :
    ofJson v = (do
      let rows ← readRows (v.getD "grid")
      let spawner ← readEntry v
      let exits ← readExits v
      let grid ← rows.mapM fun row => row.mapM readNumber
      let requiredSaved ← readNumber ((v.get? "requiredSaved").getD (.int 1))
      let maxTicks ← readLimit (v.getD "maxTicks")
      pure { grid, spawner, exits, requiredSaved, maxTicks, id := v.getD "id", name := v.getD "name" }) := by
  cases v with
  | obj members =>
    unfold ofJson
    dsimp only
    cases (Json.obj members).getD "maxTicks" <;> rfl
  | null | bool b | int n | real x | str text | arr items => cases h

/-- **The whole reader.**  Six readings one after the other, by the lemma for each; then the existentials
of `Reads.bind` are sorted into the parts of `SpellsLevel` and the cases of `Stumbles`.  Anything but an
object stumbles at its first member. -/
theorem ofJson_reads (v : Json) : Reads (ofJson v) (SpellsLevel v) (Stumbles v) := by
  cases hobject : v.isObject with
  | true =>
    rw [ofJson_of_isObject hobject]
    refine ((readRows_reads _).bind fun rows _ => (readEntry_reads v).bind fun spawner _ =>
      (readExits_reads v).bind fun exits _ =>
      (Reads.mapM (fun row => Reads.mapM readNumber_reads row) rows).bind fun grid _ =>
      (readNumber_reads _).bind fun requiredSaved _ => (readLimit_reads _).map _).congr
        (fun level => ?_) ?_
    · -- what it returns
      constructor
      · rintro ⟨rows, hrows, spawner, hspawner, exits, hexits, grid, hgrid, requiredSaved, hrequired,
          maxTicks, hmax, rfl⟩
        exact ⟨⟨rows, hrows, hgrid⟩, hspawner, hexits, hrequired, hmax, rfl, rfl⟩
      · rintro ⟨⟨rows, hrows, hgrid⟩, hspawner, hexits, hrequired, hmax, hid, hname⟩
        refine ⟨rows, hrows, _, hspawner, _, hexits, _, hgrid, _, hrequired, _, hmax, ?_⟩
        rw [hid, hname]
    · constructor
      · rintro (h | ⟨rows, hrows, h | ⟨spawner, hentry, h | ⟨exits, hexits, h | ⟨grid, hgrid,
          h | ⟨requiredSaved, hrequired, h⟩⟩⟩⟩⟩)
        · exact h.elim
        · exact .entry hrows h
        · exact .exits hrows hentry h
        · exact .cells hrows hentry hexits h
        · exact .requiredSaved hrows hentry hexits hgrid h
        · exact .maxTicks hrows hentry hexits hgrid hrequired h
      · intro h
        cases h with
        | noObject h =>
          rw [hobject] at h
          cases h
        | entry hrows h => exact .inr ⟨_, hrows, .inl h⟩
        | exits hrows hentry h => exact .inr ⟨_, hrows, .inr ⟨_, hentry, .inl h⟩⟩
        | cells hrows hentry hexits h =>
          exact .inr ⟨_, hrows, .inr ⟨_, hentry, .inr ⟨_, hexits, .inl h⟩⟩⟩
        | requiredSaved hrows hentry hexits hgrid h =>
          exact .inr ⟨_, hrows, .inr ⟨_, hentry, .inr ⟨_, hexits, .inr ⟨_, hgrid, .inl h⟩⟩⟩⟩
        | maxTicks hrows hentry hexits hgrid hrequired h =>
          exact .inr ⟨_, hrows, .inr ⟨_, hentry, .inr ⟨_, hexits, .inr ⟨_, hgrid,
            .inr ⟨_, hrequired, h⟩⟩⟩⟩⟩
  | false =>
    have hfault : ofJson v = .error (.noObject v.kind) := by
      cases v with
      | obj members => cases hobject
      | null | bool b | int n | real x | str text | arr items => rfl
    rw [hfault]
    refine (Reads.error _).congr (fun level => ⟨False.elim, fun h => ?_⟩)
      ⟨fun _ => .noObject hobject, fun _ => rfl⟩
    obtain ⟨rows, hrows, -⟩ := h.grid
    have hlist := hrows.list
    rw [Json.getD_of_not_isObject hobject] at hlist
    cases hlist

/-- **The reader accepts just the format.**  It returns a level for a value exactly if the value spells that
level.  Any other value is refused, except one at which the reader stumbles: its first fault is that members
are asked of something that is no object, or that a number is infinite. -/
theorem ofJson_format (v : Json) :
    (∀ level, ofJson v = .ok level ↔ SpellsLevel v level) ∧
      ((∃ fault, ofJson v = .error fault ∧ fault.isRefusal = true) ↔
        (¬ ∃ level, SpellsLevel v level) ∧ ¬ Stumbles v) ∧
      ((∃ fault, ofJson v = .error fault ∧ fault.isRefusal = false) ↔ Stumbles v) :=
  ⟨(ofJson_reads v).ok, (ofJson_reads v).refusal_iff, (ofJson_reads v).stumbles⟩

/-- A level whose spawner is a number. -/
def oddSpawner : Json := .obj [("grid", .arr [.arr [.int 0]]), ("spawner", .int 5)]

/-- It is no level and is not refused either. -/
theorem not_refused_oddSpawner :
    ¬ ((∃ level, ofJson oddSpawner = .ok level) ∨
      ∃ fault, ofJson oddSpawner = .error fault ∧ fault.isRefusal = true) := by
  rintro (⟨level, h⟩ | ⟨fault, h, hrefusal⟩)
  · cases h
  · cases h
    cases hrefusal

end Level

end RobotPuzzle
