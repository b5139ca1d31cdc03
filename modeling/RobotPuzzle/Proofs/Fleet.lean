/-
  The rafts of a run and the raft tiles that show them.

  1. **Sound rafts** — a raft lies at a stop of its route, no stop comes up twice, the stop it will return
     to is one of them, and the board holds a tile for every stop (`Raft.Sound`).  So a raft that sails
     goes to another cell, and the cells that change are cells of the board (`Raft.Turn.sails`).
  2. **Agreement** — the raft tiles on display and the cells of the rafts.  In the middle of a ferry step
     the display is the board under the changes made so far, and the cells are the new ones of the
     rafts that have had their turn and the old ones of those to come.
  3. **Clear waters** — a raft that sails to a cell where no raft lies keeps the agreement
     (`Agrees.sail`).  A raft that sails to another raft's cell blurs that cell, and it stays blurred to
     the end of the step: either both rafts still lie there, or one of them has left and has taken the
     tile away (`Blurred.sail`).
  4. **Runs** — a ferry step looks at robots and never at rafts that rest, so both happen.  A run shows its
     rafts in all its states exactly if its waters are clear in all its ticks
     (`raftsShown_iff_clear`).

  The crux is the third point, in the direction that says when the agreement is lost.  It is not enough
  that a raft which sails to another raft's cell spoils the agreement at that moment: a later raft might
  set it right by chance.  So the loss is pinned to one cell of a raft that has had its turn (`Blurred`).
  Such a raft does not move again in this step, and whatever the others do there makes the count of rafts
  on the cell and the tile on display fall apart for good.

  `Clear` is a condition on two fleets, that before a tick and that after it, and does not mention tiles.
  So the theorem tells when the picture is right by looking at the rafts only.  For one raft there is
  nothing to be checked.
-/
import RobotPuzzle.Proofs.Board
import RobotPuzzle.Proofs.Reach

namespace RobotPuzzle

/-! ## Sound rafts

  A raft is sound against the rows of a board, and only their shape matters: which cells there are, not
  which tiles they hold.  That a stop does not come up twice is what makes a raft that sails go somewhere
  else. -/

/-- What holds of a raft at any time; the rows are those of the board. -/
structure Raft.Sound (rows : List (List Tile)) (raft : Raft) : Prop where
  /-- no stop is twice on the route -/
  route : raft.route.Nodup
  /-- every stop is on the board -/
  stored : ∀ c ∈ raft.route, (Grid.storedIn rows c).isSome = true
  /-- the raft lies at the stop of its dock -/
  moored : ∃ i : Nat, raft.dock = i ∧ raft.route[i]? = some raft.cell
  /-- what it remembers is a stop -/
  back : ∀ b, raft.back = some b → ∃ i : Nat, b = i ∧ i < raft.route.length

namespace Raft

/-- A stop by its number, where the number is a natural one. -/
theorem stop?_natCast (raft : Raft) (i : Nat) : raft.stop? i = raft.route[i]? := by
  rw [stop?, placeOf?, if_pos (by omega)]
  split
  · rfl
  · rename_i hi
    rw [List.getElem?_eq_none (by omega)]
    rfl

theorem Sound.cell_mem {rows : List (List Tile)} {raft : Raft} (h : raft.Sound rows) :
    raft.cell ∈ raft.route := by
  obtain ⟨i, -, hi⟩ := h.moored
  exact List.mem_of_getElem? hi

/-- Another stop of the route is another cell. -/
theorem Sound.stop_ne {rows : List (List Tile)} {raft : Raft} {i : Nat} {there : Cell}
    (h : raft.Sound rows) (hi : raft.route[i]? = some there) (hne : (i : Int) ≠ raft.dock) :
    there ≠ raft.cell := by
  rintro rfl
  obtain ⟨j, hj, hcell⟩ := h.moored
  obtain ⟨hilt, hi⟩ := List.getElem?_eq_some_iff.1 hi
  obtain ⟨hjlt, hcell⟩ := List.getElem?_eq_some_iff.1 hcell
  have hij : i = j := (h.route.getElem_inj_iff).1 (hi.trans hcell.symm)
  exact hne (by omega)

/-- Where there are two stops at least, the next one is another cell. -/
theorem Sound.next_ne {rows : List (List Tile)} {raft : Raft} {there : Cell} (h : raft.Sound rows)
    (hlen : 2 ≤ raft.route.length)
    (hstop : raft.stop? ((raft.dock + 1) % raft.route.length) = some there) : there ≠ raft.cell := by
  obtain ⟨i, hi, hcell⟩ := h.moored
  have hlt : i < raft.route.length := (List.getElem?_eq_some_iff.1 hcell).1
  have hnext : (raft.dock + 1) % raft.route.length = ((i + 1) % raft.route.length : Nat) := by
    rw [hi]
    rfl
  have hnelt : (i + 1) % raft.route.length ≠ i := by
    rcases Nat.lt_or_ge (i + 1) raft.route.length with hin | hout
    · rw [Nat.mod_eq_of_lt hin]
      omega
    · rw [show i + 1 = raft.route.length by omega, Nat.mod_self]
      omega
  rw [hnext, stop?_natCast] at hstop
  exact h.stop_ne hstop (by omega)

/-- The board stays a board under the rafts' feet: only which tiles it holds may differ. -/
theorem Sound.of_stored {rows painted : List (List Tile)} {raft : Raft} (h : raft.Sound rows)
    (hp : ∀ c, (Grid.storedIn rows c).isSome = true → (Grid.storedIn painted c).isSome = true) :
    raft.Sound painted :=
  ⟨h.route, fun c hc => hp c (h.stored c hc), h.moored, h.back⟩

/-- A turn keeps a raft sound.  Either it changes no tile and the raft stays, or the raft goes to another
cell and takes its tile with it, leaving behind what is no raft. -/
theorem Turn.sails {rows : List (List Tile)} {jetties : List Cell} {h h' : Harbour}
    {raft raft' : Raft} (hs : raft.Sound rows) (ht : raft.Turn jetties h h' raft') :
    raft'.Sound rows ∧ ((h'.changes = h.changes ∧ raft'.cell = raft.cell) ∨
      (raft'.cell ≠ raft.cell ∧ ∃ left, left ≠ Tile.raft ∧
        h'.changes = (h.changes.put raft.cell left).put raft'.cell .raft)) := by
  -- neither of the two tiles that a raft leaves behind is a raft
  have hleft : (if raft.cell ∈ jetties then Tile.jetty else Tile.water) ≠ .raft := by
    split
    · exact Tile.noConfusion
    · exact Tile.noConfusion
  obtain ⟨i, hi, hcell⟩ := hs.moored
  have hlt : i < raft.route.length := (List.getElem?_eq_some_iff.1 hcell).1
  cases ht with
  | stay => exact ⟨hs, Or.inl ⟨rfl, rfl⟩⟩
  | @carry there hlen _ hstop _ =>
    -- the next stop of a route with two stops at least is another one
    have hne := hs.next_ne hlen hstop
    have hnext : (raft.dock + 1) % raft.route.length = ((i + 1) % raft.route.length : Nat) := by
      rw [hi]
      rfl
    rw [hnext, stop?_natCast] at hstop
    refine ⟨⟨hs.route, hs.stored, ⟨_, hnext, hstop⟩, ?_⟩, Or.inr ⟨hne, _, hleft, rfl⟩⟩
    rintro b hb
    cases hb
    exact ⟨i, hi, hlt⟩
  | @home back there hlen _ hback hdock hstop _ =>
    obtain ⟨j, rfl, -⟩ := hs.back back hback
    rw [stop?_natCast] at hstop
    refine ⟨⟨hs.route, hs.stored, ⟨j, rfl, hstop⟩, ?_⟩, Or.inr ⟨?_, _, hleft, rfl⟩⟩
    · rintro b hb
      cases hb
    · -- it goes back to a stop that is not the one where it lies
      exact hs.stop_ne hstop hdock

end Raft

/-! ## The display

  Painting happens once, at the end of a ferry step, so in the middle of it the rows still hold the old
  tiles.  The display is what they would hold if the changes were painted now; at the end it is what is
  painted. -/

namespace Grid

/-- The tile on display for a cell: the changed one, or else the one that the rows hold. -/
def display (rows : List (List Tile)) (changes : Changes) (c : Cell) : Option Tile :=
  (changes.tileFor c).or (storedIn rows c)

/-- A change is on display at its cell and nowhere else, whatever was changed before. -/
theorem display_put (rows : List (List Tile)) (changes : Changes) (c d : Cell) (t : Tile) :
    display rows (changes.put c t) d = if c = d then some t else display rows changes d := by
  rw [display, Changes.tileFor_put]
  split
  · rfl
  · rfl

/-- A raft that sails from `here` to `there` changes the display of these two cells. -/
theorem display_sail (rows : List (List Tile)) (jetties : List Cell) (h : Harbour)
    (here there c : Cell) : display rows (h.sail jetties here there).changes c =
      if there = c then some .raft
      else if here = c then some (if here ∈ jetties then .jetty else .water)
      else display rows h.changes c := by
  unfold Harbour.sail
  rw [display_put, display_put]

/-- Changes that can be painted: no cell twice, and all on the board. -/
structure Changes.Paintable (rows : List (List Tile)) (changes : Changes) : Prop where
  /-- no cell is changed twice -/
  nodup : (changes.map Prod.fst).Nodup
  /-- every cell has a tile to be painted over -/
  stored : ∀ c ∈ changes.map Prod.fst, (storedIn rows c).isSome = true

/-- One more change on the board can be painted as well; one at a cell that has been changed replaces it.
-/
theorem Changes.Paintable.put {rows : List (List Tile)} {changes : Changes} {c : Cell} {t : Tile}
    (h : changes.Paintable rows) (hc : (storedIn rows c).isSome = true) :
    (changes.put c t).Paintable rows := by
  refine ⟨keys_put_nodup h.nodup, fun d hd => ?_⟩
  rcases mem_keys_put.1 hd with rfl | hd
  · exact hc
  · exact h.stored d hd

end Grid

/-! ## One turn

  The cells of the rafts come in two lists, of those that have had their turn and of those to come, so
  that the raft in turn stands between them.  Everything here is about lists of cells and a display; rafts
  and harbours come back with `Turn.display`. -/

/-- The raft tiles on display are the cells of the rafts, and these are distinct. -/
structure Agrees (display : Cell → Option Tile) (cells : List Cell) : Prop where
  /-- no two rafts lie on one cell -/
  nodup : cells.Nodup
  /-- a raft tile is where one of them lies -/
  marked : ∀ c, display c = some .raft ↔ c ∈ cells

/-- A cell of a raft that has had its turn is blurred: another raft lies there as well, or no raft is on
display there. -/
def Blurred (display : Cell → Option Tile) (done todo : List Cell) (c : Cell) : Prop :=
  c ∈ done ∧ (2 ≤ (done ++ todo).count c ∨ display c ≠ some .raft)

/-- Where a cell is blurred there is no agreement: either two rafts lie there, or the raft that lies there
is not on display. -/
theorem Blurred.not_agrees {display : Cell → Option Tile} {done todo : List Cell} {c : Cell}
    (h : Blurred display done todo c) : ¬ Agrees display (done ++ todo) := by
  intro ha
  obtain ⟨hc, htwice | hgone⟩ := h
  · have := List.nodup_iff_count_le_one.1 ha.nodup c
    omega
  · exact hgone ((ha.marked c).2 (List.mem_append_left _ hc))

/-- The display after a raft has gone from one cell to another and left that tile behind. -/
def sailed (display : Cell → Option Tile) (here there : Cell) (left : Tile) (c : Cell) : Option Tile :=
  if there = c then some .raft else if here = c then some left else display c

section Turn

variable {display : Cell → Option Tile} {here there : Cell} {left : Tile} {done todo : List Cell}

/-- A raft tile is only where a raft lies.  This direction survives every sailing, even one onto another
raft. -/
theorem mem_of_sailed (hleft : left ≠ .raft)
    (h : ∀ c, display c = some .raft → c ∈ done ++ here :: todo) (c : Cell)
    (hc : sailed display here there left c = some .raft) : c ∈ done ++ there :: todo := by
  unfold sailed at hc
  rw [List.perm_middle.mem_iff]
  split at hc
  · rename_i hthere
    exact List.mem_cons.2 (Or.inl hthere.symm)
  · split at hc
    · exact absurd (Option.some.inj hc) hleft
    · rename_i hhere
      rcases List.mem_cons.1 (List.perm_middle.mem_iff.1 (h c hc)) with rfl | hmem
      · exact absurd rfl hhere
      · exact List.mem_cons_of_mem _ hmem

/-- A raft that sails where no raft lies keeps the agreement: its own cell loses the tile, the new one
gets it, and no other raft is concerned. -/
theorem Agrees.sail (h : Agrees display (done ++ here :: todo)) (hleft : left ≠ .raft)
    (hclear : there ∉ done ++ here :: todo) :
    Agrees (sailed display here there left) (done ++ there :: todo) := by
  have hcons := List.nodup_cons.1 (List.nodup_middle.1 h.nodup)
  have hothers : there ∉ done ++ todo := fun hmem =>
    hclear (List.perm_middle.mem_iff.2 (List.mem_cons_of_mem _ hmem))
  refine ⟨List.nodup_middle.2 (List.nodup_cons.2 ⟨hothers, hcons.2⟩), fun c => ⟨?_, fun hc => ?_⟩⟩
  · exact mem_of_sailed hleft (fun d => (h.marked d).1) c
  · unfold sailed
    rcases List.mem_cons.1 (List.perm_middle.mem_iff.1 hc) with rfl | hc
    · -- the raft that has sailed
      rw [if_pos rfl]
    · -- any other raft lies at neither of the two cells
      have hthere : there ≠ c := by
        rintro rfl
        exact hothers hc
      have hhere : here ≠ c := by
        rintro rfl
        exact hcons.1 hc
      rw [if_neg hthere, if_neg hhere]
      exact (h.marked c).2 (List.perm_middle.mem_iff.2 (List.mem_cons_of_mem _ hc))

/-- A raft that sails to another raft's cell blurs it: both lie there now. -/
theorem blurred_of_sail (hne : there ≠ here) (hmem : there ∈ done ++ here :: todo) :
    Blurred (sailed display here there left) (done ++ [there]) todo there := by
  refine ⟨List.mem_append_right _ List.mem_cons_self, Or.inl ?_⟩
  have hothers : there ∈ done ++ todo :=
    (List.mem_cons.1 (List.perm_middle.mem_iff.1 hmem)).resolve_left hne
  have hone : 1 ≤ (done ++ todo).count there := List.one_le_count_iff.2 hothers
  rw [List.append_assoc, List.singleton_append, List.perm_middle.count_eq, List.count_cons_self]
  omega

/-- A raft that stays joins those that have had their turn, and changes nothing. -/
theorem Blurred.stay {c d : Cell} (h : Blurred display done (c :: todo) d) :
    Blurred display (done ++ [c]) todo d := by
  refine ⟨List.mem_append_left _ h.1, ?_⟩
  rw [List.append_assoc]
  exact h.2

/-- A blurred cell stays blurred when another raft sails: a raft that comes is one more, and a raft that
goes takes the tile away. -/
theorem Blurred.sail {c : Cell} (h : Blurred display done (here :: todo) c) (hleft : left ≠ .raft) :
    Blurred (sailed display here there left) (done ++ [there]) todo c := by
  obtain ⟨hc, hblur⟩ := h
  refine ⟨List.mem_append_left _ hc, ?_⟩
  rw [List.append_assoc, List.singleton_append, List.perm_middle.count_eq]
  rw [List.perm_middle.count_eq] at hblur
  unfold sailed
  by_cases hthere : there = c
  · -- the raft that has come and the one that was there
    subst hthere
    have hone : 1 ≤ (done ++ todo).count there :=
      List.one_le_count_iff.2 (List.mem_append_left _ hc)
    rw [List.count_cons_self]
    exact Or.inl (by omega)
  · rw [if_neg hthere, List.count_cons_of_ne hthere]
    by_cases hhere : here = c
    · rw [if_pos hhere]
      exact Or.inr fun he => hleft (Option.some.inj he)
    · rw [if_neg hhere]
      rw [List.count_cons_of_ne hhere] at hblur
      exact hblur

end Turn

namespace Raft

/-- What a turn does to the display: nothing, or it moves one raft tile. -/
theorem Turn.display {rows : List (List Tile)} {jetties : List Cell} {h h' : Harbour}
    {raft raft' : Raft} (hs : raft.Sound rows) (ht : raft.Turn jetties h h' raft') :
    (raft'.cell = raft.cell ∧ Grid.display rows h'.changes = Grid.display rows h.changes) ∨
      (raft'.cell ≠ raft.cell ∧ ∃ left, left ≠ Tile.raft ∧
        Grid.display rows h'.changes
          = sailed (Grid.display rows h.changes) raft.cell raft'.cell left) := by
  rcases (ht.sails hs).2 with ⟨hchanges, hcell⟩ | ⟨hcell, left, hleft, hchanges⟩
  · exact Or.inl ⟨hcell, by rw [hchanges]⟩
  · refine Or.inr ⟨hcell, left, hleft, funext fun c => ?_⟩
    rw [hchanges, Grid.display_put, Grid.display_put, sailed]

/-- The two cells that a turn changes are stops of a sound raft, so they are on the board. -/
theorem Turn.paintable {rows : List (List Tile)} {jetties : List Cell} {h h' : Harbour}
    {raft raft' : Raft} (hs : raft.Sound rows) (ht : raft.Turn jetties h h' raft')
    (hp : h.changes.Paintable rows) : h'.changes.Paintable rows := by
  obtain ⟨hs', ⟨hchanges, -⟩ | ⟨-, left, -, hchanges⟩⟩ := ht.sails hs
  · rw [hchanges]
    exact hp
  · rw [hchanges]
    refine (hp.put (hs.stored _ hs.cell_mem)).put ?_
    exact hs'.stored _ hs'.cell_mem

/-! ## All turns

  `ferryAll_display` is the induction along the rafts, once and for any property of display and cells.  It
  is used three times: for raft tiles under rafts, for the agreement, and for blurred cells. -/

section Turns

variable {rows : List (List Tile)} {jetties : List Cell}

/-- What a raft that stays and a raft that sails both keep, all turns together keep.  The two lists are
the cells of the rafts that have had their turn, and of those to come. -/
theorem ferryAll_display {P : (Cell → Option Tile) → List Cell → List Cell → Prop}
    (hstay : ∀ {d done c todo}, P d done (c :: todo) → P d (done ++ [c]) todo)
    (hsail : ∀ {d done here there left todo}, left ≠ Tile.raft → P d done (here :: todo) →
      P (sailed d here there left) (done ++ [there]) todo) :
    ∀ {rafts rafts' : List Raft} {done : List Cell} {h h' : Harbour},
      (∀ raft ∈ rafts, raft.Sound rows) → ferryAll jetties h rafts = .ok (h', rafts') →
      P (Grid.display rows h.changes) done (rafts.map Raft.cell) →
      P (Grid.display rows h'.changes) (done ++ rafts'.map Raft.cell) [] := by
  intro rafts
  induction rafts with
  | nil =>
    intro rafts' done h h' _ hf hP
    cases hf
    rw [List.map_nil, List.append_nil]
    exact hP
  | cons raft rest ih =>
    intro rafts' done h h' hs hf hP
    obtain ⟨mid, raft', others, hone, hrest, rfl⟩ := ferryAll_cons_cases hf
    -- the first raft stays or sails, and its cell goes over to those that have had their turn
    have hmid : P (Grid.display rows mid.changes) (done ++ [raft'.cell]) (rest.map Raft.cell) := by
      rcases hone.display (hs raft List.mem_cons_self) with ⟨hcell, hd⟩ | ⟨-, left, hleft, hd⟩
      · rw [hcell, hd]
        exact hstay hP
      · rw [hd]
        exact hsail hleft hP
    have hlast := ih (fun r hr => hs r (List.mem_cons_of_mem _ hr)) hrest hmid
    rwa [List.append_assoc] at hlast

/-- After all turns, a raft tile is only where a raft lies. -/
theorem mem_of_ferryAll {rafts rafts' : List Raft} {h h' : Harbour}
    (hs : ∀ raft ∈ rafts, raft.Sound rows) (hf : ferryAll jetties h rafts = .ok (h', rafts'))
    (hm : ∀ c, Grid.display rows h.changes c = some .raft → c ∈ rafts.map Raft.cell) :
    ∀ c, Grid.display rows h'.changes c = some .raft → c ∈ rafts'.map Raft.cell := by
  have hstart : ∀ c, Grid.display rows h.changes c = some .raft →
      c ∈ [] ++ rafts.map Raft.cell := hm
  have hlast := ferryAll_display
    (P := fun d done todo => ∀ c, d c = some Tile.raft → c ∈ done ++ todo)
    (fun hm c hc => by rw [List.append_assoc]; exact hm c hc)
    (fun hleft hm c hc => by rw [List.append_assoc]; exact mem_of_sailed hleft hm c hc) hs hf hstart
  intro c hc
  have hmem := hlast c hc
  rwa [List.append_nil] at hmem

/-- Each raft in turn either stays or sails to a cell where no raft lies at that moment. -/
def Clear : List Cell → List Raft → List Raft → Prop
  | done, raft :: rest, raft' :: rest' =>
    (raft'.cell = raft.cell ∨ raft'.cell ∉ done ++ (raft :: rest).map Raft.cell) ∧
      Clear (done ++ [raft'.cell]) rest rest'
  | _, _, _ => True

theorem clear_refl : ∀ (rafts : List Raft) (done : List Cell), Clear done rafts rafts := by
  intro rafts
  induction rafts with
  | nil => intro done; exact trivial
  | cons raft rest ih => intro done; exact ⟨Or.inl rfl, ih _⟩

/-- With a single raft the waters are clear. -/
theorem clear_of_length_le_one {rafts rafts' : List Raft} (h : rafts.length ≤ 1) :
    Clear [] rafts rafts' := by
  match rafts, rafts', h with
  | [], _, _ => exact trivial
  | [raft], [], _ => exact trivial
  | [raft], raft' :: rest', _ =>
    refine ⟨?_, trivial⟩
    by_cases hc : raft'.cell = raft.cell
    · exact Or.inl hc
    · exact Or.inr (by simpa using hc)

/-- The turns of a ferry step keep the agreement exactly if the waters are clear.  As long as every raft
stays or sails to a free cell the agreement goes on; the first one that does otherwise blurs a cell, and
that cell is still blurred at the end. -/
theorem ferryAll_agrees_iff :
    ∀ {rafts rafts' : List Raft} {done : List Cell} {h h' : Harbour},
      (∀ raft ∈ rafts, raft.Sound rows) → ferryAll jetties h rafts = .ok (h', rafts') →
      Agrees (Grid.display rows h.changes) (done ++ rafts.map Raft.cell) →
      (Agrees (Grid.display rows h'.changes) (done ++ rafts'.map Raft.cell) ↔
        Clear done rafts rafts') := by
  intro rafts
  induction rafts with
  | nil =>
    intro rafts' done h h' _ hf ha
    cases hf
    exact ⟨fun _ => trivial, fun _ => ha⟩
  | cons raft rest ih =>
    intro rafts' done h h' hs hf ha
    obtain ⟨mid, raft', others, hone, hrest, rfl⟩ := ferryAll_cons_cases hf
    have hs' : ∀ r ∈ rest, r.Sound rows := fun r hr => hs r (List.mem_cons_of_mem _ hr)
    -- a turn that has kept the agreement leaves the question to the turns that follow
    have hkept : Agrees (Grid.display rows mid.changes)
          (done ++ raft'.cell :: rest.map Raft.cell) →
        (Agrees (Grid.display rows h'.changes) (done ++ (raft' :: others).map Raft.cell) ↔
          Clear (done ++ [raft'.cell]) rest others) := by
      intro hmid
      rw [List.map_cons, List.append_cons]
      refine ih hs' hrest ?_
      rwa [← List.append_cons]
    rcases hone.display (hs raft List.mem_cons_self) with ⟨hcell, hd⟩ | ⟨hne, left, hleft, hd⟩
    · -- the raft has stayed
      rw [hkept (by rw [hd, hcell]; exact ha)]
      exact ⟨fun hrest => ⟨Or.inl hcell, hrest⟩, fun hall => hall.2⟩
    · by_cases hclear : raft'.cell ∉ done ++ (raft :: rest).map Raft.cell
      · rw [hkept (by rw [hd]; exact ha.sail hleft hclear)]
        exact ⟨fun hrest => ⟨Or.inr hclear, hrest⟩, fun hall => hall.2⟩
      · -- the raft has sailed to another raft's cell, and none of the turns to come undoes that
        have hblur : Blurred (Grid.display rows mid.changes) (done ++ [raft'.cell])
            (rest.map Raft.cell) raft'.cell := by
          rw [hd]
          exact blurred_of_sail hne (not_not.1 hclear)
        have hlast := ferryAll_display
          (P := fun d done todo => Blurred d done todo raft'.cell)
          (fun hb => hb.stay) (fun hleft hb => hb.sail hleft) hs' hrest hblur
        constructor
        · intro hagrees
          refine absurd ?_ hlast.not_agrees
          rwa [List.append_nil, ← List.append_cons]
        · rintro ⟨hsame | hfree, -⟩
          · exact absurd hsame hne
          · exact absurd hfree hclear

end Turns

end Raft

/-! ## The ferry step -/

/-- After all turns the rafts are sound, and the changes can be painted. -/
theorem Raft.ferryAll_paintable {rows : List (List Tile)} {jetties : List Cell} {robots : List Robot}
    {rafts rafts' : List Raft} {h : Harbour} (hs : ∀ raft ∈ rafts, raft.Sound rows)
    (hall : Raft.ferryAll jetties (.before robots) rafts = .ok (h, rafts')) :
    h.changes.Paintable rows ∧ ∀ raft ∈ rafts', raft.Sound rows := by
  have hturn : ∀ {h h' : Harbour} {raft raft' : Raft}, h.changes.Paintable rows →
      raft.Sound rows → raft.Turn jetties h h' raft' →
      h'.changes.Paintable rows ∧ raft'.Sound rows :=
    fun hp hs ht => ⟨ht.paintable hs hp, (ht.sails hs).1⟩
  have hnone : (Harbour.before robots).changes.Paintable rows :=
    ⟨List.nodup_nil, fun c hc => nomatch hc⟩
  exact Raft.ferryAll_invariant hturn hall hnone hs

/-- The ferry step keeps the rafts sound and every raft tile under a raft, and it keeps the agreement
exactly if the waters are clear. -/
theorem ferry_display {grid grid' : Grid} {robots robots' : List Robot} {rafts rafts' : List Raft}
    {jetties : List Cell} (hs : ∀ raft ∈ rafts, raft.Sound grid.rows)
    (hf : ferry grid robots rafts jetties = .ok (grid', robots', rafts')) :
    (∀ raft ∈ rafts', raft.Sound grid'.rows) ∧
      ((∀ c, Grid.storedIn grid.rows c = some .raft → c ∈ rafts.map Raft.cell) →
        ∀ c, Grid.storedIn grid'.rows c = some .raft → c ∈ rafts'.map Raft.cell) ∧
      (Agrees (Grid.storedIn grid.rows) (rafts.map Raft.cell) →
        (Agrees (Grid.storedIn grid'.rows) (rafts'.map Raft.cell) ↔ Raft.Clear [] rafts rafts')) := by
  obtain ⟨h, hall, hpaint, -⟩ := ferry_cases hf
  obtain ⟨hp, hsound⟩ := Raft.ferryAll_paintable hs hall
  -- after the painting the rows hold what was on display
  have hpainted : Grid.storedIn grid'.rows = Grid.display grid.rows h.changes :=
    funext fun c => Grid.storedIn_paint hp.nodup hp.stored hpaint c
  refine ⟨fun raft hr => (hsound raft hr).of_stored fun c hc => ?_, ?_, ?_⟩
  · rw [hpainted, Grid.display, Option.isSome_or, hc, Bool.or_true]
  · rw [hpainted]
    exact Raft.mem_of_ferryAll hs hall
  · intro ha
    have hstart : Agrees (Grid.display grid.rows (Harbour.before robots).changes)
        ([] ++ rafts.map Raft.cell) := ha
    rw [hpainted]
    exact Raft.ferryAll_agrees_iff hs hall hstart

namespace Simulation

/-! ## Runs

  What has been shown of a ferry step is lifted to ticks and to replays.  Actions, entry and exits change
  no tile and no raft, and a state that is not running changes nothing. -/

/-- The rafts are shown: they lie on pairwise distinct cells, and these are the cells of the board with a
raft tile. -/
def RaftsShown (s : State) : Prop :=
  (s.rafts.map Raft.cell).Nodup ∧
    ∀ c, c ∈ s.grid.cellsOf (· == .raft) ↔ c ∈ s.rafts.map Raft.cell

/-- The list of raft tiles on the board has the same cells as the stored tiles that are rafts. -/
theorem raftsShown_iff_agrees {s : State} :
    RaftsShown s ↔ Agrees (Grid.storedIn s.grid.rows) (s.rafts.map Raft.cell) := by
  constructor
  · rintro ⟨hnodup, hmarked⟩
    exact ⟨hnodup, fun c => Grid.mem_tiles.symm.trans (hmarked c)⟩
  · rintro ⟨hnodup, hmarked⟩
    exact ⟨hnodup, fun c => Grid.mem_tiles.trans (hmarked c)⟩

/-- What every state of a run has: sound rafts, and raft tiles only where rafts lie. -/
structure Afloat (s : State) : Prop where
  /-- every raft is sound -/
  sound : ∀ raft ∈ s.rafts, raft.Sound s.grid.rows
  /-- every raft tile has a raft -/
  tiles : ∀ c ∈ s.grid.cellsOf (· == .raft), c ∈ s.rafts.map Raft.cell

/-- A tick is one ferry step as far as rafts and tiles go. -/
theorem afloat_tick {s t : State} {actions : List (Option Action)} (hs : Afloat s)
    (h : tick s actions = .ok t) :
    Afloat t ∧ (RaftsShown s → (RaftsShown t ↔ Raft.Clear [] s.rafts t.rafts)) := by
  rcases tick_cases h with ⟨-, rfl⟩ | ⟨-, entry, grid, ferried, rafts, -, hferry, rfl⟩
  · exact ⟨hs, fun hshown => ⟨fun _ => Raft.clear_refl _ _, fun _ => hshown⟩⟩
  · obtain ⟨hsound, htiles, hagrees⟩ := ferry_display hs.sound hferry
    refine ⟨⟨hsound, fun c hc => ?_⟩, fun hshown => ?_⟩
    · refine htiles (fun d hd => hs.tiles d (Grid.mem_tiles.2 hd)) c ?_
      exact Grid.mem_tiles.1 hc
    · rw [raftsShown_iff_agrees]
      exact hagrees (raftsShown_iff_agrees.1 hshown)

/-- A raft that is made on its tile lies at the first stop of its route.  The other stops are the jetties
in some order, and its own cell is no jetty, so no stop comes up twice. -/
theorem sound_buildRoute {grid : Grid} {c : Cell} (hc : c ∈ grid.cellsOf (· == .raft)) :
    Raft.Sound grid.rows { cell := c, route := buildRoute c (grid.cellsOf (· == .jetty)) } := by
  have hperm := buildRoute_perm c (grid.cellsOf (· == .jetty))
  refine ⟨?_, fun d hd => ?_, ⟨0, rfl, rfl⟩, fun b hb => nomatch hb⟩
  · rw [hperm.nodup_iff, List.nodup_cons]
    refine ⟨fun hmem => ?_, (Grid.cellsOf_nodup _ grid).filter _⟩
    simpa using (List.mem_filter.1 hmem).2
  · rcases List.mem_cons.1 (hperm.mem_iff.1 hd) with rfl | hd
    · obtain ⟨t, ht, -⟩ := Grid.mem_cellsOf.1 hc
      rw [ht]
      rfl
    · obtain ⟨t, ht, -⟩ := Grid.mem_cellsOf.1 (List.mem_filter.1 hd).1
      rw [ht]
      rfl

/-- At the start there is a raft on every raft tile, and none elsewhere. -/
theorem afloat_start {grid : Grid} {spawner : Spawner} {exits : List Cell}
    {maxSteps requiredSaved : Int} {s : State}
    (h : start grid spawner exits maxSteps requiredSaved = .ok s) : Afloat s ∧ RaftsShown s := by
  obtain ⟨entered, hs⟩ := start_cases h
  -- the rafts are made from the raft tiles, one for each
  have hcells : s.rafts.map Raft.cell = s.grid.cellsOf (· == .raft) := by
    rw [hs.state]
    show (initialRafts grid _).map Raft.cell = _
    rw [initialRafts, List.map_map]
    exact List.map_id _
  refine ⟨⟨fun raft hr => ?_, fun c hc => ?_⟩, ?_, fun c => ?_⟩
  · rw [hs.state] at hr ⊢
    obtain ⟨c, hc, rfl⟩ := List.mem_map.1 hr
    exact sound_buildRoute hc
  · rw [hcells]
    exact hc
  · rw [hcells]
    exact Grid.cellsOf_nodup _ _
  · rw [hcells]

/-- So every state of a replay has sound rafts, and raft tiles only under them. -/
theorem afloat_statesAfter {log : List Orders} {s : State} {states : List State} (hs : Afloat s)
    (h : statesAfter s log = .ok states) : ∀ t ∈ states, Afloat t := fun _ ht =>
  (Reaches.of_statesAfter h ht).invariant (P := Afloat) (fun hs h => (afloat_tick hs h).1) hs

/-- From a state that shows its rafts, all states show them exactly if every tick has clear waters.  By
induction on the orders: a tick from a state that shows them either has clear waters and leaves one that
does, or it ends the matter. -/
theorem shown_statesAfter_iff :
    ∀ {log : List Orders} {s : State} {states : List State}, Afloat s → RaftsShown s →
      statesAfter s log = .ok states →
      ((∀ t ∈ s :: states, RaftsShown t) ↔
        List.IsChain (fun t u => Raft.Clear [] t.rafts u.rafts) (s :: states)) := by
  intro log
  induction log with
  | nil =>
    intro s states _ hshown h
    cases h
    exact ⟨fun _ => .singleton s, fun _ => List.forall_mem_singleton.2 hshown⟩
  | cons orders rest ih =>
    intro s states hs hshown h
    obtain ⟨u, others, hu, hothers, rfl⟩ := statesAfter_cons_cases h
    obtain ⟨hafloat, hiff⟩ := afloat_tick hs hu
    rw [List.isChain_cons_cons]
    constructor
    · intro hall
      -- the first state shows its rafts, so that the tick to the second one can be judged
      have hu' : RaftsShown u := hall u (List.mem_cons_of_mem _ List.mem_cons_self)
      refine ⟨(hiff hshown).1 hu', (ih hafloat hu' hothers).1 fun t ht => ?_⟩
      exact hall t (List.mem_cons_of_mem _ ht)
    · rintro ⟨hclear, hchain⟩
      have hu' : RaftsShown u := (hiff hshown).2 hclear
      exact List.forall_mem_cons.2 ⟨hshown, (ih hafloat hu' hothers).2 hchain⟩

theorem tick_rafts_length {s t : State} {actions : List (Option Action)}
    (h : tick s actions = .ok t) : t.rafts.length = s.rafts.length := by
  rcases tick_cases h with ⟨-, rfl⟩ | ⟨-, entry, grid, ferried, rafts, -, hferry, rfl⟩
  · rfl
  · obtain ⟨h, hall, -, -⟩ := ferry_cases hferry
    exact Raft.ferryAll_length hall

/-- A single raft is shown in every state that ticks lead to. -/
theorem raftsShown_of_single {s t : State} (hs : Afloat s) (hshown : RaftsShown s)
    (hone : s.rafts.length ≤ 1) (ht : Reaches s t) : RaftsShown t := by
  have hstep : ∀ {t u : State} {actions : List (Option Action)},
      (Afloat t ∧ RaftsShown t ∧ t.rafts.length ≤ 1) → tick t actions = .ok u →
      Afloat u ∧ RaftsShown u ∧ u.rafts.length ≤ 1 := by
    rintro t u actions ⟨hafloat, hshown, hone⟩ hu
    obtain ⟨hafloat', hiff⟩ := afloat_tick hafloat hu
    refine ⟨hafloat', (hiff hshown).2 (Raft.clear_of_length_le_one hone), ?_⟩
    rw [tick_rafts_length hu]
    exact hone
  exact (ht.invariant hstep ⟨hs, hshown, hone⟩).2.1

/-- **Rafts and their tiles.**  In every state of every run a raft tile is only where a raft lies, and a
single raft is always shown.  In general the rafts are shown throughout exactly if in no tick a raft
sails to a cell where another raft lies. -/
theorem raftsShown_iff_clear {grid : Grid} {spawner : Spawner} {exits : List Cell}
    {maxSteps requiredSaved : Int} {s : State} {log : List Orders} {states : List State}
    (h : start grid spawner exits maxSteps requiredSaved = .ok s)
    (hrun : replay s log = .ok states) :
    (∀ t ∈ states, ∀ c ∈ t.grid.cellsOf (· == .raft), c ∈ t.rafts.map Raft.cell) ∧
      (s.rafts.length ≤ 1 → ∀ t ∈ states, RaftsShown t) ∧
      ((∀ t ∈ states, RaftsShown t) ↔
        List.IsChain (fun t u => Raft.Clear [] t.rafts u.rafts) states) := by
  obtain ⟨hafloat, hshown⟩ := afloat_start h
  unfold replay at hrun
  cases hafter : statesAfter s log with
  | error fault =>
    rw [hafter] at hrun
    cases hrun
  | ok after =>
    rw [hafter] at hrun
    cases hrun
    refine ⟨?_, fun hone => ?_, shown_statesAfter_iff hafloat hshown hafter⟩
    · exact List.forall_mem_cons.2 ⟨hafloat.tiles, fun t ht =>
        (afloat_statesAfter hafloat hafter t ht).tiles⟩
    · exact List.forall_mem_cons.2 ⟨hshown, fun t ht =>
        raftsShown_of_single hafloat hshown hone (Reaches.of_statesAfter hafter ht)⟩

/-- A robot walks onto a raft, which takes it to the jetty. -/
theorem raftsShown_crossing :
    ∃ s states last, start ⟨[[.empty, .raft, .jetty]]⟩ { pose := ⟨⟨0, 0⟩, 1⟩ } [] 9 1 = .ok s ∧
      replay s [[some .moveForward]] = .ok states ∧ last ∈ states ∧
      last.grid.toIds = [[0, 6, 7]] ∧ RaftsShown last := by
  obtain ⟨s, last, hs, hrun, hgrid, hone⟩ : ∃ s last,
      start ⟨[[.empty, .raft, .jetty]]⟩ { pose := ⟨⟨0, 0⟩, 1⟩ } [] 9 1 = .ok s ∧
      replay s [[some .moveForward]] = .ok [s, last] ∧ last.grid.toIds = [[0, 6, 7]] ∧
      s.rafts.length ≤ 1 := ⟨_, _, rfl, rfl, rfl, by decide⟩
  have hshown := (raftsShown_iff_clear hs hrun).2.1 hone
  exact ⟨s, [s, last], last, hs, hrun, by simp, hgrid, hshown last (by simp)⟩

/-- Two rafts beside a jetty.  A robot rides the eastern one to the jetty and walks onto the western one,
which sails to the jetty too.  There the eastern raft takes the robot over and goes back, and with it
goes the tile of the raft that stays. -/
theorem not_raftsShown_of_collision :
    ∃ s states t, start ⟨[[.raft, .jetty, .raft]]⟩ { pose := ⟨⟨2, 0⟩, 3⟩ } [] 9 1 = .ok s ∧
      replay s [[some .wait], [some .moveForward]] = .ok states ∧ t ∈ states ∧
      t.grid.toIds = [[6, 8, 7]] ∧ t.rafts.map Raft.cell = [⟨1, 0⟩, ⟨2, 0⟩] ∧ ¬ RaftsShown t := by
  obtain ⟨s, u, t, hs, hrun, hgrid, hrafts⟩ : ∃ s u t,
      start ⟨[[.raft, .jetty, .raft]]⟩ { pose := ⟨⟨2, 0⟩, 3⟩ } [] 9 1 = .ok s ∧
      replay s [[some .wait], [some .moveForward]] = .ok [s, u, t] ∧
      t.grid = ⟨[[.water, .jetty, .raft]]⟩ ∧ t.rafts.map Raft.cell = [⟨1, 0⟩, ⟨2, 0⟩] :=
    ⟨_, _, _, rfl, rfl, rfl, rfl⟩
  refine ⟨s, [s, u, t], t, hs, hrun, by simp, by rw [hgrid]; rfl, hrafts, fun hshown => ?_⟩
  have hmem : (⟨1, 0⟩ : Cell) ∈ t.grid.cellsOf (· == .raft) := by
    rw [hshown.2, hrafts]
    decide
  rw [hgrid] at hmem
  revert hmem
  decide

end Simulation

end RobotPuzzle
