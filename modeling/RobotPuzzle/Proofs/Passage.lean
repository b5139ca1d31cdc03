/-
  How far a ferry step takes a robot.

  1. **The haul** — a ferry step changes nothing of a robot but its cell, and the rafts say how: each raft
     that leaves with riders takes along whatever is on its cell at that moment (`Raft.ferryAll_robots`).
     Where no raft lies, nothing is moved (`Raft.haul_of_forall_ne`).
  2. **One stop** — a raft that leaves with riders goes on by one stop.  The rafts look out for robots and
     not for each other, so it may come to where a second raft lies, and that one takes the riders on in
     the same step: the two relay (`Raft.Relays`).
  3. **The only way** — without a relay nothing goes further than one stop (`Raft.oneStop_haul`).  A
     relay has riders, and what has been passed on never ends where one stop would have taken it
     (`Raft.haul_arrival`), since there is but one way from stop to stop.
  4. **Runs** — so in any tick of any run all robots travel by one stop at most exactly if no two rafts
     relay (`oneStop_iff`); and where no raft sails to another raft's cell, none do.

  The crux is the third point, the direction from where robots end to what rafts do.  That a robot has
  been passed on is not visible from where it ends, unless one knows that two stops in a row never lead
  where one would have led.  The routes make it so: they share all stops but the first, in one order, so a
  cell has one next stop, whichever raft leaves it.  And a raft that takes riders on has a blocking robot
  among them, which is the witness that the condition on robots speaks of.

  One stop a tick is what a rider may expect, and it holds in all clear waters.  The exact condition is
  about pairs of rafts in their order in the fleet: one that brings riders to a cell, and a later one that
  lies there and leaves with riders.  The theorem is about the ferry step of a tick, so it is stated with
  the robots before and behind that step.
-/
import Mathlib.Data.List.Zip
import RobotPuzzle.Proofs.Finished

namespace RobotPuzzle

namespace Raft

/-! ## The haul

  The same function as for finished robots, but here it is shown that nothing else of any robot changes;
  robots that block are carried like the others. -/

/-- Where no raft lies, nothing is moved. -/
theorem haul_of_forall_ne {rafts : List Raft} {c : Cell} (h : ∀ raft ∈ rafts, raft.cell ≠ c)
    (rafts' : List Raft) : haul rafts rafts' c = c := by
  induction rafts generalizing rafts' with
  | nil => cases rafts' <;> rfl
  | cons raft rest ih =>
    obtain ⟨hne, hrest⟩ := List.forall_mem_cons.1 h
    cases rafts' with
    | nil => rfl
    | cons raft' rest' => rw [haul, if_neg fun hhere => hne hhere.1, ih hrest]

/-- A turn changes nothing of the robots but the cells of those it takes along. -/
theorem Turn.robots {jetties : List Cell} {h h' : Harbour} {raft raft' : Raft}
    (ht : raft.Turn jetties h h' raft') :
    h'.robots = h.robots.map fun r => { r with
      cell := if raft.cell = r.cell ∧ raft'.back.isSome = true then raft'.cell else r.cell } := by
  cases ht with
  | stay =>
    refine (List.map_id'' (fun r => ?_) h.robots).symm
    split
    · rename_i hhere
      rw [hhere.1]
    · rfl
  | @carry there _ _ _ _ =>
    refine List.map_congr_left fun r _ => ?_
    -- only who is on the raft goes along
    by_cases hhere : r.cell = raft.cell
    · rw [if_pos hhere, if_pos ⟨hhere.symm, rfl⟩]
    · rw [if_neg hhere, if_neg fun h => hhere h.1.symm]
  | home _ _ _ _ _ _ =>
    refine (List.map_id'' (fun r => ?_) h.robots).symm
    -- a raft that has come home has nowhere to go back to, and came without riders
    rw [if_neg fun h => nomatch h.2]

/-- All turns together change nothing but cells, and haul those, by induction along the rafts. -/
theorem ferryAll_robots {jetties : List Cell} :
    ∀ {rafts rafts' : List Raft} {h h' : Harbour},
      ferryAll jetties h rafts = .ok (h', rafts') →
      h'.robots = h.robots.map fun r => { r with cell := haul rafts rafts' r.cell } := by
  intro rafts
  induction rafts with
  | nil =>
    intro rafts' h h' hf
    cases hf
    exact (List.map_id'' (fun r => rfl) h.robots).symm
  | cons raft rest ih =>
    intro rafts' h h' hf
    obtain ⟨mid, raft', others, hone, hrest, rfl⟩ := ferryAll_cons_cases hf
    rw [ih hrest, hone.robots, List.map_map]
    rfl

/-! ## One stop

  Rafts before and after the step are paired by their place in the list.  A relay is a pair of pairs, the
  first of which had its turn earlier. -/

/-- What lay on `here` lies there still; or it has gone on by one stop, with a raft that lay on `here` and
is now where it is. -/
def OneStop (rafts rafts' : List Raft) (here there : Cell) : Prop :=
  there = here ∨ ∃ p ∈ rafts.zip rafts', p.1.cell = here ∧
    p.1.stop? ((p.1.dock + 1) % p.1.route.length) = some there ∧ p.2.cell = there

instance (rafts rafts' : List Raft) (here there : Cell) : Decidable (OneStop rafts rafts' here there) :=
  inferInstanceAs (Decidable (there = here ∨ ∃ p ∈ rafts.zip rafts', p.1.cell = here ∧
    p.1.stop? ((p.1.dock + 1) % p.1.route.length) = some there ∧ p.2.cell = there))

/-- The raft has left its cell with riders; `raft'` is the raft after its turn. -/
def Leaves (raft raft' : Raft) : Prop := raft'.back.isSome = true ∧ raft'.cell ≠ raft.cell

/-- A raft leaves with riders for the cell where a second one lies, and the second one leaves with riders
too.  Of each raft there is what it was before its turn and after it. -/
structure Relays (p q : Raft × Raft) : Prop where
  /-- the first raft leaves with riders -/
  first : p.1.Leaves p.2
  /-- for the cell where the second one lies -/
  meets : q.1.cell = p.2.cell
  /-- which leaves with riders afterwards -/
  second : q.1.Leaves q.2

/-- One raft more in front does not matter for who is carried by one that comes later. -/
theorem OneStop.cons {rafts rafts' : List Raft} {here there : Cell} (raft raft' : Raft)
    (h : OneStop rafts rafts' here there) : OneStop (raft :: rafts) (raft' :: rafts') here there :=
  h.imp_right fun ⟨p, hp, hstop⟩ => ⟨p, List.mem_cons_of_mem _ hp, hstop⟩

/-- The stop that comes next, by its place on the route. -/
theorem Sound.next_iff {rows : List (List Tile)} {raft : Raft} {there : Cell} (h : raft.Sound rows) :
    raft.stop? ((raft.dock + 1) % raft.route.length) = some there ↔
      ∃ i : Nat, raft.route[i]? = some raft.cell ∧
        raft.route[(i + 1) % raft.route.length]? = some there := by
  obtain ⟨i, hi, hcell⟩ := h.moored
  have hnext : (raft.dock + 1) % raft.route.length = ((i + 1) % raft.route.length : Nat) := by
    rw [hi]
    rfl
  rw [hnext, stop?_natCast]
  refine ⟨fun hthere => ⟨i, hcell, hthere⟩, ?_⟩
  rintro ⟨j, hj, hthere⟩
  -- no stop comes up twice
  obtain ⟨hilt, hcell⟩ := List.getElem?_eq_some_iff.1 hcell
  obtain ⟨hjlt, hj⟩ := List.getElem?_eq_some_iff.1 hj
  rwa [h.route.getElem_inj_iff.1 (hcell.trans hj.symm)]

/-- A cell is spared exactly if no raft leaves it with riders. -/
theorem spares_iff {rafts rafts' : List Raft} {c : Cell} (hlength : rafts.length = rafts'.length) :
    Spares c rafts rafts' ↔ ∀ q ∈ rafts.zip rafts', q.1.cell = c → ¬ q.1.Leaves q.2 := by
  rw [Spares, List.forall₂_iff_zip]
  constructor
  · rintro ⟨-, hspared⟩ ⟨raft, raft'⟩ hmem hcell ⟨hback, hne⟩
    exact hne ((hspared hmem hcell hback).trans hcell.symm)
  · refine fun hstays => ⟨hlength, fun {raft raft'} hmem hcell hback => ?_⟩
    by_contra hne
    refine hstays _ hmem hcell ⟨hback, ?_⟩
    rwa [hcell]

/-- Whoever leaves with riders relays to nobody exactly if the cell it comes to is spared. -/
theorem relays_none_iff {raft raft' : Raft} {rest rest' : List Raft}
    (hlength : rest.length = rest'.length) (hleaves : raft.Leaves raft') :
    (∀ q ∈ rest.zip rest', ¬ Relays (raft, raft') q) ↔ Spares raft'.cell rest rest' := by
  rw [spares_iff hlength]
  refine forall₂_congr fun q _ => ⟨fun hno hcell hsecond => ?_, fun hstays hrelays => ?_⟩
  · exact hno ⟨hleaves, hcell, hsecond⟩
  · exact hstays hrelays.meets hrelays.second

/-! ## The only way

  `Spares` is the link: nothing that arrives at a cell is carried on exactly if the rafts to come spare
  it, and that is that the raft which brought it relays to none of them. -/

/-- Where the stops of two routes are the same, the stop after a common one is too, unless it is where the
second raft was made. -/
theorem next_unique {origin other c d e : Cell} {stops : List Cell} {i j : Nat}
    (hne : other ≠ origin) (horigin : (origin :: stops).Nodup) (hother : (other :: stops).Nodup)
    (hc : (origin :: stops)[i]? = some c)
    (hd : (origin :: stops)[(i + 1) % (origin :: stops).length]? = some d)
    (hc' : (other :: stops)[j]? = some c)
    (he : (other :: stops)[(j + 1) % (other :: stops).length]? = some e) : e = d ∨ d = origin := by
  obtain ⟨hstart, hstops⟩ := List.nodup_cons.1 horigin
  obtain ⟨hstart', -⟩ := List.nodup_cons.1 hother
  -- both routes have the cell at the same place
  have hplace : i = j := by
    cases i with
    | zero =>
      cases hc
      cases j with
      | zero => exact absurd (Option.some.inj hc') hne
      | succ j => exact absurd (List.mem_of_getElem? (l := stops) hc') hstart
    | succ i =>
      cases j with
      | zero =>
        cases hc'
        exact absurd (List.mem_of_getElem? (l := stops) hc) hstart'
      | succ j =>
        obtain ⟨_, hi⟩ := List.getElem?_eq_some_iff.1 (show stops[i]? = some c from hc)
        obtain ⟨_, hj⟩ := List.getElem?_eq_some_iff.1 (show stops[j]? = some c from hc')
        rw [hstops.getElem_inj_iff.1 (hi.trans hj.symm)]
  rw [← hplace] at he
  rw [List.length_cons] at hd he
  generalize (i + 1) % (stops.length + 1) = next at hd he
  cases next with
  | zero => exact Or.inr (Option.some.inj hd).symm
  | succ next => exact Or.inl (Option.some.inj (he.symm.trans hd))

section Rows

variable {rows : List (List Tile)} {stops : List Cell}

/-- Without a relay nothing goes further than one stop: the first raft that takes it along brings it to a
cell that the rafts to come spare. -/
theorem oneStop_haul {rafts rafts' : List Raft} (h : List.Forall₂ Onward rafts rafts') (c : Cell) :
    ∀ {origins : List Cell}, Routed origins stops rafts → (∀ raft ∈ rafts, raft.Sound rows) →
      ((rafts.zip rafts').Pairwise fun p q => ¬ Relays p q) →
      OneStop rafts rafts' c (haul rafts rafts' c) := by
  induction h with
  | nil => exact fun _ _ _ => Or.inl rfl
  | @cons raft raft' rest rest' hone hothers ih =>
    intro origins hrouted hs hnone
    obtain ⟨hraft, hsrest⟩ := List.forall_mem_cons.1 hs
    obtain ⟨hfirst, hlater⟩ := List.pairwise_cons.1 hnone
    obtain ⟨origin, others, rfl, -, hrest⟩ := hrouted.cons_cases
    rw [haul]
    by_cases htaken : raft.cell = c ∧ raft'.back.isSome = true
    · rw [if_pos htaken]
      obtain ⟨rfl, hback⟩ := htaken
      by_cases hsame : raft'.cell = raft.cell
      · rw [hsame]
        exact (ih hrest hsrest hlater).cons raft raft'
      · -- it stays where the raft has taken it
        have hspared := (relays_none_iff hothers.length_eq ⟨hback, hsame⟩).1 hfirst
        rw [(haul_eq_iff hothers hrest).2 hspared]
        exact Or.inr ⟨(raft, raft'), List.mem_cons_self, rfl, hraft.next_iff.2 (hone.next hback hsame), rfl⟩
    · rw [if_neg htaken]
      exact (ih hrest hsrest hlater).cons raft raft'

/-- What a raft has taken along stays where the raft has gone, if it ends within one stop.  If it were
carried on, it would end past the stop where it was brought, and one stop leads to no other place. -/
theorem haul_arrival {origin : Cell} {origins : List Cell} {raft raft' : Raft} {rest rest' : List Raft}
    (hrouted : Routed (origin :: origins) stops (raft :: rest))
    (hs : ∀ r ∈ raft :: rest, r.Sound rows) (hone : raft.Onward raft')
    (hothers : List.Forall₂ Onward rest rest') (hleaves : raft.Leaves raft')
    (hstop : OneStop (raft :: rest) (raft' :: rest') raft.cell (haul rest rest' raft'.cell)) :
    haul rest rest' raft'.cell = raft'.cell := by
  obtain ⟨_, _, ⟨⟩, hroute, hrest⟩ := hrouted.cons_cases
  obtain ⟨hstart, -⟩ := List.nodup_cons.1 hrouted.nodup
  obtain ⟨hback, hne⟩ := hleaves
  obtain ⟨i, hi, hnext⟩ := hone.next hback hne
  rw [hroute] at hi hnext
  rcases hstop with hhere | ⟨p, hp, hcell, hthere, harrives⟩
  · exact absurd hhere (haul_ne hothers hrest (past_of_next hrouted.nodup hi hnext hne))
  · rcases List.mem_cons.1 hp with rfl | hp
    · exact harrives.symm
    · -- a second raft lies there too, with a route that leads to the same stop
      obtain ⟨hmem, -⟩ := List.of_mem_zip hp
      obtain ⟨other, hother, hroute'⟩ := hrest.exists_origin hmem
      have hsound := hs _ (List.mem_cons_of_mem _ hmem)
      obtain ⟨j, hj, hnext'⟩ := hsound.next_iff.1 hthere
      have hnodup := hsound.route
      rw [hroute'] at hj hnext' hnodup
      rw [hcell] at hj
      have hapart : other ≠ origin := by
        rintro rfl
        exact hstart (List.mem_append_left _ hother)
      rcases next_unique hapart (hroute ▸ (hs raft List.mem_cons_self).route) hnodup hi hnext hj hnext'
        with hsame | hhome
      · exact hsame
      · -- where the first raft was made no other one lies
        refine haul_of_forall_ne (fun r hr heq => ?_) rest'
        obtain ⟨other, hother, hroute'⟩ := hrest.exists_origin hr
        have hlies := (hs r (List.mem_cons_of_mem _ hr)).cell_mem
        rw [hroute', heq, hhome] at hlies
        rcases List.mem_cons.1 hlies with hsame | hlies
        · exact hstart (hsame ▸ List.mem_append_left _ hother)
        · exact hstart (List.mem_append_right _ hlies)

/-- If all blocking robots end within one stop, no two rafts relay.  A raft that leaves with riders has a
blocking robot on its cell at that moment; where that robot ends tells that the raft relays to nobody. -/
theorem pairwise_of_oneStop {jetties : List Cell} :
    ∀ {rafts rafts' : List Raft} {origins : List Cell} {h h' : Harbour},
      Routed origins stops rafts → (∀ raft ∈ rafts, raft.Sound rows) →
      ferryAll jetties h rafts = .ok (h', rafts') →
      (∀ r ∈ h.robots, r.blocking = true → OneStop rafts rafts' r.cell (haul rafts rafts' r.cell)) →
      (rafts.zip rafts').Pairwise fun p q => ¬ Relays p q := by
  intro rafts
  induction rafts with
  | nil =>
    intro rafts' origins h h' _ _ _ _
    exact .nil
  | cons raft rest ih =>
    intro rafts' origins h h' hrouted hs hf hstop
    obtain ⟨mid, raft', others, hturn, hrest, rfl⟩ := ferryAll_cons_cases hf
    obtain ⟨hraft, hsrest⟩ := List.forall_mem_cons.1 hs
    obtain ⟨origin, origins', rfl, -, hrouted'⟩ := hrouted.cons_cases
    have hone := hturn.onward hraft
    have honward := ferryAll_onward hsrest hrest
    -- the raft has a rider, and that one ends within one stop
    have harrival : raft.Leaves raft' → haul rest others raft'.cell = raft'.cell := by
      intro hleaves
      obtain ⟨r, hr, hrider⟩ := List.any_eq_true.1 ((hturn.back_iff_rider hleaves.2).1 hleaves.1)
      obtain ⟨hb, hcell⟩ := Bool.and_eq_true_iff.1 hrider
      have hrstop := hstop r hr hb
      rw [haul, beq_iff_eq.1 hcell, if_pos ⟨rfl, hleaves.1⟩] at hrstop
      exact haul_arrival hrouted hs hone honward hleaves hrstop
    refine List.pairwise_cons.2 ⟨fun q hq hrelays => ?_, ih hrouted' hsrest hrest fun r hr hb => ?_⟩
    · have hspared := (haul_eq_iff honward hrouted').1 (harrival hrelays.first)
      exact (relays_none_iff honward.length_eq hrelays.first).2 hspared q hq hrelays
    · rw [hturn.robots] at hr
      obtain ⟨q, hq, rfl⟩ := List.mem_map.1 hr
      have hqstop := hstop q hq hb
      rw [haul] at hqstop
      show OneStop rest others (if raft.cell = q.cell ∧ _ then raft'.cell else q.cell)
        (haul rest others (if raft.cell = q.cell ∧ _ then raft'.cell else q.cell))
      by_cases htaken : raft.Leaves raft' ∧ raft.cell = q.cell
      · obtain ⟨hleaves, hcell⟩ := htaken
        rw [if_pos ⟨hcell, hleaves.1⟩]
        exact Or.inl (harrival hleaves)
      · -- the robot is where it was, and the raft has not taken it away
        have hkept : (if raft.cell = q.cell ∧ raft'.back.isSome = true then raft'.cell else q.cell)
            = q.cell := by
          split
          · rename_i hhere
            by_contra hne
            exact htaken ⟨⟨hhere.2, hhere.1 ▸ hne⟩, hhere.1⟩
          · rfl
        rw [hkept] at hqstop ⊢
        rcases hqstop with hhere | ⟨p, hp, hcell, hthere, harrives⟩
        · exact Or.inl hhere
        · rcases List.mem_cons.1 hp with rfl | hp
          · refine Or.inl (harrives.symm.trans ?_)
            by_contra hne
            have hleft : raft'.cell ≠ raft.cell := fun h => hne (h.trans hcell)
            have hrider : h.hasRider raft.cell = true :=
              List.any_eq_true.2 ⟨q, hq, Bool.and_eq_true_iff.2 ⟨hb, beq_iff_eq.2 hcell.symm⟩⟩
            exact htaken ⟨⟨(hturn.back_iff_rider hleft).2 hrider, hleft⟩, hcell⟩
          · exact Or.inr ⟨p, hp, hcell, hthere, harrives⟩

end Rows

/-- Where no raft sails to another raft's cell, no two rafts relay. -/
theorem pairwise_of_clear : ∀ {rafts rafts' : List Raft} {done : List Cell}, Clear done rafts rafts' →
    (rafts.zip rafts').Pairwise fun p q => ¬ Relays p q := by
  intro rafts
  induction rafts with
  | nil => exact fun _ => .nil
  | cons raft rest ih =>
    intro rafts' done hclear
    cases rafts' with
    | nil => exact .nil
    | cons raft' rest' =>
      obtain ⟨hfirst, hlater⟩ := hclear
      refine List.pairwise_cons.2 ⟨fun q hq hrelays => ?_, ih hlater⟩
      -- a relay takes the robot to a cell where another raft lies, which is what clear waters
      -- exclude
      have hmem : raft'.cell ∈ done ++ (raft :: rest).map Raft.cell := by
        refine List.mem_append_right _ (List.mem_cons_of_mem _ ?_)
        exact List.mem_map.2 ⟨q.1, (List.of_mem_zip hq).1, hrelays.meets⟩
      rcases hfirst with hsame | hfree
      · exact hrelays.first.2 hsame
      · exact hfree hmem

end Raft

namespace Simulation

/-! ## Runs

  A tick of a running state has one ferry step, from the robots behind their actions to the robots before
  the last look at the exits.  Both are named, since neither is a state of the run. -/

/-- The ferry step of a tick, from the robots that have acted to those that the rafts have moved. -/
structure FerryStep (s : State) (orders : Orders) (t : State) (before after : List Robot) : Prop where
  /-- the run goes on -/
  running : s.status = .running
  /-- the tick goes through -/
  tick : tick s orders = .ok t
  /-- between the actions and the end the rafts have their turns -/
  sails : ∃ entry, spawnPhase s = .ok entry ∧ before = (actedRobots s entry orders).1 ∧
    ferry s.grid before s.rafts s.jetties = .ok (t.grid, after, t.rafts)

/-- A tick of a running state has a ferry step. -/
theorem exists_ferryStep {s t : State} {orders : Orders} (hrun : s.status = .running)
    (h : tick s orders = .ok t) : ∃ before after, FerryStep s orders t before after := by
  obtain ⟨entry, grid, ferried, rafts, hspawn, hferry, rfl⟩ := tick_eq_settle hrun h
  exact ⟨_, ferried, hrun, h, entry, hspawn, rfl, hferry⟩

section FerryStep

variable {s t : State} {orders : Orders} {before after : List Robot}

theorem FerryStep.robots (h : FerryStep s orders t before after) :
    after = before.map fun r => { r with cell := Raft.haul s.rafts t.rafts r.cell } := by
  obtain ⟨-, -, -, hferry⟩ := h.sails
  obtain ⟨harbour, hall, -, rfl⟩ := ferry_cases hferry
  exact Raft.ferryAll_robots hall

/-- The turns of a ferry step; what is on display after them is what the board holds then. -/
theorem FerryStep.turns (hs : Afloat s) (h : FerryStep s orders t before after) :
    ∃ harbour, Raft.ferryAll s.jetties (.before before) s.rafts = .ok (harbour, t.rafts) ∧
      after = harbour.robots ∧
      Grid.storedIn t.grid.rows = Grid.display s.grid.rows harbour.changes := by
  obtain ⟨-, -, -, hferry⟩ := h.sails
  obtain ⟨harbour, hall, hpaint, hafter⟩ := ferry_cases hferry
  obtain ⟨hp, -⟩ := Raft.ferryAll_paintable hs.sound hall
  exact ⟨harbour, hall, hafter, funext fun c => Grid.storedIn_paint hp.nodup hp.stored hpaint c⟩

/-- After the ferry step whoever lives on an exit is saved. -/
theorem FerryStep.settled (h : FerryStep s orders t before after) :
    t.robots = after.map (markExit t.grid s.exits) := by
  obtain ⟨entry, hspawn, rfl, hferry⟩ := h.sails
  obtain ⟨entry', grid, ferried, rafts, hspawn', hferry', ht⟩ := tick_eq_settle h.running h.tick
  cases hspawn.symm.trans hspawn'
  cases hferry.symm.trans hferry'
  rw [ht]
  rfl

/-- How a ferry step moves the robots. -/
structure Passage (rafts rafts' : List Raft) (before after : List Robot) : Prop where
  /-- only cells change, and where no raft lies not even they do -/
  ashore : List.Forall₂ (fun r r' => r' = { r with cell := r'.cell } ∧
    ((∀ raft ∈ rafts, raft.cell ≠ r.cell) → r' = r)) before after
  /-- each rider goes on by one stop at most, exactly if no two rafts relay -/
  oneStop : List.Forall₂ (fun r r' => r.blocking = true → Raft.OneStop rafts rafts' r.cell r'.cell)
    before after ↔ (rafts.zip rafts').Pairwise fun p q => ¬ Raft.Relays p q
  /-- in clear waters none do -/
  clear : Raft.Clear [] rafts rafts' → (rafts.zip rafts').Pairwise fun p q => ¬ Raft.Relays p q

/-- The three parts together: robots ashore, one stop, clear waters. -/
theorem FerryStep.passage (hs : Underway s) (h : FerryStep s orders t before after) :
    Passage s.rafts t.rafts before after := by
  obtain ⟨origins, stops, hrouted⟩ := hs.routed
  obtain ⟨harbour, hall, -, -⟩ := h.turns hs.afloat
  have honward := Raft.ferryAll_onward hs.afloat.sound hall
  rw [h.robots]
  refine ⟨?_, ?_, Raft.pairwise_of_clear⟩
  · refine List.forall₂_map_right_iff.2 (List.forall₂_same.2 fun r _ => ⟨rfl, fun hnone => ?_⟩)
    rw [Raft.haul_of_forall_ne hnone]
  · rw [List.forall₂_map_right_iff, List.forall₂_same]
    constructor
    · exact Raft.pairwise_of_oneStop hrouted hs.afloat.sound hall
    · exact fun hnone r _ _ => Raft.oneStop_haul honward r.cell hrouted hs.afloat.sound hnone

end FerryStep

/-- **One stop a tick.**  In the ferry step of any tick of any run only cells change, and those of robots
that stand on no raft do not.  All blocking robots stay or go on by one stop, with a raft that lay
where they stood, exactly if no raft takes riders to a cell where another raft lies that leaves with
riders later in the same step; and this is so in clear waters. -/
theorem oneStop_iff {grid : Grid} {spawner : Spawner} {exits : List Cell}
    {maxSteps requiredSaved : Int} {s t u : State} {orders : Orders}
    (h : start grid spawner exits maxSteps requiredSaved = .ok s) (ht : Reaches s t)
    (hrun : t.status = .running) (hu : tick t orders = .ok u) :
    ∃ before after, FerryStep t orders u before after ∧ Passage t.rafts u.rafts before after := by
  have hunderway : Underway t := ht.invariant (P := Underway) underway_tick (underway_start h)
  obtain ⟨before, after, hstep⟩ := exists_ferryStep hrun hu
  exact ⟨before, after, hstep, hstep.passage hunderway⟩

/-- A robot rides from where the raft was made to the jetty, and while it waits there the raft takes it back:
one stop in each tick. -/
theorem oneStop_ferried :
    ∃ s t u before after, start ⟨[[.empty, .raft, .jetty]]⟩ { pose := ⟨⟨0, 0⟩, 1⟩ } [] 9 1 = .ok s ∧
      Reaches s t ∧ t.status = .running ∧ t.robots.map Robot.cell = [⟨2, 0⟩] ∧
      tick t [some .wait] = .ok u ∧ u.robots.map Robot.cell = [⟨1, 0⟩] ∧
      FerryStep t [some .wait] u before after ∧
      List.Forall₂ (fun r r' => r.blocking = true → Raft.OneStop t.rafts u.rafts r.cell r'.cell)
        before after := by
  obtain ⟨s, t, u, hs, ht, hrun, hcells, hu, hcells', hone⟩ : ∃ s t u,
      start ⟨[[.empty, .raft, .jetty]]⟩ { pose := ⟨⟨0, 0⟩, 1⟩ } [] 9 1 = .ok s ∧
      tick s [some .moveForward] = .ok t ∧ t.status = .running ∧
      t.robots.map Robot.cell = [⟨2, 0⟩] ∧ tick t [some .wait] = .ok u ∧
      u.robots.map Robot.cell = [⟨1, 0⟩] ∧ t.rafts.length ≤ 1 :=
    ⟨_, _, _, rfl, rfl, rfl, rfl, rfl, rfl, by decide⟩
  have hreach : Reaches s t := .tick .here ht
  -- one raft alone relays nobody
  obtain ⟨before, after, hstep, hpassage⟩ := oneStop_iff hs hreach hrun hu
  exact ⟨s, t, u, before, after, hs, hreach, hrun, hcells, hu, hcells', hstep,
    hpassage.oneStop.2 (hpassage.clear (Raft.clear_of_length_le_one hone))⟩

/-- Two rafts on top of each other, with a jetty east of the upper one and a second jetty in the last row.
The lower raft has taken the second robot to the first jetty, where the robot has walked off.  Now the
upper raft takes the first robot there, and the lower one takes it on to the second jetty. -/
theorem not_oneStop_of_relay :
    ∃ s t u before after r r',
      start ⟨[[.empty, .raft, .jetty, .empty], [.empty, .raft, .empty, .empty],
          [.jetty, .empty, .empty, .empty]]⟩
        { pose := ⟨⟨0, 0⟩, 1⟩, count := 2, starts := [⟨⟨0, 0⟩, 1⟩, ⟨⟨0, 1⟩, 1⟩] } [] 9 1 = .ok s ∧
      tick s [some .wait, some .moveForward] = .ok t ∧ t.status = .running ∧
      tick t [some .moveForward, some .moveForward] = .ok u ∧
      FerryStep t [some .moveForward, some .moveForward] u before after ∧
      before[0]? = some r ∧ after[0]? = some r' ∧ r.blocking = true ∧
      r.cell = ⟨1, 0⟩ ∧ r'.cell = ⟨0, 2⟩ ∧ ¬ Raft.OneStop t.rafts u.rafts r.cell r'.cell := by
  refine ⟨_, _, _, _, _, _, _, rfl, rfl, rfl, rfl, ⟨rfl, rfl, _, rfl, rfl, rfl⟩,
    rfl, rfl, rfl, rfl, rfl, ?_⟩
  decide +kernel

end Simulation

end RobotPuzzle
