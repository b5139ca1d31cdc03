/-
  What becomes of robots that are dead or saved.

  1. **One way** — all rafts share their stops but the first one of each, and a raft that leaves with riders
     goes on to the next stop.  What is carried on by one raft after the other in a single ferry step
     never comes back to where it was (`Raft.haul_ne`).
  2. **Spared** — so a ferry step leaves a cell alone exactly if every raft that lies there stays or leaves
     without riders (`Raft.haul_eq_iff`).
  3. **A tick** — of a finished robot only the cell can change, and the rafts say how (`tick_finished`).
  4. **Runs** — a finished robot is frozen for the rest of the run exactly if its cell is spared in every
     tick (`finished_frozen_iff`).  Riders take along whoever lies under them, so it need not be
     (`not_frozen_under_riders`).

  The crux is that a cell could be left and come to again within one ferry step, by way of two rafts, and
  then a robot on it would be carried and yet be where it was.  It does not happen: riders only ever go on
  to the next stop, all rafts have their stops in one order, and only the first stop of each is its own.
  So a cell that has been left is behind whatever was on it (`Past`), for every raft that is still to have
  its turn.

  The statement has the part that always holds, name, heading, life and rescue, and then the part that
  depends on rafts, with the exact condition, first for one tick and then for a run.  A saved robot on a
  goal is never carried, since no route leads over a goal; a drowned one may be, as the example shows, if
  it lies where a raft was made.
-/
import RobotPuzzle.Proofs.Fleet
import RobotPuzzle.Proofs.Roster

namespace RobotPuzzle

namespace Raft

/-! ## From stop to stop

  What a ferry step does to a raft is told without riders and without the harbour: a raft that has left
  and remembers a stop has gone on by one.  That is all that the way of a carried robot depends on. -/

/-- A raft that has left with riders has gone on to the next stop of its route. -/
structure Onward (raft raft' : Raft) : Prop where
  /-- routes do not change -/
  route : raft'.route = raft.route
  /-- where it lies now is the next stop of it -/
  next : raft'.back.isSome = true → raft'.cell ≠ raft.cell → ∃ i : Nat,
    raft.route[i]? = some raft.cell ∧ raft.route[(i + 1) % raft.route.length]? = some raft'.cell

theorem Onward.refl (raft : Raft) : raft.Onward raft := ⟨rfl, fun _ hne => absurd rfl hne⟩

/-- A turn takes a raft on, or home; one that goes home forgets the stop it remembered. -/
theorem Turn.onward {rows : List (List Tile)} {jetties : List Cell} {h h' : Harbour}
    {raft raft' : Raft} (hs : raft.Sound rows) (ht : raft.Turn jetties h h' raft') :
    raft.Onward raft' := by
  cases ht with
  | stay => exact .refl raft
  | @carry there _ _ hstop _ =>
    obtain ⟨i, hi, hcell⟩ := hs.moored
    have hnext : (raft.dock + 1) % raft.route.length = ((i + 1) % raft.route.length : Nat) := by
      rw [hi]
      rfl
    rw [hnext, stop?_natCast] at hstop
    exact ⟨rfl, fun _ _ => ⟨i, hcell, hstop⟩⟩
  | home _ _ _ _ _ _ => exact ⟨rfl, fun hb => (nomatch hb)⟩

/-- A raft that has left remembers a stop exactly if it has left with riders. -/
theorem Turn.back_iff_rider {jetties : List Cell} {h h' : Harbour} {raft raft' : Raft}
    (ht : raft.Turn jetties h h' raft') (hleft : raft'.cell ≠ raft.cell) :
    raft'.back.isSome = true ↔ h.hasRider raft.cell = true := by
  cases ht with
  | stay => exact absurd rfl hleft
  | carry _ hrider _ _ => exact ⟨fun _ => hrider, fun _ => rfl⟩
  | home _ hrider _ _ _ _ =>
    rw [hrider]
    exact ⟨fun hb => (nomatch hb), fun hr => (nomatch hr)⟩

/-- So all rafts go on, each along its route. -/
theorem ferryAll_onward {rows : List (List Tile)} {jetties : List Cell} :
    ∀ {rafts rafts' : List Raft} {h h' : Harbour}, (∀ raft ∈ rafts, raft.Sound rows) →
      ferryAll jetties h rafts = .ok (h', rafts') → List.Forall₂ Onward rafts rafts' := by
  intro rafts
  induction rafts with
  | nil =>
    intro rafts' h h' _ hf
    cases hf
    exact .nil
  | cons raft rest ih =>
    intro rafts' h h' hs hf
    obtain ⟨mid, raft', others, hone, hrest, rfl⟩ := ferryAll_cons_cases hf
    obtain ⟨hraft, hothers⟩ := List.forall_mem_cons.1 hs
    exact .cons (hone.onward hraft) (ih hothers hrest)

/-- Every raft has an origin of its own, and then come the stops that all of them share. -/
structure Routed (origins stops : List Cell) (rafts : List Raft) : Prop where
  /-- an origin, and behind it the common stops -/
  routes : rafts.map Raft.route = origins.map (· :: stops)
  /-- no cell is twice among all of them -/
  nodup : (origins ++ stops).Nodup

/-- Routes never change. -/
theorem Routed.onward {origins stops : List Cell} {rafts rafts' : List Raft}
    (h : Routed origins stops rafts) (ho : List.Forall₂ Onward rafts rafts') :
    Routed origins stops rafts' := by
  refine ⟨?_, h.nodup⟩
  rw [← h.routes]
  clear h
  induction ho with
  | nil => rfl
  | cons hone _ ih => rw [List.map_cons, List.map_cons, hone.route, ih]

/-- The first raft has the first origin, and the others have the rest. -/
theorem Routed.cons_cases {origins stops : List Cell} {raft : Raft} {rest : List Raft}
    (h : Routed origins stops (raft :: rest)) : ∃ origin others, origins = origin :: others ∧
      raft.route = origin :: stops ∧ Routed others stops rest := by
  obtain ⟨hroutes, hnodup⟩ := h
  cases origins with
  | nil => cases hroutes
  | cons origin others =>
    obtain ⟨hroute, hroutes⟩ := List.cons.inj hroutes
    exact ⟨origin, others, rfl, hroute, hroutes, (List.nodup_cons.1 hnodup).2⟩

/-- The route of each raft is an origin and then the stops that all rafts share. -/
theorem Routed.exists_origin {origins stops : List Cell} {rafts : List Raft} {raft : Raft}
    (h : Routed origins stops rafts) (hraft : raft ∈ rafts) :
    ∃ origin ∈ origins, raft.route = origin :: stops := by
  have hroute : raft.route ∈ rafts.map Raft.route := List.mem_map_of_mem hraft
  rw [h.routes] at hroute
  obtain ⟨origin, horigin, heq⟩ := List.mem_map.1 hroute
  exact ⟨origin, horigin, heq.symm⟩

/-! ## One way

  `Past` is kept along the rafts: each raft either leaves what is carried where it is, or takes it on to
  the next stop, which lies further behind. -/

section Past

variable {origin c d e : Cell} {origins stops : List Cell} {i : Nat}

/-- What is at `d` does not come to `c` any more, with the rafts of these origins: either no raft will lie
at `d`, or `d` is a stop, and `c` is neither a later one nor an origin. -/
def Past (c : Cell) (origins stops : List Cell) (d : Cell) : Prop :=
  (d ≠ c ∧ d ∉ origins ++ stops) ∨ (c ∉ origins ∧ ∃ i, stops[i]? = some d ∧ c ∉ stops.drop i)

theorem Past.ne (h : Past c origins stops d) : d ≠ c := by
  rcases h with ⟨hne, -⟩ | ⟨-, i, hi, hlater⟩
  · exact hne
  · rintro rfl
    exact hlater (List.mem_of_getElem? (i := 0) (by rw [List.getElem?_drop]; exact hi))

theorem Past.rest (h : Past c (origin :: origins) stops d) : Past c origins stops d := by
  rcases h with ⟨hne, hnowhere⟩ | ⟨horigins, hstop⟩
  · exact Or.inl ⟨hne, fun hmem => hnowhere (List.mem_cons_of_mem _ hmem)⟩
  · exact Or.inr ⟨fun hmem => horigins (List.mem_cons_of_mem _ hmem), hstop⟩

/-- Behind the last of the stops comes the origin. -/
theorem next_cases (hi : i < (origin :: stops).length)
    (hnext : (origin :: stops)[(i + 1) % (origin :: stops).length]? = some e) :
    stops[i]? = some e ∨ e = origin := by
  rw [List.length_cons] at hi hnext
  rcases Nat.lt_or_ge (i + 1) (stops.length + 1) with hin | hout
  · rw [Nat.mod_eq_of_lt hin] at hnext
    exact Or.inl hnext
  · rw [show i + 1 = stops.length + 1 by omega, Nat.mod_self] at hnext
    exact Or.inr (Option.some.inj hnext).symm

/-- Whoever has left `c` is past it.  If the raft has gone home to its origin, no other raft ever lies
there; and if it has gone on to a stop, `c` is an earlier stop or the origin of this raft. -/
theorem past_of_next (hnodup : (origin :: origins ++ stops).Nodup)
    (hc : (origin :: stops)[i]? = some c)
    (hnext : (origin :: stops)[(i + 1) % (origin :: stops).length]? = some e) (hne : e ≠ c) :
    Past c origins stops e := by
  obtain ⟨horigin, hothers⟩ := List.nodup_cons.1 hnodup
  obtain ⟨-, hstops, hdisjoint⟩ := List.nodup_append.1 hothers
  have hi := (List.getElem?_eq_some_iff.1 hc).1
  cases i with
  | zero =>
    cases hc
    -- from home the next is the first stop, and there is no stop before it
    rcases next_cases hi hnext with hstop | rfl
    · exact Or.inr ⟨fun hmem => horigin (List.mem_append_left _ hmem), 0, hstop,
        fun hmem => horigin (List.mem_append_right _ hmem)⟩
    · exact absurd rfl hne
  | succ k =>
    have hk : stops[k]? = some c := hc
    rcases next_cases hi hnext with hstop | rfl
    · -- from a stop it is the next stop, and the stops are all different
      refine Or.inr ⟨fun hmem => hdisjoint c hmem c (List.mem_of_getElem? hk) rfl, k + 1, hstop, ?_⟩
      obtain ⟨hlt, rfl⟩ := List.getElem?_eq_some_iff.1 hk
      have hdrop := hstops.sublist (List.drop_sublist k stops)
      rw [List.drop_eq_getElem_cons hlt] at hdrop
      exact (List.nodup_cons.1 hdrop).1
    · exact Or.inl ⟨hne, horigin⟩

/-- Whoever goes on stays past `c`: the next stop is a later one, or the origin of a raft, which no other
raft comes to. -/
theorem Past.next (hnodup : (origin :: origins ++ stops).Nodup)
    (h : Past c (origin :: origins) stops d) (hd : (origin :: stops)[i]? = some d)
    (hnext : (origin :: stops)[(i + 1) % (origin :: stops).length]? = some e) :
    Past c origins stops e := by
  obtain ⟨horigin, hothers⟩ := List.nodup_cons.1 hnodup
  obtain ⟨-, hstops, -⟩ := List.nodup_append.1 hothers
  have hi := (List.getElem?_eq_some_iff.1 hd).1
  rcases h with ⟨-, hnowhere⟩ | ⟨horigins, k, hk, hlater⟩
  · -- no raft lies at such a cell
    refine absurd ?_ hnowhere
    rcases List.mem_cons.1 (List.mem_of_getElem? hd) with rfl | hmem
    · exact List.mem_cons_self
    · exact List.mem_append_right _ hmem
  · have hindex : i = k + 1 := by
      cases i with
      | zero =>
        cases hd
        exact absurd (List.mem_append_right _ (List.mem_of_getElem? hk)) horigin
      | succ m =>
        have hm : stops[m]? = some d := hd
        obtain ⟨hmlt, hm⟩ := List.getElem?_eq_some_iff.1 hm
        obtain ⟨hklt, hk⟩ := List.getElem?_eq_some_iff.1 hk
        rw [(hstops.getElem_inj_iff).1 (hm.trans hk.symm)]
    subst hindex
    obtain ⟨hne, hrest⟩ := List.ne_and_not_mem_of_not_mem_cons horigins
    rcases next_cases hi hnext with hstop | rfl
    · refine Or.inr ⟨hrest, k + 1, hstop, fun hmem => hlater ?_⟩
      exact (List.drop_sublist_drop_left stops (Nat.le_succ k)).subset hmem
    · exact Or.inl ⟨Ne.symm hne, horigin⟩

end Past

/-- What is past a cell is not carried there.  The induction is along the rafts, with `Past` for those
that are left. -/
theorem haul_ne {stops : List Cell} {rafts rafts' : List Raft} (h : List.Forall₂ Onward rafts rafts') :
    ∀ {origins : List Cell} {c d : Cell}, Routed origins stops rafts → Past c origins stops d →
      haul rafts rafts' d ≠ c := by
  induction h with
  | nil => exact fun _ hpast => hpast.ne
  | @cons raft raft' rest rest' hone _ ih =>
    intro origins c d hrouted hpast
    obtain ⟨origin, origins, rfl, hroute, hrest⟩ := hrouted.cons_cases
    rw [haul]
    -- the first raft takes the robot along if it lies there; the others find it past `c` still
    refine ih hrest ?_
    by_cases hleaves : raft.cell = d ∧ raft'.back.isSome = true
    · rw [if_pos hleaves]
      obtain ⟨rfl, hback⟩ := hleaves
      by_cases hsame : raft'.cell = raft.cell
      · rw [hsame]
        exact hpast.rest
      · obtain ⟨i, hi, hnext⟩ := hone.next hback hsame
        rw [hroute] at hi hnext
        -- it has left `c` with that raft
        exact hpast.next hrouted.nodup hi hnext
    · rw [if_neg hleaves]
      exact hpast.rest

/-- Every raft on the cell stays, or leaves it without riders. -/
def Spares (c : Cell) : List Raft → List Raft → Prop :=
  List.Forall₂ fun raft raft' => raft.cell = c → raft'.back.isSome = true → raft'.cell = c

/-- A ferry step leaves what lies on a cell there exactly if it spares the cell.  The first raft that does
not spare it carries what lies there past the cell, and then it never comes back. -/
theorem haul_eq_iff {stops : List Cell} {c : Cell} {rafts rafts' : List Raft}
    (h : List.Forall₂ Onward rafts rafts') :
    ∀ {origins : List Cell}, Routed origins stops rafts →
      (haul rafts rafts' c = c ↔ Spares c rafts rafts') := by
  induction h with
  | nil => exact fun _ => ⟨fun _ => .nil, fun _ => rfl⟩
  | @cons raft raft' rest rest' hone hothers ih =>
    intro origins hrouted
    obtain ⟨origin, origins, rfl, hroute, hrest⟩ := hrouted.cons_cases
    rw [haul, Spares, List.forall₂_cons, ← Spares]
    by_cases hleaves : raft.cell = c ∧ raft'.back.isSome = true
    · rw [if_pos hleaves]
      obtain ⟨rfl, hback⟩ := hleaves
      by_cases hsame : raft'.cell = raft.cell
      · rw [hsame, ih hrest]
        exact ⟨fun hs => ⟨fun _ _ => rfl, hs⟩, fun hs => hs.2⟩
      · -- the first raft that leaves with riders takes it away for good
        obtain ⟨i, hi, hnext⟩ := hone.next hback hsame
        rw [hroute] at hi hnext
        have hgone := haul_ne hothers hrest (past_of_next hrouted.nodup hi hnext hsame)
        exact ⟨fun he => absurd he hgone, fun hs => absurd (hs.1 rfl hback) hsame⟩
    · rw [if_neg hleaves, ih hrest]
      exact ⟨fun hs => ⟨fun hc hb => absurd ⟨hc, hb⟩ hleaves, hs⟩, fun hs => hs.2⟩

end Raft

namespace Simulation

/-! ## A tick

  Only the ferry step acts on a finished robot, so the question is brought to the rafts of the state
  before and after the tick. -/

/-- The rafts of a run: sound, with routes that share all but their origins. -/
structure Underway (s : State) : Prop where
  /-- the rafts are sound -/
  afloat : Afloat s
  /-- and share their stops -/
  routed : ∃ origins stops, Raft.Routed origins stops s.rafts

theorem tick_onward {s t : State} {actions : List (Option Action)} (hs : Afloat s)
    (h : tick s actions = .ok t) : List.Forall₂ Raft.Onward s.rafts t.rafts := by
  rcases tick_cases h with ⟨-, rfl⟩ | ⟨-, entry, grid, ferried, rafts, -, hferry, rfl⟩
  · exact List.forall₂_same.2 fun raft _ => .refl raft
  · obtain ⟨h, hall, -, -⟩ := ferry_cases hferry
    exact Raft.ferryAll_onward hs.sound hall

theorem underway_tick {s t : State} {actions : List (Option Action)} (hs : Underway s)
    (h : tick s actions = .ok t) : Underway t := by
  obtain ⟨origins, stops, hrouted⟩ := hs.routed
  exact ⟨(afloat_tick hs.afloat h).1, origins, stops, hrouted.onward (tick_onward hs.afloat h)⟩

/-- No cell holds a raft and a jetty. -/
theorem notMem_jetties {grid : Grid} {c : Cell} (hraft : c ∈ grid.cellsOf (· == .raft)) :
    c ∉ grid.cellsOf (· == .jetty) := by
  intro hjetty
  obtain ⟨t, ht, hw⟩ := Grid.mem_cellsOf.1 hjetty
  rw [Grid.mem_tiles.1 hraft] at ht
  cases ht
  cases hw

/-- At the start the origins are the raft tiles, and the stops the jetties. -/
theorem routed_start {grid : Grid} {spawner : Spawner} {exits : List Cell}
    {maxSteps requiredSaved : Int} {s : State}
    (h : start grid spawner exits maxSteps requiredSaved = .ok s) :
    Raft.Routed (grid.cellsOf (· == .raft)) (sortStops (grid.cellsOf (· == .jetty))) s.rafts := by
  obtain ⟨entered, hs⟩ := start_cases h
  rw [hs.state]
  constructor
  · show (initialRafts grid (grid.cellsOf (· == .jetty))).map Raft.route = _
    rw [initialRafts, List.map_map]
    -- a raft tile is no jetty, so every route has all the jetties
    refine List.map_congr_left fun c hc => ?_
    show c :: sortStops ((grid.cellsOf (· == .jetty)).filter (· ≠ c)) = _
    rw [List.filter_eq_self.2]
    intro d hd
    rw [decide_eq_true_eq]
    rintro rfl
    exact notMem_jetties hc hd
  · have hperm := sortStops_perm (grid.cellsOf (· == .jetty))
    refine List.nodup_append.2 ⟨Grid.cellsOf_nodup _ grid, ?_, fun c hc d hd => ?_⟩
    · exact hperm.nodup_iff.2 (Grid.cellsOf_nodup _ grid)
    · rintro rfl
      exact notMem_jetties hc (hperm.mem_iff.1 hd)

theorem underway_start {grid : Grid} {spawner : Spawner} {exits : List Cell}
    {maxSteps requiredSaved : Int} {s : State}
    (h : start grid spawner exits maxSteps requiredSaved = .ok s) : Underway s :=
  ⟨(afloat_start h).1, _, _, routed_start h⟩

/-- Of a finished robot only the cell changes, and only with the rafts. -/
theorem tick_finished {s t : State} {actions : List (Option Action)} {i : Nat} {r : Robot}
    (h : tick s actions = .ok t) (hr : s.robots[i]? = some r) (hb : r.blocking = false) :
    t.robots[i]? = some { r with cell := Raft.haul s.rafts t.rafts r.cell } := by
  obtain ⟨entered, hcontinue, -, -⟩ := tick_continues h
  obtain ⟨r', hr', hcont⟩ := hcontinue.getElem?_append hr
  rw [hr', hcont.finished hb]

/-- A finished robot stays as it is in a tick exactly if no raft takes it along. -/
theorem tick_frozen_iff {s t : State} {actions : List (Option Action)} {i : Nat} {r : Robot}
    (hs : Underway s) (h : tick s actions = .ok t) (hr : s.robots[i]? = some r)
    (hb : r.blocking = false) :
    t.robots[i]? = some r ↔ Raft.Spares r.cell s.rafts t.rafts := by
  obtain ⟨origins, stops, hrouted⟩ := hs.routed
  rw [tick_finished h hr hb, ← Raft.haul_eq_iff (tick_onward hs.afloat h) hrouted]
  obtain ⟨name, cell, heading, alive, saved⟩ := r
  rw [Option.some.injEq, Robot.mk.injEq]
  exact ⟨fun he => he.2.1, fun he => ⟨rfl, he, rfl, rfl, rfl⟩⟩

/-! ## Runs

  Frozen for the whole rest of a run is frozen in every tick of it, so the condition is put as a chain
  over the states. -/

/-- From a state on, the robot stays as it is exactly if every tick spares its cell, by induction on the
orders. -/
theorem frozen_statesAfter_iff {i : Nat} {r : Robot} (hb : r.blocking = false) :
    ∀ {log : List Orders} {s : State} {states : List State}, Underway s →
      s.robots[i]? = some r → statesAfter s log = .ok states →
      ((∀ t ∈ states, t.robots[i]? = some r) ↔
        List.IsChain (fun t u => Raft.Spares r.cell t.rafts u.rafts) (s :: states)) := by
  intro log
  induction log with
  | nil =>
    intro s states _ _ h
    cases h
    exact ⟨fun _ => .singleton s, fun _ t ht => (nomatch ht)⟩
  | cons orders rest ih =>
    intro s states hs hr h
    obtain ⟨u, others, hu, hothers, rfl⟩ := statesAfter_cons_cases h
    -- the first tick, and from the state that it leaves the others
    have hone := tick_frozen_iff hs hu hr hb
    rw [List.isChain_cons_cons, List.forall_mem_cons]
    constructor
    · rintro ⟨hsame, hall⟩
      exact ⟨hone.1 hsame, (ih (underway_tick hs hu) hsame hothers).1 hall⟩
    · rintro ⟨hspared, hchain⟩
      have hsame := hone.2 hspared
      exact ⟨hsame, (ih (underway_tick hs hu) hsame hothers).2 hchain⟩

/-- **Finished robots.**  From any state of a run on, a robot that is dead or saved keeps its name, its
heading, its life and its rescue.  Its cell changes only with the rafts that leave it with riders, and
so the whole robot stays as it is exactly if no tick has such a raft on its cell. -/
theorem finished_frozen_iff {grid : Grid} {spawner : Spawner} {exits : List Cell}
    {maxSteps requiredSaved : Int} {s t : State} {i : Nat} {r : Robot}
    (h : start grid spawner exits maxSteps requiredSaved = .ok s) (ht : Reaches s t)
    (hr : t.robots[i]? = some r) (hb : r.blocking = false) :
    (∀ u, Reaches t u → ∃ c, u.robots[i]? = some { r with cell := c }) ∧
      (∀ actions u, tick t actions = .ok u →
        u.robots[i]? = some { r with cell := Raft.haul t.rafts u.rafts r.cell }) ∧
      ∀ log states, statesAfter t log = .ok states →
        ((∀ u ∈ states, u.robots[i]? = some r) ↔
          List.IsChain (fun t u => Raft.Spares r.cell t.rafts u.rafts) (t :: states)) := by
  have hunderway : Underway t :=
    ht.invariant (P := Underway) underway_tick (underway_start h)
  refine ⟨fun u hu => ?_, fun actions u hu => tick_finished hu hr hb, fun log states hrun => ?_⟩
  · refine hu.invariant (P := fun u => ∃ c, u.robots[i]? = some { r with cell := c }) ?_
      ⟨r.cell, hr⟩
    rintro u v actions ⟨c, hc⟩ hv
    exact ⟨_, tick_finished (r := { r with cell := c }) hv hc hb⟩
  · exact frozen_statesAfter_iff hb hunderway hr hrun

/-- Three robots on their way over the water: the first has been saved on the goal, the second has drowned
where the raft was made, and the raft has come home.  With the third it sails again, and not past
the goal. -/
theorem finished_frozen_goal :
    ∃ s t v r, start ⟨[[.empty, .raft, .jetty, .goal]]⟩
        { pose := ⟨⟨0, 0⟩, 1⟩, count := 3, interval := 1 } [] 9 3 = .ok s ∧
      Reaches s t ∧ t.robots[0]? = some r ∧ r.blocking = false ∧
      tick t [none, none, some .moveForward] = .ok v ∧
      v.rafts.map Raft.cell = [⟨2, 0⟩] ∧ v.robots[0]? = some r := by
  obtain ⟨s, first, t, v, r, hs, hfirst, ht, hv, hr, hb, hrafts, hsame⟩ : ∃ s first t v r,
      start ⟨[[.empty, .raft, .jetty, .goal]]⟩
        { pose := ⟨⟨0, 0⟩, 1⟩, count := 3, interval := 1 } [] 9 3 = .ok s ∧
      tick s [some .moveForward] = .ok first ∧
      tick first [some .moveForward, some .moveForward] = .ok t ∧
      tick t [none, none, some .moveForward] = .ok v ∧
      t.robots[0]? = some r ∧ r.blocking = false ∧ v.rafts.map Raft.cell = [⟨2, 0⟩] ∧
      Raft.haul t.rafts v.rafts r.cell = r.cell :=
    ⟨_, _, _, _, _, rfl, rfl, rfl, rfl, rfl, rfl, rfl, rfl⟩
  have hreach : Reaches s t := .tick (.tick .here hfirst) ht
  -- the raft comes home to another cell than that of the robot, so the tick spares it
  have hkept := (finished_frozen_iff hs hreach hr hb).2.1 _ v hv
  rw [hsame] at hkept
  exact ⟨s, t, v, r, hs, hreach, hr, hb, hv, hrafts, hkept⟩

/-- A robot has drowned where the raft was made, and the raft has come home with its rider.  When it
sails again, it takes the drowned robot along. -/
theorem not_frozen_under_riders :
    ∃ s t u v r, start ⟨[[.empty, .raft, .jetty]]⟩
        { pose := ⟨⟨0, 0⟩, 1⟩, count := 2, interval := 1 } [] 9 1 = .ok s ∧
      tick s [some .moveForward] = .ok t ∧ tick t [none, some .moveForward] = .ok u ∧
      u.robots[1]? = some r ∧ r.alive = false ∧ tick u [some .wait] = .ok v ∧
      v.robots[1]? = some { r with cell := ⟨2, 0⟩ } ∧ v.robots[1]? ≠ some r :=
  ⟨_, _, _, _, _, rfl, rfl, rfl, rfl, rfl, rfl, rfl, by decide +kernel⟩

end Simulation

end RobotPuzzle
