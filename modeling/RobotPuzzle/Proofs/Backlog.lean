/-
  What is in a queue that nobody takes anything from.

  1. **The latest of each sort** (`latest`) — of items of several sorts, the last ones of each sort as far as
     there is room for that sort, at their places.  One more item pushes out the oldest that is kept of its
     own sort (`latest_concat`), and with less room for a sort its oldest one goes (`eraseP_latest`).
  2. **The backlog** (`backlog`) — the last pinned events as far as the bound goes, and the last others in
     the room that they leave.
  3. **One offer** (`Offered.backlog`) — what an offer makes of a backlog is the backlog with that event.  The
     crux: a full queue with an event that is not pinned holds all the pinned ones there were, so what
     gives way is just what one more pinned event, or one more of the others, leaves no room for.
  4. **A run** (`untaken_backlog`) — so it is by induction, whatever is done on the bus meanwhile.

  The closed form is a list, not a number: which events are left, and in which order.  So it implies that
  what is left is a part of what was published, and that each sort is what was published last of it.
  Others may subscribe, take and cancel meanwhile; all that is asked is that this subscriber stays and
  takes nothing.
-/
import Mathlib.Data.List.DropRight
import RobotPuzzle.Proofs.Deliveries

namespace RobotPuzzle

open scoped List

namespace EventQueue

/-! ## The latest of each sort

  This is about lists in general.  It is done for sorts and not only for pinned and other events, since
  both sorts give way by the same rule, each in favour of its own or of the other. -/

section Latest

variable {α κ : Type} [DecidableEq κ] {sort : α → κ} {room less : κ → Nat} {k : κ} {x : α}
  {items : List α}

/-- How many items of a sort there are. -/
def number (sort : α → κ) (k : κ) (items : List α) : Nat := items.countP (sort · == k)

/-- The last items of each sort, as far as there is room for that sort, at their places. -/
def latest (sort : α → κ) (room : κ → Nat) : List α → List α
  | [] => []
  | x :: rest =>
    if number sort (sort x) rest < room (sort x) then x :: latest sort room rest
    else latest sort room rest

theorem number_cons (sort : α → κ) (k : κ) (x : α) (items : List α) :
    number sort k (x :: items) = number sort k items + if sort x = k then 1 else 0 := by
  simp only [number, List.countP_cons, beq_iff_eq]

theorem number_concat (sort : α → κ) (k : κ) (items : List α) (x : α) :
    number sort k (items ++ [x]) = number sort k items + if sort x = k then 1 else 0 := by
  simp only [number, List.countP_append, List.countP_singleton, beq_iff_eq]

/-- What is kept stays in its order. -/
theorem latest_sublist (sort : α → κ) (room : κ → Nat) (items : List α) :
    latest sort room items <+ items := by
  induction items with
  | nil => exact List.Sublist.refl _
  | cons x rest ih =>
    rw [latest]
    split
    · exact ih.cons_cons x
    · exact ih.cons x

/-- What is kept of a sort are the last ones of that sort. -/
theorem filter_latest (sort : α → κ) (room : κ → Nat) (k : κ) (items : List α) :
    (latest sort room items).filter (sort · == k) = (items.filter (sort · == k)).rtake (room k) := by
  induction items with
  | nil => rw [latest, List.filter_nil, List.rtake_nil]
  | cons x rest ih =>
    have hcount : (rest.filter (sort · == k)).length = number sort k rest :=
      List.countP_eq_length_filter.symm
    rw [latest]
    by_cases hk : sort x = k
    · subst hk
      rw [List.filter_cons, if_pos (beq_self_eq_true _)]
      -- is the oldest one of this sort among those that there is room for?
      split
      · rename_i hlt
        rw [List.filter_cons, if_pos (beq_self_eq_true _), ih, List.rtake, List.rtake, List.length_cons, hcount,
          Nat.sub_eq_zero_of_le hlt, Nat.sub_eq_zero_of_le (Nat.le_of_lt hlt), List.drop_zero,
          List.drop_zero]
      · rename_i hge
        rw [ih, List.rtake, List.rtake, List.length_cons, hcount, Nat.succ_sub (Nat.not_lt.1 hge),
          List.drop_succ_cons]
    · -- one of another sort is not in the list, whether it is kept or not
      have hx : ¬ (sort x == k) = true := beq_iff_eq.not.2 hk
      rw [List.filter_cons, if_neg hx]
      split
      · rw [List.filter_cons, if_neg hx, ih]
      · exact ih

/-- How much room there is beyond the items of a sort makes no difference. -/
theorem latest_congr (h : ∀ k, room k = less k ∨
      number sort k items ≤ room k ∧ number sort k items ≤ less k) :
    latest sort room items = latest sort less items := by
  induction items with
  | nil => rfl
  | cons x rest ih =>
    have hrest := ih fun k => (h k).imp_right fun hle => by
      rw [number_cons] at hle
      omega
    have hx := h (sort x)
    rw [number_cons, if_pos rfl] at hx
    have hkept : number sort (sort x) rest < room (sort x) ↔ number sort (sort x) rest < less (sort x) := by
      omega
    rw [latest, latest, hrest]
    simp only [hkept]

/-- With room for one fewer of a sort, the oldest one of that sort goes. -/
theorem eraseP_latest (hk : room k = less k + 1) (hother : ∀ j, j ≠ k → room j = less j)
    (hfull : room k ≤ number sort k items) :
    (latest sort room items).eraseP (sort · == k) = latest sort less items := by
  induction items with
  | nil =>
    rw [number, List.countP_nil] at hfull
    omega
  | cons x rest ih =>
    rw [number_cons] at hfull
    rw [latest, latest]
    by_cases hx : sort x = k
    · subst hx
      rw [if_pos rfl] at hfull
      by_cases hlt : number sort (sort x) rest < room (sort x)
      · -- the oldest one that is kept, and all behind it are kept in both
        rw [if_pos hlt, if_neg (by omega), List.eraseP_cons, beq_self_eq_true, cond_true]
        refine latest_congr fun j => ?_
        by_cases hj : j = sort x
        · subst hj
          omega
        · exact Or.inl (hother j hj)
      · rw [if_neg hlt, if_neg (by omega)]
        exact ih (by omega)
    · rw [if_neg hx] at hfull
      rw [hother _ hx]
      split
      · rw [List.eraseP_cons, beq_eq_false_iff_ne.2 hx, cond_false, ih hfull]
      · exact ih hfull

/-- One more item takes the room of one of its sort. -/
theorem latest_concat (hx : room (sort x) = less (sort x) + 1)
    (hother : ∀ j, j ≠ sort x → room j = less j) :
    latest sort room (items ++ [x]) = latest sort less items ++ [x] := by
  induction items with
  | nil =>
    show (if 0 < room (sort x) then [x] else []) = [x]
    rw [hx, if_pos (Nat.succ_pos _)]
  | cons y rest ih =>
    have hkept : number sort (sort y) (rest ++ [x]) < room (sort y) ↔
        number sort (sort y) rest < less (sort y) := by
      rw [number_concat]
      by_cases hy : sort x = sort y
      · rw [if_pos hy, ← hy, hx, Nat.add_lt_add_iff_right]
      · rw [if_neg hy, hother _ (Ne.symm hy), Nat.add_zero]
    rw [List.cons_append, latest, latest, ih]
    simp only [hkept]
    split <;> rfl

/-- An item for whose sort there is no room at all leaves what is kept as it is. -/
theorem latest_concat_of_no_room (hx : room (sort x) = 0) :
    latest sort room (items ++ [x]) = latest sort room items := by
  induction items with
  | nil =>
    show (if 0 < room (sort x) then [x] else []) = []
    rw [hx, if_neg (Nat.lt_irrefl 0)]
  | cons y rest ih =>
    rw [List.cons_append, latest, latest, ih, number_concat]
    by_cases hy : sort x = sort y
    · rw [← hy, hx, if_neg (Nat.not_lt_zero _), if_neg (Nat.not_lt_zero _)]
    · rw [if_neg hy, Nat.add_zero]

/-- Of each sort as many are kept as there are, or as there is room for. -/
theorem number_latest (sort : α → κ) (room : κ → Nat) (k : κ) (items : List α) :
    number sort k (latest sort room items) = min (room k) (number sort k items) := by
  have hlength : (items.filter (sort · == k)).length = number sort k items :=
    List.countP_eq_length_filter.symm
  rw [number, List.countP_eq_length_filter, filter_latest, List.rtake, List.length_drop, hlength]
  omega

end Latest

/-! ## The backlog

  The room for others depends on how many pinned events have come, so it becomes smaller in time.  This is
  how an event that was kept can go although nothing of its own sort has come. -/

/-- How many pinned events and how many others a queue of that bound has room for, when these events
were offered to it: the others have the room that the pinned ones leave. -/
def roomFor (m : Nat) (pinned : List String) (events : List Event) : Bool → Nat
  | true => min m (number (·.isOneOf pinned) true events)
  | false =>
    min (number (·.isOneOf pinned) false events) (m - min m (number (·.isOneOf pinned) true events))

/-- What a queue of that bound holds, when these events were offered to it and none was taken. -/
def backlog (m : Nat) (pinned : List String) (events : List Event) : List Event :=
  latest (·.isOneOf pinned) (roomFor m pinned events) events

section Backlog

variable {m : Nat} {pinned : List String} {e : Event} {q r : EventQueue} {accepted : Bool}
  {events : List Event}

theorem number_backlog (m : Nat) (pinned : List String) (events : List Event) (k : Bool) :
    number (·.isOneOf pinned) k (backlog m pinned events) = roomFor m pinned events k := by
  rw [backlog, number_latest]
  cases k with
  | true => exact Nat.min_eq_left (Nat.min_le_right _ _)
  | false => exact Nat.min_eq_left (Nat.min_le_left _ _)

theorem length_backlog (m : Nat) (pinned : List String) (events : List Event) :
    (backlog m pinned events).length = roomFor m pinned events true + roomFor m pinned events false := by
  rw [← number_backlog, ← number_backlog, number, number,
    List.length_eq_countP_add_countP (·.isOneOf pinned)]
  simp

theorem number_pos_of_mem {k : Bool} (he : e ∈ events) (hk : e.isOneOf pinned = k) :
    0 < number (·.isOneOf pinned) k events :=
  List.countP_pos_iff.2 ⟨e, he, beq_iff_eq.2 hk⟩

theorem number_eq_zero_of_forall {k : Bool} (h : ∀ held ∈ events, held.isOneOf pinned = !k) :
    number (·.isOneOf pinned) k events = 0 := by
  refine List.countP_eq_zero.2 fun held hheld => ?_
  show ¬ (held.isOneOf pinned == k) = true
  rw [h held hheld]
  cases k <;> decide

/-- Where there is room for one more, the backlog grows. -/
theorem backlog_concat_of_room (h : ∀ k, roomFor m pinned (events ++ [e]) k
      = roomFor m pinned events k + if e.isOneOf pinned = k then 1 else 0) :
    backlog m pinned (events ++ [e]) = backlog m pinned events ++ [e] := by
  refine latest_concat ?_ fun j hj => ?_
  · rw [h, if_pos rfl]
  · rw [h, if_neg (Ne.symm hj), Nat.add_zero]

/-- Where one of a sort has to go for one more, its oldest one goes. -/
theorem backlog_concat_of_gone {k : Bool} (hk : 0 < roomFor m pinned events k)
    (h : ∀ j, roomFor m pinned (events ++ [e]) j + (if k = j then 1 else 0)
      = roomFor m pinned events j + if e.isOneOf pinned = j then 1 else 0) :
    backlog m pinned (events ++ [e])
      = (backlog m pinned events).eraseP (·.isOneOf pinned == k) ++ [e] := by
  -- without its oldest one, the backlog is that of a place less for this sort
  have hgone : (backlog m pinned events).eraseP (·.isOneOf pinned == k)
      = latest (·.isOneOf pinned)
        (fun j => roomFor m pinned events j - if k = j then 1 else 0) events := by
    refine eraseP_latest ?_ (fun j hj => ?_) ?_
    · rw [if_pos rfl]
      omega
    · rw [if_neg (Ne.symm hj), Nat.sub_zero]
    · rw [← number_backlog, backlog, number_latest]
      exact Nat.min_le_right _ _
  rw [hgone]
  refine latest_concat ?_ fun j hj => ?_
  · -- the new event has a place: its own sort's, or the one that has become free
    have hj := h (e.isOneOf pinned)
    rw [if_pos rfl] at hj
    split at hj
    · rename_i heq
      rw [← heq] at hj ⊢
      rw [if_pos rfl]
      omega
    · rename_i hne
      rw [if_neg hne]
      omega
  · -- the other sort keeps what it has
    have hj' := h j
    rw [if_neg (Ne.symm hj)] at hj'
    split at hj'
    · rename_i heq
      rw [if_pos heq]
      omega
    · rename_i hne
      rw [if_neg hne]
      omega

/-- **One offer.**  What it makes of a backlog is the backlog with that event. -/
theorem Offered.backlog (h : Offered m pinned e q r accepted)
    (hq : q.events = EventQueue.backlog m pinned events) :
    r.events = EventQueue.backlog m pinned (events ++ [e]) := by
  have hlength := length_backlog m pinned events
  have hothers := number_backlog m pinned events false
  rw [← hq] at hlength hothers
  -- what there is room for is settled by two numbers: how many events there are, and how many
  -- pinned ones
  have hmore := fun k => number_concat (·.isOneOf pinned) k events e
  cases h with
  | @grows held dropped hroom =>
    have hlt : held.length < m := Int.ofNat_lt.1 hroom
    rw [backlog_concat_of_room, ← hq]
    intro k
    cases k <;> cases he : e.isOneOf pinned <;>
      simp only [roomFor, hmore, he, reduceIte, reduceCtorEq] at hlength ⊢ <;> omega
  | @displaces older newer held dropped hfull holder hheld =>
    -- the one that goes is the oldest that is not pinned
    have holder' : ∀ other ∈ older, ¬ (other.isOneOf pinned == false) = true := by
      intro other ho
      rw [holder other ho]
      decide
    have hgone : (older ++ held :: newer).eraseP (·.isOneOf pinned == false) = older ++ newer := by
      rw [List.eraseP_append_right _ holder', List.eraseP_cons, hheld, beq_self_eq_true, cond_true]
    have hpos : 0 < roomFor m pinned events false := by
      rw [← hothers]
      exact number_pos_of_mem (List.mem_append_right _ List.mem_cons_self) hheld
    rw [backlog_concat_of_gone hpos, ← hq, hgone]
    intro k
    cases k <;> cases he : e.isOneOf pinned <;>
      simp only [roomFor, hmore, he, reduceIte, reduceCtorEq] at hlength hpos hfull ⊢ <;> omega
  | @succeeds oldest rest dropped hfull hall he =>
    -- all are pinned, so the one that goes is the oldest of all
    have hgone : (oldest :: rest).eraseP (·.isOneOf pinned == true) = rest := by
      rw [List.eraseP_cons, hall oldest List.mem_cons_self, beq_self_eq_true, cond_true]
    have hnone : number (·.isOneOf pinned) false (oldest :: rest) = 0 := number_eq_zero_of_forall hall
    have hpos : 0 < roomFor m pinned events true := by
      rw [← hothers, hnone, List.length_cons] at hlength
      omega
    rw [backlog_concat_of_gone hpos, ← hq, hgone]
    intro k
    cases k <;> simp only [roomFor, hmore, he, hnone, reduceIte, reduceCtorEq]
        at hlength hothers hpos hfull ⊢ <;> omega
  | @refused held dropped hfull hall he =>
    have hnone : number (·.isOneOf pinned) false held = 0 := number_eq_zero_of_forall hall
    -- all are pinned and the offered one is not: there is no room for its sort, so nothing changes
    have hsame : roomFor m pinned (events ++ [e]) = roomFor m pinned events := by
      funext k
      cases k <;> simp only [roomFor, hmore, he, hnone, reduceIte, reduceCtorEq]
          at hlength hothers hfull ⊢ <;> omega
    have hzero : roomFor m pinned (events ++ [e]) (e.isOneOf pinned) = 0 := by
      rw [hsame, he, ← hothers, hnone]
    exact hq.trans ((congrArg (latest _ · events) hsame.symm).trans (latest_concat_of_no_room hzero).symm)

/-- An operation that takes nothing adds the event that it offers, if any. -/
theorem Change.backlog {arriving : Option Event} (h : Change m pinned arriving [] q r)
    (hq : q.events = EventQueue.backlog m pinned events) :
    r.events = EventQueue.backlog m pinned (events ++ arriving.toList) := by
  cases h with
  | offered h => exact h.backlog hq
  | taken =>
    rw [Option.toList_none, List.append_nil]
    exact hq

end Backlog

end EventQueue

namespace EventBus

open EventQueue (backlog filter_latest latest_sublist number roomFor)

/-! ## A run

  Operations on other queues leave this one, and those on this one only offer events, since nothing is
  taken. -/

section Runs

variable {number m : Nat} {bus : EventBus} {s : Subscription}

/-- Whoever stays subscribed is offered all events that are asked for. -/
theorem published_cons_of_active (hs : s.active = true) (op : Operation) (ops : List Operation) :
    published s.kinds (op :: ops)
      = (op.published?.filter s.wants).toList ++ published s.kinds ops := by
  rw [published, published, List.filterMap_cons]
  cases op.published? with
  | none => rfl
  | some e =>
    have hwants : s.wants e = s.kinds.all e.isOneOf := by rw [Subscription.wants, hs, Bool.true_and]
    dsimp only
    rw [Option.filter_some, List.filter_cons, hwants]
    split <;> rfl

/-- What a run leaves in a queue that nothing is taken from, when other events were offered before. -/
theorem performAll_backlog (hm : 1 ≤ m) (ops : List Operation) :
    ∀ (bus : EventBus) {s : Subscription} {before : List Event}, bus.bound = m →
      bus.subscriptions[number]? = some s → s.active = true →
      s.queue.events = backlog m bus.pinned before →
      (∀ op ∈ ops, op.cancels number = false) → consumedAll number bus ops = [] →
      ((bus.performAll ops).queue number).events
        = backlog m bus.pinned (before ++ published s.kinds ops) := by
  induction ops with
  | nil =>
    intro bus s before _ hs _ hbefore _ _
    show (bus.queue number).events = backlog m bus.pinned (before ++ [])
    rw [queue_eq hs, hbefore, List.append_nil]
  | cons op ops ih =>
    intro bus s before hbound hs hactive hbefore hkept huntaken
    obtain ⟨hnow, hlater⟩ := List.append_eq_nil_iff.1 huntaken
    obtain ⟨t, ht, hkinds, hstays, hchange⟩ := perform_change (by omega) hs op
    rw [hnow, hbound] at hchange
    rw [hactive, hkept op List.mem_cons_self] at hstays
    -- the operation leaves the backlog of the events so far, from which the others go on
    have hnext := ih (bus.perform op) ((perform_bound bus op).trans hbound) ht hstays
      (by rw [perform_pinned]; exact hchange.backlog hbefore)
      (fun other hother => hkept other (List.mem_cons_of_mem _ hother)) hlater
    rw [perform_pinned, hkinds] at hnext
    rw [published_cons_of_active hactive, ← List.append_assoc]
    exact hnext

/-- **What a subscriber who takes nothing finds in the end.**  Somebody subscribes, stays subscribed and takes
nothing, whatever else is done on the bus.  The queue then holds, of the events published and asked for,
in their order, the last `m` pinned ones at most and the last others in the room that is left.  So the
latest pinned event is always there. -/
theorem untaken_backlog (bus : EventBus) (kinds : Option (List String)) (ops : List Operation)
    (hbound : bus.bound = m) (hm : 1 ≤ m)
    (hkept : ∀ op ∈ ops, op.cancels (bus.subscribe kinds).2 = false)
    (huntaken : consumedAll (bus.subscribe kinds).2 (bus.subscribe kinds).1 ops = []) :
    let events := published kinds ops
    let held := (((bus.subscribe kinds).1.performAll ops).queue (bus.subscribe kinds).2).events
    let pinned := events.countP (·.isOneOf bus.pinned)
    let others := events.countP (!·.isOneOf bus.pinned)
    held = backlog m bus.pinned events ∧ held <+ events ∧
      held.filter (·.isOneOf bus.pinned) = (events.filter (·.isOneOf bus.pinned)).rtake (min m pinned) ∧
      held.filter (!·.isOneOf bus.pinned)
        = (events.filter (!·.isOneOf bus.pinned)).rtake (min others (m - min m pinned)) ∧
      ∀ e, (events.filter (·.isOneOf bus.pinned)).getLast? = some e →
        (held.filter (·.isOneOf bus.pinned)).getLast? = some e := by
  intro events held pinned others
  have hopened : (bus.subscribe kinds).1.subscriptions[(bus.subscribe kinds).2]? = some { kinds } :=
    List.getElem?_concat_length
  have hnew : ({ kinds } : Subscription).queue.events = backlog m bus.pinned [] := rfl
  have hheld : held = backlog m bus.pinned events :=
    performAll_backlog hm ops (bus.subscribe kinds).1 hbound hopened rfl hnew hkept huntaken
  have hpinned : held.filter (·.isOneOf bus.pinned)
      = (events.filter (·.isOneOf bus.pinned)).rtake (min m pinned) := by
    have h := filter_latest (·.isOneOf bus.pinned) (roomFor m bus.pinned events) true events
    simp only [beq_true, roomFor, number] at h
    rw [hheld]
    exact h
  have hothers : held.filter (!·.isOneOf bus.pinned)
      = (events.filter (!·.isOneOf bus.pinned)).rtake (min others (m - min m pinned)) := by
    have h := filter_latest (·.isOneOf bus.pinned) (roomFor m bus.pinned events) false events
    simp only [beq_true, beq_false, roomFor, number] at h
    rw [hheld]
    exact h
  refine ⟨hheld, hheld ▸ latest_sublist _ _ events, hpinned, hothers, fun e he => ?_⟩
  -- there is a pinned event, and room for one at least
  have hlength : (events.filter (·.isOneOf bus.pinned)).length = pinned :=
    List.countP_eq_length_filter.symm
  have hpos : 0 < pinned := by
    rw [← hlength]
    exact List.length_pos_of_mem (List.mem_of_getLast? he)
  rw [hpinned, List.rtake, List.getLast?_drop, if_neg (by omega), he]

/-- A queue of three, with somebody else on the bus.  Both pinned events are there, and the last of the
others, which is all that there is room for. -/
theorem untaken_backlog_three :
    let bus : EventBus := { bound := 3, pinned := ["result", "error"] }
    let ops : List Operation := [.publish { kind := "first" }, .publish { kind := "result" },
      .publish { kind := "second" }, .subscribe none, .publish { kind := "error" }, .take 1,
      .publish { kind := "third" }]
    let held := (((bus.subscribe none).1.performAll ops).queue 0).events
    held.map Event.kind = ["result", "error", "third"] ∧
      held = backlog 3 bus.pinned (published none ops) ∧ held <+ published none ops ∧
      (held.filter (·.isOneOf bus.pinned)).getLast? = some { kind := "error" } := by
  intro bus ops held
  have hkept : ∀ op ∈ ops, op.cancels 0 = false := by
    have hall : (ops.all fun op => !op.cancels 0) = true := rfl
    simpa using hall
  -- the one event that is taken is taken from the other queue
  have huntaken : consumedAll 0 (bus.subscribe none).1 ops = [] := rfl
  have hlast : ((published none ops).filter (·.isOneOf bus.pinned)).getLast?
      = some { kind := "error" } := rfl
  obtain ⟨hheld, hsub, -, -, hpinned⟩ :=
    untaken_backlog bus none ops (show bus.bound = (3 : Nat) from rfl) (by decide) hkept huntaken
  exact ⟨by decide +kernel, hheld, hsub, hpinned _ hlast⟩

end Runs

end EventBus

end RobotPuzzle
