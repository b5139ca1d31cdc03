/-
  What reaches a subscriber, and what is lost on the way.

  1. **Offers** — an offer has one of four outcomes (`Offered`, `offer_offered`), and the answer is no in the
     last of them only.
  2. **Operations** — publishing, taking, and subscribers who come and go.  For each subscription, an
     operation either takes events from the front of its queue or offers it an event (`Change`).
  3. **Runs** — so in any run the events taken and those still queued are some of the events published, in
     order (`performAll_follows`).  What one more operation can do is then known as well
     (`deliveries_orderly`).

  The crux is `Change`: for one queue every operation on the bus is an offer or a removal from the front,
  or nothing.  An order that offers and removals keep is kept whatever publishers and subscribers do, so
  runs are by induction on the operations with one case each.

  All of it is said of one subscription, with whatever else is going on: the subscriber may come late,
  others may come and go, and events may be of kinds that nobody has asked for.  Order, loss and refusal
  are about the same queue at the same time, so they stand in one theorem; and since it is about any run,
  what it says of one more operation holds at any point.
-/
import RobotPuzzle.Events.Bus

namespace RobotPuzzle

open scoped List

namespace EventQueue

/-! ## Offers

  A full queue makes room by giving up its oldest event that is not pinned.  Only a queue full of pinned
  events may be closed to an event, and only to one that is not pinned itself. -/

/-- What an offer makes of a queue, and the answer to it. -/
inductive Offered (bound : Int) (pinned : List String) (e : Event) :
    EventQueue → EventQueue → Bool → Prop
  /-- There is room. -/
  | grows {events : List Event} {dropped : Nat} :
      (events.length : Int) < bound →
      Offered bound pinned e ⟨events, dropped⟩ ⟨events ++ [e], dropped⟩ true
  /-- The queue is full, and its oldest event that is not pinned is given up. -/
  | displaces {older newer : List Event} {held : Event} {dropped : Nat} :
      bound ≤ (older ++ held :: newer).length →
      (∀ other ∈ older, other.isOneOf pinned = true) → held.isOneOf pinned = false →
      Offered bound pinned e ⟨older ++ held :: newer, dropped⟩ ⟨older ++ newer ++ [e], dropped⟩ true
  /-- The queue is full of pinned events, and the oldest one is given up for another pinned one. -/
  | succeeds {oldest : Event} {rest : List Event} {dropped : Nat} :
      bound ≤ (oldest :: rest).length →
      (∀ held ∈ oldest :: rest, held.isOneOf pinned = true) → e.isOneOf pinned = true →
      Offered bound pinned e ⟨oldest :: rest, dropped⟩ ⟨rest ++ [e], dropped⟩ true
  /-- The queue is full of pinned events, and the event is not pinned. -/
  | refused {events : List Event} {dropped : Nat} :
      bound ≤ events.length →
      (∀ held ∈ events, held.isOneOf pinned = true) → e.isOneOf pinned = false →
      Offered bound pinned e ⟨events, dropped⟩ ⟨events, dropped + 1⟩ false

section Offered

variable {bound : Int} {pinned : List String} {e : Event} {q r : EventQueue} {accepted : Bool}

/-- What is given up for an event. -/
theorem makeRoom?_cases (pinned : List String) (e : Event) (events : List Event) :
    (∃ older held newer, events = older ++ held :: newer ∧
        (∀ other ∈ older, other.isOneOf pinned = true) ∧ held.isOneOf pinned = false ∧
        makeRoom? pinned e events = some (older ++ newer)) ∨
      (∀ held ∈ events, held.isOneOf pinned = true) ∧
        ((e.isOneOf pinned = true ∧ ∃ oldest rest, events = oldest :: rest ∧
            makeRoom? pinned e events = some rest) ∨
          ((e.isOneOf pinned = false ∨ events = []) ∧ makeRoom? pinned e events = none)) := by
  by_cases hany : events.any (fun held => !held.isOneOf pinned) = true
  · obtain ⟨found, hmem, hfound⟩ := List.any_eq_true.1 hany
    -- the oldest one that is not pinned goes
    have hsplit := List.exists_of_eraseP (p := fun held => !held.isOneOf pinned) hmem hfound
    obtain ⟨held, older, newer, holder, hheld, hevents, hrest⟩ := hsplit
    refine .inl ⟨older, held, newer, hevents, ?_, ?_, by rw [makeRoom?, if_pos hany, hrest]⟩
    · intro other ho
      simpa using holder other ho
    · simpa using hheld
  · -- all are pinned: only a pinned event makes the oldest one go
    have hall : ∀ held ∈ events, held.isOneOf pinned = true := by simpa using hany
    refine .inr ⟨hall, ?_⟩
    rw [makeRoom?, if_neg hany]
    cases e.isOneOf pinned with
    | false => exact .inr ⟨.inl rfl, rfl⟩
    | true =>
      cases events with
      | nil => exact .inr ⟨.inr rfl, rfl⟩
      | cons oldest rest => exact .inl ⟨rfl, oldest, rest, rfl, rfl⟩

/-- **Every offer** has one of the four outcomes. -/
theorem offer_offered (hb : 1 ≤ bound) (pinned : List String) (q : EventQueue) (e : Event) :
    Offered bound pinned e q (q.offer bound pinned e).1 (q.offer bound pinned e).2 := by
  obtain ⟨events, dropped⟩ := q
  have hroom : hasRoom bound events = decide ((events.length : Int) < bound) := by
    rw [hasRoom, decide_eq_false (by omega)]
    rfl
  rw [offer, hroom]
  by_cases hlt : (events.length : Int) < bound
  · rw [decide_eq_true hlt]
    exact .grows hlt
  · have hfull : bound ≤ events.length := Int.not_lt.1 hlt
    rw [decide_eq_false hlt]
    obtain ⟨older, held, newer, rfl, holder, hheld, hmake⟩ | ⟨hall, h⟩ :=
      makeRoom?_cases pinned e events
    · rw [hmake]
      exact .displaces hfull holder hheld
    · obtain ⟨hp, oldest, rest, rfl, hmake⟩ | ⟨hp | rfl, hmake⟩ := h
      · rw [hmake]
        exact .succeeds hfull hall hp
      · rw [hmake]
        exact .refused hfull hall hp
      · -- a queue without events has room
        rw [List.length_nil] at hfull
        omega

/-- No offer makes a queue longer than its bound. -/
theorem Offered.length_le (h : Offered bound pinned e q r accepted)
    (hq : (q.events.length : Int) ≤ bound) : (r.events.length : Int) ≤ bound := by
  cases h with
  | grows h =>
    simp only [List.length_append, List.length_cons, List.length_nil]
    omega
  | displaces | succeeds =>
    simp only [List.length_append, List.length_cons, List.length_nil] at hq ⊢
    omega
  | refused => exact hq

/-- Nothing is put in another order or put in twice. -/
theorem Offered.sublist (h : Offered bound pinned e q r accepted) :
    r.events <+ q.events ++ [e] := by
  cases h with
  | grows => exact List.Sublist.refl _
  | displaces =>
    exact ((List.Sublist.refl _).append (List.sublist_cons_self _ _)).append_right [e]
  | succeeds => exact (List.sublist_cons_self _ _).append_right [e]
  | refused => exact List.sublist_append_left _ _

/-- An event that was accepted is the newest in the queue. -/
theorem Offered.newest (h : Offered bound pinned e q r true) :
    r.events.getLast? = some e ∧ r.dropped = q.dropped := by
  cases h with
  | grows | displaces | succeeds => exact ⟨List.getLast?_concat, rfl⟩

theorem Offered.unchanged (h : Offered bound pinned e q r false) :
    r = { q with dropped := q.dropped + 1 } := by
  cases h with
  | refused => rfl

/-- An offer is refused just by a queue that is full of pinned events, if it is not pinned itself. -/
theorem Offered.refused_iff (h : Offered bound pinned e q r accepted) :
    accepted = false ↔ bound ≤ q.events.length ∧
      (∀ held ∈ q.events, held.isOneOf pinned = true) ∧ e.isOneOf pinned = false := by
  cases h with
  | grows hroom => exact ⟨fun h => (nomatch h), fun ⟨hfull, _⟩ => absurd hroom (Int.not_lt.2 hfull)⟩
  | @displaces older newer held dropped _ _ hheld =>
    refine ⟨fun h => (nomatch h), fun ⟨_, hall, _⟩ => ?_⟩
    have := hall held (List.mem_append_right _ List.mem_cons_self)
    rw [hheld] at this
    cases this
  | succeeds _ _ hp =>
    refine ⟨fun h => (nomatch h), fun ⟨_, _, hunpinned⟩ => ?_⟩
    rw [hp] at hunpinned
    cases hunpinned
  | refused hfull hall hp => exact ⟨fun _ => ⟨hfull, hall, hp⟩, fun _ => rfl⟩

/-- The answer to an offer, computed from the queue and the event. -/
theorem Offered.accepted_eq (h : Offered bound pinned e q r accepted) :
    accepted = !(bound ≤ q.events.length && q.events.all (·.isOneOf pinned) && !e.isOneOf pinned) := by
  apply Bool.not_inj
  rw [Bool.not_not, Bool.eq_iff_iff, Bool.not_eq_true', h.refused_iff]
  simp only [Bool.and_eq_true, decide_eq_true_eq, List.all_eq_true, Bool.not_eq_true', and_assoc]

end Offered

/-- What an operation does to a queue: it offers the event that arrives, or takes some events from the
front.  How many were refused may be forgotten. -/
inductive Change (bound : Int) (pinned : List String) :
    Option Event → List Event → EventQueue → EventQueue → Prop
  /-- an event that is asked for is offered -/
  | offered {e : Event} {q r : EventQueue} {accepted : Bool} :
      Offered bound pinned e q r accepted → Change bound pinned (some e) [] q r
  /-- or some are taken from the front, which may be none -/
  | taken {front rest : List Event} {dropped dropped' : Nat} :
      dropped' = dropped ∨ dropped' = 0 →
      Change bound pinned none front ⟨front ++ rest, dropped⟩ ⟨rest, dropped'⟩

section Change

variable {bound : Int} {pinned : List String} {arriving : Option Event} {front : List Event}
  {q r : EventQueue}

theorem Change.same (q : EventQueue) : Change bound pinned none [] q q :=
  .taken (.inl rfl)

theorem Change.length_le (h : Change bound pinned arriving front q r)
    (hq : (q.events.length : Int) ≤ bound) : (r.events.length : Int) ≤ bound := by
  cases h with
  | offered h => exact h.length_le hq
  | taken =>
    simp only [List.length_append] at hq ⊢
    omega

/-- What is taken and what stays is what was there and what arrives, in order, with some left out perhaps.
-/
theorem Change.sublist (h : Change bound pinned arriving front q r) :
    front ++ r.events <+ q.events ++ arriving.toList := by
  cases h with
  | offered h => exact h.sublist
  | taken => exact List.sublist_append_left _ _

end Change

end EventQueue

namespace EventBus

open EventQueue (Offered Change offer_offered)

/-! ## Operations

  Subscriptions are numbered in the order in which they were made, and the number of a subscription stays
  its own when others come and go. -/

/-- What publishers and subscribers do. -/
inductive Operation where
  /-- an event for all who ask for its kind -/
  | publish (e : Event)
  /-- somebody takes the oldest event -/
  | take (number : Nat)
  /-- somebody takes all events -/
  | drain (number : Nat)
  /-- somebody comes, and asks for some kinds or for all -/
  | subscribe (kinds : Option (List String))
  /-- somebody goes -/
  | unsubscribe (number : Nat)

namespace Operation

/-- The event that is published. -/
def published? : Operation → Option Event
  | publish e => some e
  | _ => none

/-- The operation cancels the subscription of that number. -/
def cancels (number : Nat) : Operation → Bool
  | unsubscribe n => n == number
  | _ => false

end Operation

/-- The bus after an operation. -/
def perform (bus : EventBus) : Operation → EventBus
  | .publish e => (bus.publish e).1
  | .take n => ((bus.take? n).map Prod.snd).getD bus
  | .drain n => (bus.drain n).2
  | .subscribe kinds => (bus.subscribe kinds).1
  | .unsubscribe n => bus.unsubscribe n

/-- The events that an operation takes from the queue of that number. -/
def consumed (bus : EventBus) (number : Nat) : Operation → List Event
  | .take n => if n = number then ((bus.take? n).map Prod.fst).toList else []
  | .drain n => if n = number then (bus.drain n).1 else []
  | _ => []

/-- The bus after operations. -/
def performAll (bus : EventBus) (ops : List Operation) : EventBus := ops.foldl perform bus

/-- The events that operations take from the queue of that number. -/
def consumedAll (number : Nat) : EventBus → List Operation → List Event
  | _, [] => []
  | bus, op :: ops => bus.consumed number op ++ consumedAll number (bus.perform op) ops

/-- The events of the kinds asked for that operations publish. -/
def published (kinds : Option (List String)) (ops : List Operation) : List Event :=
  (ops.filterMap Operation.published?).filter fun e => kinds.all e.isOneOf

/-- The subscriber asks for the event, and the queue is not full of pinned events while the event is not
pinned. -/
def accepts (bus : EventBus) (e : Event) (s : Subscription) : Bool :=
  s.wants e && !(bus.bound ≤ s.queue.events.length && s.queue.events.all (·.isOneOf bus.pinned)
    && !e.isOneOf bus.pinned)

section Operations

variable {bus : EventBus} {number : Nat} {s : Subscription}

@[simp] theorem perform_bound (bus : EventBus) (op : Operation) :
    (bus.perform op).bound = bus.bound := by
  cases op with
  | take n =>
    rw [perform, take?]
    cases (bus.queue n).take? <;> rfl
  | _ => rfl

@[simp] theorem perform_pinned (bus : EventBus) (op : Operation) :
    (bus.perform op).pinned = bus.pinned := by
  cases op with
  | take n =>
    rw [perform, take?]
    cases (bus.queue n).take? <;> rfl
  | _ => rfl

/-- Publishing delivers the event to every subscription, each for itself. -/
theorem publish_getElem? (bus : EventBus) (e : Event) (i : Nat) :
    (bus.publish e).1.subscriptions[i]? = bus.subscriptions[i]?.map fun s => (bus.deliver e s).1 := by
  rw [publish, List.map_map, List.getElem?_map]
  rfl

theorem take?_cases (bus : EventBus) (n : Nat) :
    ((bus.queue n).events = [] ∧ bus.take? n = none) ∨
      ∃ e rest, (bus.queue n).events = e :: rest ∧
        bus.take? n = some (e, bus.setQueue n { bus.queue n with events := rest }) := by
  rw [take?, EventQueue.take?]
  cases (bus.queue n).events with
  | nil => exact .inl ⟨rfl, rfl⟩
  | cons e rest => exact .inr ⟨e, rest, rfl, rfl⟩

theorem queue_eq (hs : bus.subscriptions[number]? = some s) : bus.queue number = s.queue := by
  rw [queue, hs]
  rfl

/-- The event is accepted exactly if the subscriber asks for it and the queue is not closed to it. -/
theorem deliver_accepts (bus : EventBus) (e : Event) (s : Subscription) (hb : 1 ≤ bus.bound) :
    (bus.deliver e s).2 = bus.accepts e s := by
  rw [deliver, accepts]
  cases s.wants e with
  | false => rfl
  | true => exact (offer_offered hb bus.pinned s.queue e).accepted_eq

/-- The answer of `publish` counts the subscriptions that accept the event. -/
theorem publish_answer (bus : EventBus) (e : Event) (hb : 1 ≤ bus.bound) :
    (bus.publish e).2 = bus.subscriptions.countP (bus.accepts e) := by
  rw [publish, List.countP_map]
  refine List.countP_congr fun s _ => ?_
  rw [Function.comp_apply, deliver_accepts bus e s hb]

/-- The queue of a subscription that wants the event, after it was published. -/
theorem publish_offered {e : Event} (hb : 1 ≤ bus.bound) (hs : bus.subscriptions[number]? = some s)
    (hw : s.wants e = true) :
    ∃ r, (bus.publish e).1.subscriptions[number]? = some { s with queue := r } ∧
      Offered bus.bound bus.pinned e s.queue r (bus.accepts e s) := by
  have hoffered := offer_offered hb bus.pinned s.queue e
  have haccepts : (s.queue.offer bus.bound bus.pinned e).2 = bus.accepts e s := by
    rw [← deliver_accepts bus e s hb, deliver, if_pos hw]
  rw [haccepts] at hoffered
  refine ⟨_, ?_, hoffered⟩
  rw [publish_getElem?, hs, Option.map_some, deliver, if_pos hw]

theorem modify_getElem? (n : Nat) (f : Subscription → Subscription)
    (hs : bus.subscriptions[number]? = some s) :
    (bus.subscriptions.modify n f)[number]? = some (if n = number then f s else s) := by
  rw [List.getElem?_modify, hs]
  rfl

/-- Some events are taken from the front of a queue. -/
theorem setQueue_change {n : Nat} {front rest : List Event}
    (hs : bus.subscriptions[number]? = some s) (hfront : (bus.queue n).events = front ++ rest) :
    ∃ t, (bus.setQueue n { bus.queue n with events := rest }).subscriptions[number]? = some t ∧
      t.kinds = s.kinds ∧ t.active = s.active ∧
      Change bus.bound bus.pinned none (if n = number then front else []) s.queue t.queue := by
  rw [setQueue, modify_getElem? n _ hs]
  by_cases hn : n = number
  · subst hn
    rw [queue_eq hs] at hfront ⊢
    obtain ⟨kinds, active, events, dropped⟩ := s
    simp only at hfront
    subst hfront
    rw [if_pos rfl, if_pos rfl]
    exact ⟨_, rfl, rfl, rfl, .taken (.inl rfl)⟩
  · rw [if_neg hn, if_neg hn]
    exact ⟨s, rfl, rfl, rfl, .same _⟩

/-- What an operation does to a subscription. -/
theorem perform_change (hb : 1 ≤ bus.bound) (hs : bus.subscriptions[number]? = some s)
    (op : Operation) :
    ∃ t, (bus.perform op).subscriptions[number]? = some t ∧ t.kinds = s.kinds ∧
      t.active = (s.active && !op.cancels number) ∧
      Change bus.bound bus.pinned (op.published?.filter s.wants) (bus.consumed number op) s.queue
        t.queue := by
  have hactive : s.active = (s.active && !false) := (Bool.and_true _).symm
  cases op with
  | publish e =>
    by_cases hw : s.wants e = true
    · obtain ⟨r, ht, hoffered⟩ := publish_offered hb hs hw
      refine ⟨_, ht, rfl, hactive, ?_⟩
      rw [Operation.published?, Option.filter_some, if_pos hw]
      exact .offered hoffered
    · refine ⟨s, ?_, rfl, hactive, ?_⟩
      · rw [perform, publish_getElem?, hs, Option.map_some, deliver, if_neg hw]
      · rw [Operation.published?, Option.filter_some, if_neg hw]
        exact .same _
  | take n =>
    rw [perform, consumed]
    obtain ⟨-, htake⟩ | ⟨e, rest, hcons, htake⟩ := take?_cases bus n
    · -- no queue has changed, though it may be this one that was asked
      rw [htake]
      refine ⟨s, hs, rfl, hactive, ?_⟩
      have hnone : (if n = number then ((none : Option (Event × EventBus)).map Prod.fst).toList else [])
          = [] := ite_self _
      rw [hnone]
      exact .same _
    · rw [htake]
      obtain ⟨t, ht, hkinds, hsame, hchange⟩ :=
        setQueue_change hs (show _ = [e] ++ rest from hcons)
      exact ⟨t, ht, hkinds, hsame.trans hactive, hchange⟩
  | drain n =>
    obtain ⟨t, ht, hkinds, hsame, hchange⟩ :=
      setQueue_change hs (List.append_nil (bus.queue n).events).symm
    exact ⟨t, ht, hkinds, hsame.trans hactive, hchange⟩
  | subscribe kinds =>
    refine ⟨s, ?_, rfl, hactive, .same _⟩
    rw [perform, subscribe, List.getElem?_append_left (List.getElem?_eq_some_iff.1 hs).1, hs]
  | unsubscribe n =>
    rw [perform, unsubscribe, modify_getElem? n _ hs]
    by_cases hn : n = number
    · rw [if_pos hn]
      refine ⟨_, rfl, rfl, ?_, .taken (.inr rfl)⟩
      rw [Operation.cancels, beq_iff_eq.2 hn]
      exact (Bool.and_false _).symm
    · rw [if_neg hn]
      refine ⟨s, rfl, rfl, ?_, .same _⟩
      rw [Operation.cancels, beq_eq_false_iff_ne.2 hn]
      exact hactive

end Operations

/-! ## Runs

  What is published before somebody subscribes does not concern that subscription, so only the operations
  behind count. -/

section Runs

variable {bus : EventBus} {number : Nat}

/-- The event of the first operation comes first, if it is wanted. -/
theorem published_cons (s : Subscription) (op : Operation) (ops : List Operation) :
    (op.published?.filter s.wants).toList ++ published s.kinds ops <+
      published s.kinds (op :: ops) := by
  rw [published, published, List.filterMap_cons]
  cases op.published? with
  | none => exact List.Sublist.refl _
  | some e =>
    dsimp only
    rw [Option.filter_some]
    by_cases hw : s.wants e = true
    · have hkinds : s.kinds.all e.isOneOf = true := (Bool.and_eq_true_iff.1 hw).2
      rw [if_pos hw, List.filter_cons_of_pos (p := fun e : Event => s.kinds.all e.isOneOf) hkinds]
      exact List.Sublist.refl _
    · -- an event of a kind asked for may be published after the subscription was cancelled
      rw [if_neg hw]
      exact (List.sublist_cons_self _ _).filter _

/-- A run takes the events of a queue and then those that are published and wanted, in order, and leaves
some of them out. -/
theorem performAll_follows (ops : List Operation) :
    ∀ (bus : EventBus) {s : Subscription}, 1 ≤ bus.bound → bus.subscriptions[number]? = some s →
      (s.queue.events.length : Int) ≤ bus.bound →
      ∃ t, (bus.performAll ops).subscriptions[number]? = some t ∧ t.kinds = s.kinds ∧
        t.active = (s.active && ops.all fun op => !op.cancels number) ∧
        (t.queue.events.length : Int) ≤ bus.bound ∧
        consumedAll number bus ops ++ t.queue.events <+ s.queue.events ++ published s.kinds ops := by
  induction ops with
  | nil =>
    intro bus s _ hs hlen
    refine ⟨s, hs, rfl, (Bool.and_true _).symm, hlen, ?_⟩
    exact List.sublist_append_left _ _
  | cons op ops ih =>
    intro bus s hb hs hlen
    obtain ⟨next, hnext, hkinds, hactive, hchange⟩ := perform_change hb hs op
    have hbound := perform_bound bus op
    have hlen' := hchange.length_le hlen
    rw [← hbound] at hb hlen' ⊢
    obtain ⟨t, ht, hkinds', hactive', hlen'', hsub⟩ := ih _ hb hnext hlen'
    refine ⟨t, ht, hkinds'.trans hkinds, ?_, hlen'', ?_⟩
    · rw [hactive', hactive, List.all_cons, Bool.and_assoc]
    · -- the rest of the run starts from the next queue, which came from the first one
      rw [hkinds] at hsub
      rw [consumedAll, List.append_assoc]
      calc bus.consumed number op ++ (consumedAll number (bus.perform op) ops ++ t.queue.events)
        _ <+ bus.consumed number op ++ (next.queue.events ++ published s.kinds ops) :=
          hsub.append_left _
        _ = bus.consumed number op ++ next.queue.events ++ published s.kinds ops :=
          (List.append_assoc _ _ _).symm
        _ <+ s.queue.events ++ (op.published?.filter s.wants).toList ++ published s.kinds ops :=
          hchange.sublist.append_right _
        _ = s.queue.events ++ ((op.published?.filter s.wants).toList ++ published s.kinds ops) :=
          List.append_assoc _ _ _
        _ <+ s.queue.events ++ published s.kinds (op :: ops) :=
          (published_cons s op ops).append_left _

@[simp] theorem performAll_bound (ops : List Operation) :
    ∀ bus : EventBus, (bus.performAll ops).bound = bus.bound := by
  induction ops with
  | nil => intro bus; rfl
  | cons op ops ih =>
    intro bus
    exact (ih _).trans (perform_bound bus op)

@[simp] theorem performAll_pinned (ops : List Operation) :
    ∀ bus : EventBus, (bus.performAll ops).pinned = bus.pinned := by
  induction ops with
  | nil => intro bus; rfl
  | cons op ops ih =>
    intro bus
    exact (ih _).trans (perform_pinned bus op)

/-- **A queue keeps the order and gives up pinned events last.**  Somebody subscribes, whatever happened on
the bus before, and then publishers and subscribers do whatever they like.  The queue is never longer than
its bound; what was taken from it and then what is in it are events that were published and asked for, in
that order, none of them twice.  Whatever is done next either takes events from the front of the queue, or
publishes an event that is asked for: that event goes to the end of the queue, and what has to give way
is the oldest event that is not pinned, or the oldest one if all are pinned and the new one is as well.  A
pinned event is always accepted.  One that is not pinned is refused exactly if the queue is full of pinned
ones; then the queue stays as it is, and the refusal is counted.  Publishing answers how many
subscriptions accept the event. -/
theorem deliveries_orderly (bus : EventBus) (kinds : Option (List String)) (ops : List Operation)
    (hb : 1 ≤ bus.bound) :
    let opened := (bus.subscribe kinds).1
    let number := (bus.subscribe kinds).2
    let now := opened.performAll ops
    ∃ s, now.subscriptions[number]? = some s ∧ s.kinds = kinds ∧
      s.active = (ops.all fun op => !op.cancels number) ∧
      (s.queue.events.length : Int) ≤ bus.bound ∧
      consumedAll number opened ops ++ s.queue.events <+ published kinds ops ∧
      (∀ op, ∃ t, (now.perform op).subscriptions[number]? = some t ∧
        Change bus.bound bus.pinned (op.published?.filter s.wants) (now.consumed number op) s.queue
          t.queue) ∧
      (∀ e, s.wants e = true → ∃ t, (now.publish e).1.subscriptions[number]? = some t ∧
        Offered bus.bound bus.pinned e s.queue t.queue (now.accepts e s) ∧
        (e.isOneOf bus.pinned = true → now.accepts e s = true) ∧
        (e.isOneOf bus.pinned = false → (now.accepts e s = false ↔
          (s.queue.events.length : Int) = bus.bound ∧
            ∀ held ∈ s.queue.events, held.isOneOf bus.pinned = true)) ∧
        (now.accepts e s = true → t.queue.events.getLast? = some e ∧ t.queue.dropped = s.queue.dropped) ∧
        (now.accepts e s = false → t.queue = { s.queue with dropped := s.queue.dropped + 1 })) ∧
      ∀ e, (now.publish e).2 = now.subscriptions.countP (now.accepts e) := by
  intro opened number now
  -- the new queue is empty, and it is followed through what the others do
  have hopened : opened.subscriptions[number]? = some { kinds } := List.getElem?_concat_length
  have hbound : now.bound = bus.bound := performAll_bound ops opened
  have hpinned : now.pinned = bus.pinned := performAll_pinned ops opened
  obtain ⟨s, hs, hkinds, hactive, hlen, hsub⟩ :=
    performAll_follows ops opened hb hopened (by show (0 : Int) ≤ bus.bound; omega)
  have hnow : 1 ≤ now.bound := by rw [hbound]; exact hb
  have hle : (s.queue.events.length : Int) ≤ bus.bound := hlen
  -- the queue is never longer than the bound, so it is full just if it is that long
  have hfull : bus.bound ≤ s.queue.events.length ↔ (s.queue.events.length : Int) = bus.bound := by
    omega
  refine ⟨s, hs, hkinds, hactive, hle, hsub, fun op => ?_, fun e hw => ?_, fun e => ?_⟩
  · obtain ⟨t, ht, -, -, hchange⟩ := perform_change hnow hs op
    rw [hbound, hpinned] at hchange
    exact ⟨t, ht, hchange⟩
  · obtain ⟨r, ht, hoffered⟩ := publish_offered hnow hs hw
    rw [hbound, hpinned] at hoffered
    have hrefused := hoffered.refused_iff
    rw [hfull] at hrefused
    refine ⟨_, ht, hoffered, fun hp => ?_, fun hp => ?_, fun h => ?_, fun h => ?_⟩
    · rw [hp] at hrefused
      simpa using hrefused
    · rw [hp] at hrefused
      simpa using hrefused
    · rw [h] at hoffered
      exact hoffered.newest
    · rw [h] at hoffered
      exact hoffered.unchanged
  · exact publish_answer now e hnow

/-- A queue of two, in which results are pinned.  The first event was taken from it; the second one that
is not pinned gave way to a result, and another one is refused. -/
theorem deliveries_orderly_two :
    let progress : Event := { kind := "progress" }
    let result : Event := { kind := "result" }
    let opened := (EventBus.subscribe { bound := 2, pinned := ["result"] } none).1
    let ops := [.publish progress, .publish result, .take 0, .publish progress, .publish result]
    let now := opened.performAll ops
    ∃ s, now.subscriptions[0]? = some s ∧
      s.queue.events.map Event.kind = ["result", "result"] ∧
      (consumedAll 0 opened ops).map Event.kind = ["progress"] ∧
      consumedAll 0 opened ops ++ s.queue.events <+ published none ops ∧
      now.accepts progress s = false ∧ now.accepts result s = true ∧
      (now.publish progress).2 = 0 ∧
      ∃ t, (now.publish progress).1.subscriptions[0]? = some t ∧
        t.queue = { s.queue with dropped := s.queue.dropped + 1 } := by
  intro progress result opened ops now
  obtain ⟨s, hs, -, -, -, hsub, -, hpublish, hcount⟩ :=
    deliveries_orderly { bound := 2, pinned := ["result"] } none ops (by decide)
  have hnow : s = { kinds := none, queue := { events := [result, result] } } :=
    (Option.some_inj.1 hs).symm
  have hqueue : s.queue.events = [result, result] := congrArg (fun s => s.queue.events) hnow
  have hwants : ∀ e, s.wants e = true := by rw [hnow]; exact fun _ => rfl
  obtain ⟨t, ht, -, -, hrefused, -, hunchanged⟩ := hpublish progress (hwants progress)
  obtain ⟨-, -, -, haccepted, -⟩ := hpublish result (hwants result)
  -- the queue holds pinned events only, so that one which is not pinned is refused
  have hno : now.accepts progress s = false := by
    refine (hrefused (by decide)).2 ⟨by rw [hqueue]; rfl, fun held hheld => ?_⟩
    rw [hqueue] at hheld
    have : held = result := by simpa using hheld
    rw [this]
    decide
  have hone : now.subscriptions = [s] := by rw [hnow]; rfl
  refine ⟨s, hs, by rw [hqueue]; rfl, rfl, hsub, hno, haccepted (by decide), ?_, t, ht, hunchanged hno⟩
  rw [hcount, hone, List.countP_singleton, hno]
  rfl

end Runs

end EventBus

end RobotPuzzle
