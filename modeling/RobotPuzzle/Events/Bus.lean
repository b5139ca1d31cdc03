/-
  Publishing events to everybody who subscribed.

  A subscriber has a queue of its own, known by its number, and may ask for some kinds of events only.
  Whoever cancels a subscription keeps the queue with what is in it, but nothing more arrives, and
  nothing is known any more of what was refused.
-/
import RobotPuzzle.Events.Queue

namespace RobotPuzzle

/-- One subscription. -/
structure Subscription where
  /-- the kinds asked for; without any list, all of them -/
  kinds : Option (List String)
  /-- new events arrive; otherwise only those in the queue can still be taken -/
  active : Bool := true
  /-- what has not been taken yet -/
  queue : EventQueue := {}
deriving Inhabited

/-- The subscriber asked for events of this kind. -/
def Subscription.wants (s : Subscription) (e : Event) : Bool :=
  s.active && s.kinds.all e.isOneOf

/-- A bus: the bound of every queue, the kinds that are pinned, and the subscriptions by number. -/
structure EventBus where
  /-- how many events a queue holds -/
  bound : Int := 100
  /-- the kinds that are never evicted -/
  pinned : List String := []
  /-- all there ever were, by number -/
  subscriptions : List Subscription := []
deriving Inhabited

namespace EventBus

/-- A new subscription; its number is that of the subscriptions so far. -/
def subscribe (bus : EventBus) (kinds : Option (List String)) : EventBus × Nat :=
  ({ bus with subscriptions := bus.subscriptions ++ [{ kinds }] }, bus.subscriptions.length)

/-- Delivers an event to one subscriber; the answer tells whether it was accepted. -/
def deliver (bus : EventBus) (e : Event) (s : Subscription) : Subscription × Bool :=
  if s.wants e then
    let (queue, accepted) := s.queue.offer bus.bound bus.pinned e
    ({ s with queue }, accepted)
  else (s, false)

/-- Publishes an event; the answer is the number of subscribers that accepted it. -/
def publish (bus : EventBus) (e : Event) : EventBus × Nat :=
  let delivered := bus.subscriptions.map (bus.deliver e)
  ({ bus with subscriptions := delivered.map Prod.fst }, delivered.countP Prod.snd)

/-- Publishes events in order. -/
def publishAll (bus : EventBus) (events : List Event) : EventBus :=
  events.foldl (fun bus e => (bus.publish e).1) bus

/-- Cancels a subscription. -/
def unsubscribe (bus : EventBus) (number : Nat) : EventBus :=
  { bus with
    subscriptions := bus.subscriptions.modify number fun s =>
      { s with active := false, queue := { s.queue with dropped := 0 } } }

/-- The queue of that number; an empty one if there is none. -/
def queue (bus : EventBus) (number : Nat) : EventQueue :=
  (bus.subscriptions[number]?.map Subscription.queue).getD {}

/-- Puts back a queue from which events were taken. -/
def setQueue (bus : EventBus) (number : Nat) (queue : EventQueue) : EventBus :=
  { bus with subscriptions := bus.subscriptions.modify number fun s => { s with queue } }

/-- Takes the oldest event from a queue. -/
def take? (bus : EventBus) (number : Nat) : Option (Event × EventBus) :=
  (bus.queue number).take?.map fun (e, queue) => (e, bus.setQueue number queue)

/-- Takes all events from a queue. -/
def drain (bus : EventBus) (number : Nat) : List Event × EventBus :=
  let (events, queue) := (bus.queue number).drain
  (events, bus.setQueue number queue)

/-- The pinned kinds, each once, in order. -/
def pinnedKinds (bus : EventBus) : List String :=
  bus.pinned.eraseDups.mergeSort fun a b => a ≤ b

end EventBus

end RobotPuzzle
