/-
  Bounded queues of events, some kinds of which are pinned.

  A full queue makes room for a new event by giving up its oldest event of a kind that is not pinned.
  When it holds nothing but pinned events, a pinned event takes the place of the oldest one, and any
  other event is refused and counted.

  What an accepted event displaces is told by `makeRoom?`.
-/
import RobotPuzzle.Json.Basic

namespace RobotPuzzle

/-- Something that happened; `null` data is none. -/
structure Event where
  /-- what a subscription asks for -/
  kind : String
  data : Json := .null
deriving Inhabited

namespace Event

def toJson (e : Event) : Json :=
  match e.data with
  | .null => .obj [("type", .str e.kind)]
  | data => .obj [("type", .str e.kind), ("data", data)]

/-- The event is of one of these kinds. -/
def isOneOf (kinds : List String) (e : Event) : Bool := kinds.contains e.kind

end Event

/-- A queue of events. -/
structure EventQueue where
  /-- the oldest first -/
  events : List Event := []
  /-- how many events were refused -/
  dropped : Nat := 0
deriving Inhabited

namespace EventQueue

/-- There is room for one more; a bound that is not positive is none. -/
def hasRoom (bound : Int) (events : List Event) : Bool := bound ≤ 0 || events.length < bound

/-- What is left when room is made for an event; `none` if it has to be refused. -/
def makeRoom? (pinned : List String) (e : Event) (events : List Event) : Option (List Event) :=
  if events.any fun held => !held.isOneOf pinned then
    some (events.eraseP fun held => !held.isOneOf pinned)
  else if e.isOneOf pinned && !events.isEmpty then some events.tail
  else none

/-- Offers an event; the answer tells whether it was accepted. -/
def offer (bound : Int) (pinned : List String) (q : EventQueue) (e : Event) : EventQueue × Bool :=
  if hasRoom bound q.events then ({ q with events := q.events ++ [e] }, true)
  else
    match makeRoom? pinned e q.events with
    | some rest => ({ q with events := rest ++ [e] }, true)
    | none => ({ q with dropped := q.dropped + 1 }, false)

/-- Takes the oldest event. -/
def take? (q : EventQueue) : Option (Event × EventQueue) :=
  match q.events with
  | [] => none
  | e :: rest => some (e, { q with events := rest })

/-- Takes all events. -/
def drain (q : EventQueue) : List Event × EventQueue := (q.events, { q with events := [] })

end EventQueue

end RobotPuzzle
