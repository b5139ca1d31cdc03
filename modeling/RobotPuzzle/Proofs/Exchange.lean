/-
  A subscriber who takes messages while the publisher makes room.

  1. **Moves** — publishing puts a message into the queue.  If the queue is full, the publisher first takes
     everything out, one by one, and puts it back, one by one, without the message that is given up.
     Between any two of these steps the subscriber may take the oldest message in the queue
     (`Exchange.run`).  Steps that nobody interrupts are an offer (`publish_alone`).
  2. **Room** — messages always can be put back (`Roomy`).
  3. **The line** — what is in the queue and what the publisher holds stands in a line, the oldest in front.
     A message joins at its end, some leave it, and the subscriber takes one: the first, or the first
     behind those that the publisher has taken out (`Shifts`).
  4. **Order** — so a message comes too late exactly if the publisher held it while the subscriber took
     another (`Orderly`, `received_ordered_iff`), which can happen (`not_ordered_while_draining`).

  The crux is that one list, the line, takes the place of queue, publisher and pending message together.
  The many steps of the publisher then do one of two things to it, nothing or a removal, so that the order
  has to be shown for three kinds of moves and not for every stage.

  The moves of the two sides are a list, so a run is any interleaving of them.  What is received in the
  end is compared with what was published by position, so a message that came twice would be seen.  With a
  bound of one, or with none, the interleaving does no harm, and the theorem says so; the example is a
  queue of two, which is the least for which it does.
-/
import Mathlib.Data.List.Basic
import Mathlib.Logic.Function.Iterate
import RobotPuzzle.Events.Queue

namespace RobotPuzzle

open scoped List

namespace EventQueue

/-! ## Moves

  A step of either side is atomic, and whoever is to make the next step is free; so a list of moves is one
  interleaving, and all interleavings are lists of moves.  Left alone, the publisher makes the queue what
  one offer makes of it. -/

/-- An event and its number in the order of publication. -/
structure Message where
  /-- how many were published before it -/
  number : Nat
  /-- what is published -/
  event : Event

/-- How far the publisher has come with a message. -/
inductive Publishing where
  /-- the publisher is not at the queue -/
  | idle
  /-- The queue is full, and `held` has been taken out. -/
  | draining (msg : Message) (held : List Message)
  /-- `rest` has to be put back, and then there is room for the message or not. -/
  | restoring (msg : Message) (rest : List Message) (room : Bool)
  /-- There was no room to put a message back. -/
  | broken

/-- A queue between one publisher and one subscriber. -/
structure Exchange where
  /-- what can be taken, the oldest first -/
  queue : List Message := []
  /-- how many were given up -/
  dropped : Nat := 0
  /-- how far the publisher has come -/
  stage : Publishing := .idle
  /-- all that has been published -/
  published : List Event := []
  /-- what has been taken, the first one first -/
  received : List Message := []
  /-- what the publisher had taken out when the subscriber took another message -/
  overtaken : List Message := []

inductive Move where
  /-- Publishing begins. -/
  | publish (e : Event)
  /-- The publisher goes on. -/
  | proceed
  /-- The subscriber takes a message. -/
  | take

/-- What is left when a held message is given up for an event; `none` if none is given up. -/
def survivors? (pinned : List String) (e : Event) (held : List Message) : Option (List Message) :=
  if held.any fun msg => !msg.event.isOneOf pinned then
    some (held.eraseP fun msg => !msg.event.isOneOf pinned)
  else if e.isOneOf pinned && !held.isEmpty then some held.tail
  else none

namespace Exchange

/-- The queue with one more message, if there is room. -/
def put? (bound : Int) (x : Exchange) (msg : Message) : Option (List Message) :=
  if hasRoom bound (x.queue.map Message.event) then some (x.queue ++ [msg]) else none

/-- The messages that have been taken out of a full queue. -/
def held (x : Exchange) : List Message :=
  match x.stage with
  | .draining _ held => held
  | _ => []

/-- Publishing begins, unless the publisher is busy. -/
def publish (bound : Int) (x : Exchange) (e : Event) : Exchange :=
  match x.stage with
  | .idle =>
    let msg : Message := ⟨x.published.length, e⟩
    let published := x.published ++ [e]
    match x.put? bound msg with
    | some queue => { x with queue, published }
    | none => { x with stage := .draining msg [], published }
  | _ => x

/-- The next step of a publisher who has found the queue full. -/
def proceed (bound : Int) (pinned : List String) (x : Exchange) : Exchange :=
  match x.stage with
  | .draining msg held =>
    match x.queue with
    | oldest :: queue => { x with queue, stage := .draining msg (held ++ [oldest]) }
    | [] =>
      let left := survivors? pinned msg.event held
      { x with stage := .restoring msg (left.getD held) (left.isSome || held.length < bound) }
  | .restoring msg (next :: rest) room =>
    match x.put? bound next with
    | some queue => { x with queue, stage := .restoring msg rest room }
    | none => { x with stage := .broken }
  | .restoring msg [] room =>
    match (if room then x.put? bound msg else none) with
    | some queue => { x with queue, stage := .idle }
    | none => { x with dropped := x.dropped + 1, stage := .idle }
  | .idle | .broken => x

/-- The subscriber takes the oldest message in the queue. -/
def take (x : Exchange) : Exchange :=
  match x.queue with
  | msg :: queue =>
    { x with queue, received := x.received ++ [msg], overtaken := x.overtaken ++ x.held }
  | [] => x

def act (bound : Int) (pinned : List String) (x : Exchange) : Move → Exchange
  | .publish e => x.publish bound e
  | .proceed => x.proceed bound pinned
  | .take => x.take

def run (bound : Int) (pinned : List String) (x : Exchange) (moves : List Move) : Exchange :=
  moves.foldl (act bound pinned) x

/-- The queue without the numbers. -/
def toQueue (x : Exchange) : EventQueue := ⟨x.queue.map Message.event, x.dropped⟩

end Exchange

section Alone

variable {bound : Int} {pinned : List String} {msg : Message} {held rest : List Message} {room : Bool}

theorem hasRoom_iff {events : List Event} :
    hasRoom bound events = true ↔ (0 < bound → (events.length : Int) < bound) := by
  rw [hasRoom, Bool.or_eq_true, decide_eq_true_iff, decide_eq_true_iff]
  omega

/-- Without the numbers, what is left is what an offer leaves. -/
theorem map_survivors? (pinned : List String) (e : Event) (held : List Message) :
    (survivors? pinned e held).map (List.map Message.event)
      = makeRoom? pinned e (held.map Message.event) := by
  have hany : (held.map Message.event).any (fun e => !e.isOneOf pinned)
      = held.any fun msg => !msg.event.isOneOf pinned := by
    rw [List.any_map]
    rfl
  rw [survivors?, makeRoom?, hany, List.isEmpty_map]
  split
  · rw [Option.map_some, List.eraseP_map]
    rfl
  · split
    · rw [Option.map_some, List.map_tail]
    · rfl

/-- One message is given up, and the others stay in their order. -/
theorem survivors?_some {e : Event} (h : survivors? pinned e held = some rest) :
    rest <+ held ∧ rest.length + 1 = held.length := by
  rw [survivors?] at h
  split at h
  · rename_i hany
    -- the oldest one that is not pinned
    obtain ⟨found, hmem, hfound⟩ := List.any_eq_true.1 hany
    cases h
    refine ⟨List.eraseP_sublist, ?_⟩
    rw [List.length_eraseP_of_mem hmem hfound]
    have hpos := List.length_pos_of_mem hmem
    omega
  · split at h
    · -- all are pinned, and the oldest one goes
      rename_i hnonempty
      cases h
      cases held with
      | nil => simp at hnonempty
      | cons oldest held => exact ⟨List.sublist_cons_self _ _, rfl⟩
    · cases h

namespace Exchange

theorem put?_of_room {x : Exchange} (h : 0 < bound → (x.queue.length : Int) < bound) (msg : Message) :
    x.put? bound msg = some (x.queue ++ [msg]) :=
  if_pos (hasRoom_iff.2 (by rwa [List.length_map]))

theorem put?_of_full {x : Exchange} (h : ¬ (0 < bound → (x.queue.length : Int) < bound))
    (msg : Message) : x.put? bound msg = none :=
  if_neg (mt hasRoom_iff.1 (by rwa [List.length_map]))

/-- Everything is taken out of the queue, by induction on what is in it. -/
theorem iterate_drain {queue : List Message} : ∀ {x : Exchange} {held : List Message},
    x.queue = queue → x.stage = .draining msg held →
      (proceed bound pinned)^[queue.length] x
        = { x with queue := [], stage := .draining msg (held ++ queue) } := by
  induction queue with
  | nil =>
    rintro ⟨_, dropped, _, published, received, overtaken⟩ held rfl rfl
    rw [List.append_nil]
    rfl
  | cons oldest queue ih =>
    rintro ⟨_, dropped, _, published, received, overtaken⟩ held rfl rfl
    rw [List.length_cons, Function.iterate_succ_apply]
    refine (ih rfl rfl).trans ?_
    rw [List.append_assoc]
    rfl

/-- What was taken out is put back, by induction on it.  There is room for each message, since all of them
were in the queue before. -/
theorem iterate_restore : ∀ {x : Exchange}, x.stage = .restoring msg rest room →
    (0 < bound → ((x.queue ++ rest).length : Int) ≤ bound) →
      (proceed bound pinned)^[rest.length] x
        = { x with queue := x.queue ++ rest, stage := .restoring msg [] room } := by
  induction rest with
  | nil =>
    rintro ⟨queue, dropped, _, published, received, overtaken⟩ rfl -
    rw [List.append_nil]
    rfl
  | cons next rest ih =>
    intro x hstage hroom
    -- the queue and what is still to be put back are within the bound, so there is room for one
    have hput : x.put? bound next = some (x.queue ++ [next]) := by
      refine put?_of_room (fun hb => ?_) next
      have h := hroom hb
      rw [List.length_append, List.length_cons] at h
      omega
    have hnext : x.proceed bound pinned
        = { x with queue := x.queue ++ [next], stage := .restoring msg rest room } := by
      simp only [proceed, hstage, hput]
    rw [List.length_cons, Function.iterate_succ_apply, hnext, ih rfl fun hb => by simpa using hroom hb]
    simp

/-- What was taken out is put back, and then the message is put in, or dropped. -/
theorem iterate_finish {x : Exchange} (hqueue : x.queue = []) (hstage : x.stage = .restoring msg rest room)
    (hback : 0 < bound → (rest.length : Int) ≤ bound)
    (hroom : room = true → 0 < bound → (rest.length : Int) < bound) :
    (proceed bound pinned)^[rest.length + 1] x
      = if room then { x with queue := rest ++ [msg], stage := .idle }
        else { x with queue := rest, dropped := x.dropped + 1, stage := .idle } := by
  have hrestore : (proceed bound pinned)^[rest.length] x
      = { x with queue := rest, stage := .restoring msg [] room } := by
    rw [iterate_restore hstage (by rwa [hqueue]), hqueue, List.nil_append]
  rw [Function.iterate_succ_apply', hrestore]
  cases room with
  | false => rfl
  | true => simp only [proceed, if_true, put?_of_room (x := { x with queue := rest, stage := _ }) (hroom rfl)]

/-- A publisher whom nobody interrupts offers the event to the queue. -/
theorem publish_alone {x : Exchange} (hidle : x.stage = .idle)
    (hfits : 0 < bound → (x.queue.length : Int) ≤ bound) (e : Event) :
    ∃ steps, let y := (proceed bound pinned)^[steps] (x.publish bound e)
      y.stage = .idle ∧ y.toQueue = (x.toQueue.offer bound pinned e).1 ∧ y.received = x.received := by
  have hmap : (x.queue.map Message.event).length = x.queue.length := List.length_map _
  by_cases hroom : 0 < bound → (x.queue.length : Int) < bound
  · have hoffer : hasRoom bound (x.queue.map Message.event) = true :=
      hasRoom_iff.2 (by rwa [hmap])
    -- there is room, so publishing is a single step
    refine ⟨0, ?_⟩
    simp [publish, hidle, put?_of_room hroom, toQueue, offer, hoffer]
  · have hoffer : hasRoom bound (x.queue.map Message.event) = false :=
      Bool.eq_false_iff.2 (mt hasRoom_iff.1 (by rwa [hmap]))
    -- no room: take everything out, decide what to give up, put the rest back
    have hshort : ¬ (x.queue.length : Int) < bound := fun h => hroom fun _ => h
    let msg : Message := ⟨x.published.length, e⟩
    let full : Exchange := { x with published := x.published ++ [e] }
    have hstart : x.publish bound e = { full with stage := .draining msg [] } := by
      simp only [publish, hidle, put?_of_full hroom, full, msg]
    have hdrain : (proceed bound pinned)^[x.queue.length] (x.publish bound e)
        = { full with queue := [], stage := .draining msg ([] ++ x.queue) } := by
      rw [hstart]
      exact iterate_drain rfl rfl
    have hmake := map_survivors? pinned e x.queue
    cases hleft : survivors? pinned e x.queue with
    | none =>
      have hdecide : (proceed bound pinned)^[x.queue.length + 1] (x.publish bound e)
          = { full with queue := [], stage := .restoring msg x.queue false } := by
        rw [Function.iterate_succ_apply', hdrain]
        simp [proceed, hleft, hshort, msg]
      refine ⟨(x.queue.length + 1) + (x.queue.length + 1), ?_⟩
      rw [Function.iterate_add_apply, hdecide, iterate_finish rfl rfl hfits (absurd · Bool.false_ne_true)]
      rw [hleft, Option.map_none] at hmake
      simp [toQueue, offer, hoffer, ← hmake, full]
    | some rest =>
      obtain ⟨-, hrest⟩ := survivors?_some hleft
      have hfewer : 0 < bound → (rest.length : Int) < bound := fun hb => by
        have h := hfits hb
        omega
      have hdecide : (proceed bound pinned)^[x.queue.length + 1] (x.publish bound e)
          = { full with queue := [], stage := .restoring msg rest true } := by
        rw [Function.iterate_succ_apply', hdrain]
        simp [proceed, hleft, msg]
      refine ⟨(rest.length + 1) + (x.queue.length + 1), ?_⟩
      rw [Function.iterate_add_apply, hdecide,
        iterate_finish rfl rfl (fun hb => Int.le_of_lt (hfewer hb)) fun _ => hfewer]
      rw [hleft, Option.map_some] at hmake
      simp [toQueue, offer, hoffer, ← hmake, full, msg]

end Exchange

end Alone

namespace Exchange

variable {bound : Int} {pinned : List String} {x y : Exchange}

/-! ## Room

  A publisher who cannot put a message back would lose it and all behind it.  This does not happen, as the
  subscriber only ever makes room: what is in the queue and what the publisher holds never exceed the
  bound together. -/

/-- What is in the queue or has been in it, the oldest in front. -/
def stock (x : Exchange) : List Message :=
  match x.stage with
  | .draining _ held => held ++ x.queue
  | .restoring _ rest _ => x.queue ++ rest
  | .idle | .broken => x.queue

/-- Nothing gets lost on the way back into the queue, and with room for a single message there is none left in
the queue while the publisher holds one. -/
structure Roomy (bound : Int) (x : Exchange) : Prop where
  /-- every message has found room again -/
  whole : x.stage ≠ .broken
  /-- queue and hand together are within the bound -/
  fits : 0 < bound → (x.stock.length : Int) ≤ bound
  /-- without a bound the publisher never makes room -/
  unbounded : bound ≤ 0 → x.stage = .idle
  /-- with room for one it never holds anything when something is taken -/
  single : bound ≤ 1 → x.overtaken = []

/-- A message that has been put stands behind the others, and there was room. -/
theorem put?_some {msg : Message} {queue : List Message} (h : x.put? bound msg = some queue) :
    queue = x.queue ++ [msg] ∧ (0 < bound → (x.queue.length : Int) < bound) := by
  rw [put?] at h
  split at h
  · rename_i hroom
    rw [hasRoom_iff, List.length_map] at hroom
    cases h
    exact ⟨rfl, hroom⟩
  · cases h

/-- A message that has not been put met a full queue. -/
theorem put?_none {msg : Message} (h : x.put? bound msg = none) :
    0 < bound ∧ bound ≤ x.queue.length := by
  rw [put?] at h
  split at h
  · cases h
  · rename_i hroom
    rw [hasRoom_iff, List.length_map] at hroom
    omega

/-- Publishing begins with a message in the queue, which had room, or with an empty hand. -/
theorem Roomy.publish (h : Roomy bound x) (e : Event) : Roomy bound (x.publish bound e) := by
  obtain ⟨queue, dropped, stage, published, received, overtaken⟩ := x
  obtain ⟨whole, fits, unbounded, single⟩ := h
  unfold Exchange.publish
  cases stage with
  | draining | restoring | broken => exact ⟨whole, fits, unbounded, single⟩
  | idle =>
    dsimp only
    split
    · rename_i grown hput
      -- the message has found room
      obtain ⟨rfl, hroom⟩ := put?_some hput
      refine ⟨whole, fun hb => ?_, unbounded, single⟩
      have h := hroom hb
      simp only [stock, List.length_append, List.length_singleton] at h ⊢
      omega
    · rename_i hput
      -- it has not, and nothing is in the hand of the publisher yet
      exact ⟨nofun, fits, fun hb => absurd (put?_none hput).1 (Int.not_lt.2 hb), single⟩

/-- **The publisher's step** keeps everything.  Taking a message out moves it from the queue to the hand
and the stock stays; giving one up makes the stock smaller by one, which is the room for the message that
comes last; and putting one back is possible, since it counts in the stock already. -/
theorem Roomy.proceed (h : Roomy bound x) : Roomy bound (x.proceed bound pinned) := by
  obtain ⟨queue, dropped, stage, published, received, overtaken⟩ := x
  obtain ⟨whole, fits, unbounded, single⟩ := h
  unfold Exchange.proceed
  cases stage with
  | idle | broken => exact ⟨whole, fits, unbounded, single⟩
  | draining msg held =>
    have hb : ¬ bound ≤ 0 := fun hb => nomatch unbounded hb
    cases queue with
    | cons oldest queue =>
      refine ⟨nofun, fun hb => ?_, (absurd · hb), single⟩
      simpa [stock] using fits hb
    | nil =>
      refine ⟨nofun, fun hb => ?_, (absurd · hb), single⟩
      have hheld := fits hb
      simp only [stock, List.append_nil, List.nil_append] at hheld ⊢
      cases hleft : survivors? pinned msg.event held with
      | none => exact hheld
      | some rest =>
        obtain ⟨-, hrest⟩ := survivors?_some hleft
        rw [Option.getD_some]
        omega
  | restoring msg rest room =>
    have hb : ¬ bound ≤ 0 := fun hb => nomatch unbounded hb
    cases rest with
    | cons next rest =>
      dsimp only
      split
      · rename_i grown hput
        obtain ⟨rfl, -⟩ := put?_some hput
        refine ⟨nofun, fun hb => ?_, (absurd · hb), single⟩
        simpa [stock] using fits hb
      · -- it has been in the queue before, so there is room
        rename_i hput
        obtain ⟨hpos, hfull⟩ := put?_none hput
        have h := fits hpos
        simp only [stock, List.length_append, List.length_cons] at h hfull
        omega
    | nil =>
      dsimp only
      split
      · rename_i grown hput
        split at hput
        · obtain ⟨rfl, hroom⟩ := put?_some hput
          refine ⟨nofun, fun hb => ?_, fun _ => rfl, single⟩
          have h := hroom hb
          simp only [stock, List.length_append, List.length_singleton] at h ⊢
          omega
        · cases hput
      · refine ⟨nofun, fun hb => ?_, fun _ => rfl, single⟩
        simpa [stock] using fits hb

/-- The subscriber's step makes the stock smaller.  With room for one message it finds the queue empty
while the publisher holds something, so nothing is overtaken. -/
theorem Roomy.take (h : Roomy bound x) : Roomy bound x.take := by
  obtain ⟨queue, dropped, stage, published, received, overtaken⟩ := x
  obtain ⟨whole, fits, unbounded, single⟩ := h
  cases queue with
  | nil => exact ⟨whole, fits, unbounded, single⟩
  | cons msg queue =>
    refine ⟨whole, fun hb => ?_, unbounded, fun hone => ?_⟩
    · -- taking makes the stock smaller at every stage
      have h := fits hb
      cases stage <;> simp only [Exchange.take, stock, List.length_append, List.length_cons] at h ⊢ <;>
        omega
    · show overtaken ++ held _ = []
      rw [show overtaken = [] from single hone, List.nil_append]
      cases stage with
      | idle | restoring | broken => rfl
      | draining next held =>
        by_cases hb : bound ≤ 0
        · cases unbounded hb
        · have h := fits (by omega)
          simp only [stock, List.length_append, List.length_cons] at h
          -- with room for one, a queue with a message leaves nothing for the publisher's hand
          have hnone : held = [] := List.length_eq_zero_iff.1 (by omega)
          exact hnone

/-- Nothing is lost in any run, by induction on the moves. -/
theorem Roomy.run (h : Roomy bound x) (moves : List Move) : Roomy bound (x.run bound pinned moves) := by
  induction moves generalizing x with
  | nil => exact h
  | cons move rest ih =>
    cases move with
    | publish e => exact ih (h.publish e)
    | proceed => exact ih h.proceed
    | take => exact ih h.take

/-! ## The line

  In the line the held messages stand in front of those in the queue while the publisher takes out, and
  behind them while it puts back.  What is in front of the line is the next to be received only if nothing
  is held. -/

/-- The message that is not in the queue yet. -/
def pending (x : Exchange) : List Message :=
  match x.stage with
  | .draining msg _ | .restoring msg _ _ => [msg]
  | .idle | .broken => []

/-- Everything that may still be received, the oldest in front. -/
def line (x : Exchange) : List Message := x.stock ++ x.pending

/-- What a move does to the line. -/
inductive Shifts (x y : Exchange) : Prop
  /-- a message is published and joins the line -/
  | joins (e : Event) : y.line = x.line ++ [⟨x.published.length, e⟩] →
      y.published = x.published ++ [e] → y.received = x.received → y.overtaken = x.overtaken →
      Shifts x y
  /-- some are given up -/
  | leaves : y.line <+ x.line → y.published = x.published → y.received = x.received →
      y.overtaken = x.overtaken → Shifts x y
  /-- The subscriber takes the first message behind those that the publisher has taken out. -/
  | takes {held later : List Message} {msg : Message} : x.line = held ++ msg :: later →
      y.line = held ++ later → y.published = x.published → y.received = x.received ++ [msg] →
      y.overtaken = x.overtaken ++ held → Shifts x y

/-- A message joins at the end, whether it goes into the queue or has to wait. -/
theorem publish_shifts (bound : Int) (x : Exchange) (e : Event) : Shifts x (x.publish bound e) := by
  obtain ⟨queue, dropped, stage, published, received, overtaken⟩ := x
  unfold publish
  cases stage with
  | draining | restoring | broken => exact .leaves (List.Sublist.refl _) rfl rfl rfl
  | idle =>
    dsimp only
    split
    · rename_i grown hput
      obtain ⟨rfl, -⟩ := put?_some hput
      exact .joins e (by simp [line, stock, pending]) rfl rfl rfl
    · exact .joins e (by simp [line, stock, pending]) rfl rfl rfl

/-- Taking out and putting back leave the line.  Giving up takes a message out of it, and so does dropping
the new one. -/
theorem proceed_shifts (bound : Int) (pinned : List String) (x : Exchange) :
    Shifts x (x.proceed bound pinned) := by
  obtain ⟨queue, dropped, stage, published, received, overtaken⟩ := x
  unfold proceed
  cases stage with
  | idle | broken => exact .leaves (List.Sublist.refl _) rfl rfl rfl
  | draining msg held =>
    cases queue with
    | cons oldest queue => exact .leaves (by simp [line, stock, pending]) rfl rfl rfl
    | nil =>
      refine .leaves ?_ rfl rfl rfl
      -- what survives is in the order in which it was taken out
      have hleft : (survivors? pinned msg.event held).getD held <+ held := by
        cases hsome : survivors? pinned msg.event held with
        | none => exact List.Sublist.refl _
        | some rest => exact (survivors?_some hsome).1
      simpa [line, stock, pending] using hleft
  | restoring msg rest room =>
    cases rest with
    | cons next rest =>
      dsimp only
      split
      · rename_i grown hput
        obtain ⟨rfl, -⟩ := put?_some hput
        exact .leaves (by simp [line, stock, pending]) rfl rfl rfl
      · exact .leaves (by simp [line, stock, pending]) rfl rfl rfl
    | nil =>
      dsimp only
      split
      · rename_i grown hput
        -- the new message comes last, if there was room made for it
        split at hput
        · obtain ⟨rfl, -⟩ := put?_some hput
          exact .leaves (by simp [line, stock, pending]) rfl rfl rfl
        · cases hput
      · exact .leaves (by simp [line, stock, pending]) rfl rfl rfl

/-- The subscriber takes the first message of the line, but for those that are held. -/
theorem take_shifts (x : Exchange) : Shifts x x.take := by
  obtain ⟨queue, dropped, stage, published, received, overtaken⟩ := x
  cases queue with
  | nil => exact .leaves (List.Sublist.refl _) rfl rfl rfl
  | cons msg queue =>
    cases stage with
    | draining next held =>
      exact .takes (List.append_assoc held _ _) (List.append_assoc held _ _) rfl rfl rfl
    | idle | restoring | broken =>
      exact .takes (List.nil_append _).symm (List.nil_append _).symm rfl rfl rfl

/-- **One move** does one of the three. -/
theorem act_shifts (bound : Int) (pinned : List String) (x : Exchange) (move : Move) :
    Shifts x (x.act bound pinned move) := by
  cases move with
  | publish e => exact publish_shifts bound x e
  | proceed => exact proceed_shifts bound pinned x
  | take => exact take_shifts x

/-! ## Order

  `Orderly` says more than is wanted at the end.  The equivalence `late` is about messages that are still
  in the line; it is what makes the equivalence `ordered` go on when one of them is received. -/

/-- The line is in order and has nothing that was received, and what comes too late has been overtaken. -/
structure Orderly (x : Exchange) : Prop where
  /-- the line is in the order of publication -/
  sorted : x.line.Pairwise (·.number < ·.number)
  /-- nothing is received twice -/
  once : x.received.Pairwise (·.number ≠ ·.number)
  /-- what is in the line has not been received -/
  apart : ∀ msg ∈ x.line, ∀ other ∈ x.received, other.number ≠ msg.number
  /-- numbers are those of what was published -/
  named : ∀ msg, msg ∈ x.line ∨ msg ∈ x.received ∨ msg ∈ x.overtaken →
    x.published[msg.number]? = some msg.event
  /-- in the line, whoever was overtaken is behind something received -/
  late : ∀ msg ∈ x.line, msg ∈ x.overtaken ↔ ∃ other ∈ x.received, msg.number < other.number
  /-- so what is received is in order exactly if none of it was overtaken -/
  ordered : x.received.Pairwise (·.number < ·.number) ↔ ∀ msg ∈ x.received, msg ∉ x.overtaken

section Orderly

variable {e : Event} {held later : List Message} {msg : Message}

/-- Whatever is known has a number below that of the next message. -/
theorem Orderly.number_lt (h : Orderly x) (hmsg : msg ∈ x.line ∨ msg ∈ x.received ∨ msg ∈ x.overtaken) :
    msg.number < x.published.length :=
  (List.getElem?_eq_some_iff.1 (h.named msg hmsg)).1

/-- A new message has the highest number so far, so it stands right at the end of the line and is late for
nothing. -/
theorem Orderly.joins (h : Orderly x) (hline : y.line = x.line ++ [⟨x.published.length, e⟩])
    (hpublished : y.published = x.published ++ [e]) (hreceived : y.received = x.received)
    (hovertaken : y.overtaken = x.overtaken) : Orderly y := by
  have hmem : ∀ {msg}, msg ∈ y.line ↔ msg ∈ x.line ∨ msg = ⟨x.published.length, e⟩ := by
    intro msg
    rw [hline, List.mem_append, List.mem_singleton]
  refine ⟨?_, hreceived ▸ h.once, ?_, ?_, ?_, ?_⟩
  · rw [hline, List.pairwise_append]
    refine ⟨h.sorted, List.pairwise_singleton _ _, fun msg hmsg last hlast => ?_⟩
    rw [List.mem_singleton.1 hlast]
    exact h.number_lt (.inl hmsg)
  · rw [hreceived]
    intro msg hmsg other hother
    obtain hmsg | rfl := hmem.1 hmsg
    · exact h.apart msg hmsg other hother
    · exact Nat.ne_of_lt (h.number_lt (.inr (.inl hother)))
  · rw [hpublished, hreceived, hovertaken]
    intro msg hmsg
    rw [hmem, or_assoc, or_left_comm] at hmsg
    obtain rfl | hmsg := hmsg
    · exact List.getElem?_concat_length
    · rw [List.getElem?_append_left (h.number_lt hmsg)]
      exact h.named msg hmsg
  · rw [hreceived, hovertaken]
    intro msg hmsg
    obtain hmsg | rfl := hmem.1 hmsg
    · exact h.late msg hmsg
    · -- the new message is not older than anything
      refine iff_of_false (fun hover => ?_) fun ⟨other, hother, hless⟩ => ?_
      · exact Nat.lt_irrefl _ (h.number_lt (.inr (.inr hover)))
      · exact Nat.lt_asymm hless (h.number_lt (.inr (.inl hother)))
  · rw [hreceived, hovertaken]
    exact h.ordered

/-- A line with gaps is still in order, and nothing else has changed. -/
theorem Orderly.leaves (h : Orderly x) (hline : y.line <+ x.line) (hpublished : y.published = x.published)
    (hreceived : y.received = x.received) (hovertaken : y.overtaken = x.overtaken) : Orderly y := by
  refine ⟨h.sorted.sublist hline, hreceived ▸ h.once, ?_, ?_, ?_, ?_⟩
  · rw [hreceived]
    exact fun msg hmsg => h.apart msg (hline.subset hmsg)
  · rw [hpublished, hreceived, hovertaken]
    exact fun msg hmsg => h.named msg (hmsg.imp_left fun hmem => hline.subset hmem)
  · rw [hreceived, hovertaken]
    exact fun msg hmsg => h.late msg (hline.subset hmsg)
  · rw [hreceived, hovertaken]
    exact h.ordered

/-- One more message is received in order exactly if it has not been overtaken. -/
theorem Orderly.ordered_concat (h : Orderly x) (hmsg : msg ∈ x.line) :
    (x.received ++ [msg]).Pairwise (·.number < ·.number)
      ↔ ∀ other ∈ x.received ++ [msg], other ∉ x.overtaken := by
  have hlast : (∀ other ∈ x.received, other.number < msg.number) ↔ msg ∉ x.overtaken := by
    rw [h.late msg hmsg]
    constructor
    · rintro hall ⟨other, hother, hless⟩
      exact Nat.lt_asymm hless (hall other hother)
    · intro hnone other hother
      have hne := h.apart msg hmsg other hother
      have hnot : ¬ msg.number < other.number := fun hless => hnone ⟨other, hother, hless⟩
      omega
  simp only [List.pairwise_append, List.pairwise_singleton, List.mem_singleton, forall_eq, true_and,
    List.mem_append, or_imp, forall_and, h.ordered, hlast]

/-- **A message is taken** from behind those that are held.  It is not received twice, since it was in the
line; it is older than what stands behind it, and newer than what is held.  So the held messages are just
those that are late from now on (`late`), and the order of what is received breaks exactly if this message
was late itself (`ordered`). -/
theorem Orderly.takes (h : Orderly x) (hbefore : x.line = held ++ msg :: later)
    (hline : y.line = held ++ later) (hpublished : y.published = x.published)
    (hreceived : y.received = x.received ++ [msg]) (hovertaken : y.overtaken = x.overtaken ++ held) :
    Orderly y := by
  have hsorted := h.sorted
  rw [hbefore] at hsorted
  obtain ⟨-, hrest, hacross⟩ := List.pairwise_append.1 hsorted
  have hnewer := (List.pairwise_cons.1 hrest).1
  have holder : ∀ other ∈ held, other.number < msg.number := fun other hother =>
    hacross other hother msg List.mem_cons_self
  have hthin : y.line <+ x.line := by
    rw [hline, hbefore]
    exact (List.sublist_cons_self msg later).append_left held
  have hmsg : msg ∈ x.line := by rw [hbefore]; simp
  have hheld : ∀ other ∈ held, other ∈ x.line := fun other hother => by
    rw [hbefore]
    exact List.mem_append_left _ hother
  refine ⟨h.sorted.sublist hthin, ?_, ?_, ?_, ?_, ?_⟩
  · rw [hreceived, List.pairwise_append]
    refine ⟨h.once, List.pairwise_singleton _ _, fun other hother last hlast => ?_⟩
    rw [List.mem_singleton.1 hlast]
    exact h.apart msg hmsg other hother
  · rw [hreceived]
    intro other hother last hlast
    obtain hlast | hlast := List.mem_append.1 hlast
    · exact h.apart other (hthin.subset hother) last hlast
    · rw [List.mem_singleton.1 hlast]
      rw [hline, List.mem_append] at hother
      rcases hother with hother | hother
      · exact (Nat.ne_of_lt (holder other hother)).symm
      · exact Nat.ne_of_lt (hnewer other hother)
  · rw [hpublished, hreceived, hovertaken]
    rintro other (hother | hother | hother)
    · exact h.named other (.inl (hthin.subset hother))
    · obtain hother | hother := List.mem_append.1 hother
      · exact h.named other (.inr (.inl hother))
      · rw [List.mem_singleton.1 hother]
        exact h.named msg (.inl hmsg)
    · obtain hother | hother := List.mem_append.1 hother
      · exact h.named other (.inr (.inr hother))
      · exact h.named other (.inl (hheld other hother))
  · -- those that were taken out come after the message now, all others come in order
    intro other hother
    have hlate := h.late other (hthin.subset hother)
    rw [hline, List.mem_append] at hother
    simp only [hreceived, hovertaken, List.mem_append, List.mem_singleton, or_and_right, exists_or,
      exists_eq_left, hlate]
    rcases hother with hother | hother
    · exact iff_of_true (.inr hother) (.inr (holder other hother))
    · have hnot : other ∉ held := fun hmem =>
        Nat.lt_asymm (hnewer other hother) (holder other hmem)
      have hnewer : ¬ other.number < msg.number := Nat.lt_asymm (hnewer other hother)
      simp only [hnot, hnewer]
  · -- what is overtaken now is not received yet, so it does not come into this
    rw [hreceived, hovertaken, h.ordered_concat hmsg]
    refine forall₂_congr fun other hother => not_congr ?_
    have hnot : other ∉ held := fun hmem => by
      obtain hother | hother := List.mem_append.1 hother
      · exact h.apart other (hheld other hmem) other hother rfl
      · rw [List.mem_singleton.1 hother] at hmem
        exact Nat.lt_irrefl _ (holder msg hmem)
    rw [List.mem_append, or_iff_left hnot]

/-- **One move** keeps the order, whichever of the three it does. -/
theorem Shifts.orderly (hshifts : Shifts x y) (h : Orderly x) : Orderly y := by
  cases hshifts with
  | joins e hline hpublished hreceived hovertaken =>
    exact h.joins hline hpublished hreceived hovertaken
  | leaves hline hpublished hreceived hovertaken =>
    exact h.leaves hline hpublished hreceived hovertaken
  | takes hbefore hline hpublished hreceived hovertaken =>
    exact h.takes hbefore hline hpublished hreceived hovertaken

/-- **All moves**, by induction on them. -/
theorem Orderly.run (h : Orderly x) (moves : List Move) : Orderly (x.run bound pinned moves) := by
  induction moves generalizing x with
  | nil => exact h
  | cons move rest ih => exact ih ((act_shifts bound pinned x move).orderly h)

end Orderly

theorem roomy_empty (bound : Int) : Roomy bound {} :=
  ⟨nofun, Int.le_of_lt, fun _ => rfl, fun _ => rfl⟩

/-- At first there is nothing to be out of order. -/
theorem orderly_empty : Orderly {} where
  sorted := List.Pairwise.nil
  once := List.Pairwise.nil
  apart := fun _ hmsg => nomatch hmsg
  named := by simp [line, stock, pending]
  late := fun _ hmsg => nomatch hmsg
  ordered := iff_of_true List.Pairwise.nil fun _ hmsg => nomatch hmsg

/-- **What a subscriber receives, whenever it takes something.**  Every message that was taken out is put
back, and whatever is received has been published, and is received once.  The messages come in the order of
publication exactly if none is received that the publisher held while the subscriber took another one; with
room for a single message, or without any bound, the publisher never does. -/
theorem received_ordered_iff (bound : Int) (pinned : List String) (moves : List Move) :
    let x := ({} : Exchange).run bound pinned moves
    x.stage ≠ .broken ∧
      (∀ msg ∈ x.received, x.published[msg.number]? = some msg.event) ∧
      (x.received.map Message.number).Nodup ∧
      ((x.received.map Message.number).Pairwise (· < ·) ↔ ∀ msg ∈ x.received, msg ∉ x.overtaken) ∧
      (bound ≤ 1 → x.overtaken = []) := by
  intro x
  have hroomy : Roomy bound x := (roomy_empty bound).run moves
  have horderly : Orderly x := orderly_empty.run moves
  rw [List.Nodup, List.pairwise_map, List.pairwise_map]
  exact ⟨hroomy.whole, fun msg hmsg => horderly.named msg (.inr (.inl hmsg)), horderly.once,
    horderly.ordered, hroomy.single⟩

/-- A pinned message comes first.  For the third message the publisher takes it out, and the subscriber takes
the second one before it is put back. -/
theorem not_ordered_while_draining :
    let moves : List Move := [.publish { kind := "result" }, .publish { kind := "progress" },
      .publish { kind := "progress" }, .proceed, .take, .proceed, .proceed, .proceed, .take, .take]
    let x := ({} : Exchange).run 2 ["result"] moves
    x.received.map Message.number = [1, 0, 2] ∧ ¬ (x.received.map Message.number).Pairwise (· < ·) := by
  intro moves x
  have hreceived : x.received.map Message.number = [1, 0, 2] := rfl
  rw [hreceived]
  decide

end Exchange

end EventQueue

end RobotPuzzle
