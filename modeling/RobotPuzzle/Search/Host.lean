/-
  Searching in the background, one search at a time.

  1. **Start** — a job gets the next number; nothing else can be started while it runs.
  2. **Work** — the job runs its search, and every report and the result, or the error, become events.
  3. **Cancel** — the search is asked to stop, the job is silenced, and its listeners are told once for
     every time somebody cancels it.  A silenced job publishes nothing more (`publishFor_silenced`).
  4. **End** — the job is no longer silenced, since it cannot publish any more, and another may start.

  How far a cancelled search got depends on when it noticed; so nothing of it is told but that it was
  cancelled.
-/
import RobotPuzzle.Events.Bus
import RobotPuzzle.Search.Basic

namespace RobotPuzzle

/-- A search in the background. -/
structure SearchJob where
  /-- jobs are numbered from one -/
  number : Nat
  level : Level
  options : Search.Options
  evaluation : Evaluation.Options
  /-- the search has been asked to stop -/
  stopAsked : Bool := false
deriving Inhabited

/-- What runs searches in the background. -/
structure SearchHost where
  /-- where events are published -/
  bus : EventBus
  /-- the number of the latest job, zero before the first -/
  latest : Nat := 0
  /-- the job under way, at most one -/
  running : Option SearchJob := none
  /-- the numbers of the jobs that may not publish -/
  silenced : List Nat := []
  /-- the latest report of the latest job -/
  progress : Json := .null
  /-- the latest result -/
  result : Json := .null
deriving Inhabited

namespace SearchHost

/-- The kind of event that tells of progress. -/
def progressKind : String := "solver_progress"

/-- The kinds of events that end a job. -/
def terminalKinds : List String := ["solver_result", "solver_cancelled", "solver_error"]

/-- All kinds of events. -/
def kinds : List String := progressKind :: terminalKinds

/-- The bus that a host has of its own: the events that end a job are pinned. -/
def ownBus : EventBus := { pinned := terminalKinds }

/-- Why a job is not started. -/
inductive Fault where
  /-- the job of that number is still running -/
  | busy (number : Nat)
deriving DecidableEq, Repr

/-- The name of the job with that number. -/
def jobName (number : Nat) : String := "job-" ++ toString number

def Fault.message : Fault → String
  | .busy number => "Search " ++ jobName number ++ " is still running"

/-- The latest job, by name. -/
def jobJson (h : SearchHost) : Json := if h.latest = 0 then .null else .str (jobName h.latest)

/-- An event of a job: its name, and what else there is to say. -/
def eventOf (number : Nat) (kind : String) (data : Json) : Event :=
  let members :=
    match data with
    | .obj members => members
    | _ => []
  { kind, data := .obj (("job_id", .str (jobName number)) :: members) }

/-- Publishes an event of a job, unless the job is silenced. -/
def publishFor (h : SearchHost) (number : Nat) (kind : String) (data : Json) : SearchHost :=
  if h.silenced.contains number then h
  else { h with bus := (h.bus.publish (eventOf number kind data)).1 }

theorem publishFor_silenced {h : SearchHost} {number : Nat} (hs : number ∈ h.silenced)
    (kind : String) (data : Json) : h.publishFor number kind data = h := by
  simp [publishFor, hs]

/-! ## Start and cancel -/

/-- Starts a job. -/
def start (h : SearchHost) (level : Level) (options : Search.Options)
    (evaluation : Evaluation.Options) : Except Fault SearchHost :=
  match h.running with
  | some job => .error (.busy job.number)
  | none =>
    let number := h.latest + 1
    .ok { h with
      latest := number
      running := some { number, level, options, evaluation }
      silenced := []
      progress := .null
      result := .null }

/-- Cancels the job that is running; the answer tells whether there was one. -/
def cancel (h : SearchHost) : SearchHost × Bool :=
  match h.running with
  | none => (h, false)
  | some job =>
    ({ h with
      running := some { job with stopAsked := true }
      silenced := if h.silenced.contains job.number then h.silenced else job.number :: h.silenced
      bus := (h.bus.publish (eventOf job.number "solver_cancelled" (.obj []))).1 }, true)

/-! ## Work -/

/-- What a job publishes, in order, and what it leaves behind. -/
structure Account where
  /-- kinds of events, each with what there is to say -/
  events : List (String × Json) := []
  /-- the last report -/
  progress : Json := .null
  /-- the result, or null after an error -/
  result : Json := .null
deriving Inhabited

/-- The account of a search that went through. -/
def accountOf (found : Search.Ledger) : Account :=
  if found.cancelled then
    { progress := .str "cancelled", result := .obj [("cancelled", .bool true)] }
  else
    let reports := found.reports.reverse.map fun r => r.toJson []
    { events := reports.map (progressKind, ·) ++ [("solver_result", found.toJson [])]
      progress := reports.getLast?.getD .null
      result := found.toJson [] }

/-- Runs the search of a job. -/
def account (job : SearchJob) : Account :=
  match search job.level job.options job.evaluation (some fun _ => false) job.stopAsked with
  | .ok found => accountOf found
  | .error fault => { events := [("solver_error", .obj [("error", .str fault.message)])] }

/-- Publishes what a job has to say. -/
def publishAll (h : SearchHost) (number : Nat) (events : List (String × Json)) : SearchHost :=
  events.foldl (fun h e => h.publishFor number e.1 e.2) h

/-- The job publishes and leaves its results behind. -/
def conclude (h : SearchHost) (job : SearchJob) (a : Account) : SearchHost :=
  { h.publishAll job.number a.events with progress := a.progress, result := a.result }

/-- The job is no longer silenced. -/
def unsilence (h : SearchHost) (number : Nat) : SearchHost :=
  { h with silenced := h.silenced.filter (· ≠ number) }

/-- Nothing runs any more. -/
def idle (h : SearchHost) : SearchHost := { h with running := none }

/-- The job has ended. -/
def leave (h : SearchHost) (job : SearchJob) : SearchHost := (h.unsilence job.number).idle

/-- Waits for the job that is running; the answer is what it published, unless it was silenced. -/
def follow (h : SearchHost) : SearchHost × List Event :=
  match h.running with
  | none => (h, [])
  | some job =>
    let a := account job
    let events := a.events.map fun e => eventOf job.number e.1 e.2
    ((h.conclude job a).leave job, if h.silenced.contains job.number then [] else events)

/-- Waits for the job that is running. -/
def wait (h : SearchHost) : SearchHost := h.follow.1

def statusJson (h : SearchHost) : Json :=
  .obj [("running", .bool h.running.isSome), ("job_id", h.jobJson), ("progress", h.progress),
    ("result", h.result)]

end SearchHost

end RobotPuzzle
