/-
  Callers and the thread of a background search, taking turns.

  1. **Searches that nobody stops** — a search is cancelled only if somebody has asked for a stop
     (`cancelled_of_unasked`).
  2. **Two halves of a cancel** — a cancel silences the job and asks it to stop (`mark`), and tells the
     listeners afterwards (`acknowledge`); `cancel` does both at once (`cancel_eq`).
  3. **Scenes** — `Step` says what callers and threads can do next, in whatever order: a job is started,
     cancelled and acknowledged; its thread reports, concludes, is no longer silenced, and exits.
  4. **Calls one after the other** — a cancel that is told at once, and a wait until the thread has exited,
     are such runs (`cancel_runs`, `wait_runs`).

  The crux is to take calls apart just where somebody else may come in between: inside a cancel, between
  marking and telling, and in the thread, between its events.  What callers see as one call is then one
  run of steps among others.

  A search in the background is modelled twice, as one call that does all of it and as many small steps of
  caller and thread.  Here the first is shown to be a run of the second.  So the examples of
  `Announcements` can be calls of the host as they are made, and its theorem, which is about all orders of
  the steps, applies to them.
-/
import RobotPuzzle.Proofs.Workers
import RobotPuzzle.Search.Host

namespace RobotPuzzle

namespace Search

/-! ## Searches that nobody stops

  A stop is asked for from outside, or by a listener.  Without either, checks find nothing. -/

/-- A search that nobody asks to stop is not cancelled. -/
theorem Plan.Undisturbed.cancelled {plan : Plan} {l m : Ledger} (hu : plan.Undisturbed)
    (hl : l.stopAsked = false) (hc : l.cancelled = false) (h : plan.Yields l (.ok m)) :
    m.cancelled = false := by
  have hstep : ∀ {l m : Ledger}, l.stopAsked = false ∧ l.cancelled = false → plan.Step l m →
      m.stopAsked = false ∧ m.cancelled = false := by
    rintro l m ⟨hl, hc⟩ hstep
    refine ⟨hu.step_stopAsked hl hstep, ?_⟩
    -- a report may be answered with a wish to stop, but it cancels nothing
    have hreport : ∀ l : Ledger, (l.report plan.listener).cancelled = l.cancelled := fun l => by
      unfold Ledger.report
      split
      · rfl
      · rfl
    cases hstep with
    | check =>
      rw [hu.check_eq hl]
      exact hc
    | report => rw [hreport, hc]
    | attempt program _ _ h =>
      obtain ⟨result, -, rfl⟩ := Plan.attempt_cases h
      unfold Ledger.reportIfDue
      split
      · rw [hreport]
        exact hc
      · exact hc
  exact (Plan.Leads.invariant hstep h ⟨hl, hc⟩).2

/-- A search that was not asked to stop, with a listener who does not ask for it, is not cancelled. -/
theorem cancelled_of_unasked {level : Level} {options : Options} {evaluation : Evaluation.Options}
    {hear : Listener} (hunheard : ∀ r, hear r = false) {found : Ledger}
    (h : search level options evaluation (some hear) false = .ok found) : found.cancelled = false := by
  unfold search conduct at h
  refine Plan.Undisturbed.cancelled ⟨fun _ => rfl, fun _ => ?_, fun _ hlistener r => ?_⟩ rfl rfl
    (h ▸ Plan.run_yields _ _ _ rfl)
  · exact budget_pos (by decide) options.maxTimeMs
  · cases hlistener
    exact hunheard r

end Search

namespace SearchHost

/-! ## Two halves of a cancel

  `mark` is done under the lock, `acknowledge` behind it. -/

/-- The kind of event that tells that a job has been cancelled. -/
def cancelledKind : String := "solver_cancelled"

/-- The job is asked to stop, and silenced. -/
def mark (h : SearchHost) (job : SearchJob) : SearchHost :=
  { h with
    running := some { job with stopAsked := true }
    silenced := if h.silenced.contains job.number then h.silenced else job.number :: h.silenced }

/-- The listeners are told that the job has been cancelled. -/
def acknowledge (h : SearchHost) (number : Nat) : SearchHost :=
  { h with bus := (h.bus.publish (eventOf number cancelledKind (.obj []))).1 }

theorem cancel_eq {h : SearchHost} {job : SearchJob} (hr : h.running = some job) :
    h.cancel = ((h.mark job).acknowledge job.number, true) := by
  unfold cancel
  rw [hr]
  rfl

/-- Marking a job silences it, and no other one is heard again. -/
theorem mem_silenced_mark {h : SearchHost} {job : SearchJob} {n : Nat} :
    n ∈ (h.mark job).silenced ↔ n = job.number ∨ n ∈ h.silenced := by
  show n ∈ (if h.silenced.contains job.number then h.silenced else job.number :: h.silenced) ↔ _
  split
  · rename_i hin
    rw [List.contains_iff_mem] at hin
    refine ⟨Or.inr, fun hor => hor.elim ?_ id⟩
    rintro rfl
    exact hin
  · exact List.mem_cons

/-! ## Scenes

  What has been told is kept beside the bus, in the order in which it was told, so that it can be looked
  at when subscribers have taken their events. -/

/-- What the listeners are told: the job, the kind of event, and what else there is to say. -/
structure Notice where
  /-- the number of the job -/
  job : Nat
  /-- one of the kinds that the host publishes -/
  kind : String
  /-- the payload, without the number -/
  data : Json

def Notice.event (notice : Notice) : Event := eventOf notice.job notice.kind notice.data

/-- How far the thread of a job has come. -/
inductive Stage where
  /-- the search is under way, and reports -/
  | searching
  /-- the result or the error has been published, or swallowed -/
  | concluded
  /-- the job is no longer silenced -/
  | released
deriving DecidableEq, Repr

/-- A host, and what is going on around it. -/
structure Scene where
  /-- the host as its callers see it -/
  host : SearchHost
  /-- where the thread of the job that is running is -/
  stage : Stage := .released
  /-- the jobs of the cancels that have been granted, but not told -/
  unacknowledged : List Nat := []
  /-- what has been published, the oldest first -/
  told : List Notice := []

namespace Scene

/-- Nothing has happened yet. -/
def fresh (bus : EventBus) : Scene := { host := { bus } }

/-- A job publishes an event, unless it is silenced. -/
def say (sc : Scene) (number : Nat) (kind : String) (data : Json) : Scene :=
  { sc with
    host := sc.host.publishFor number kind data
    told := if sc.host.silenced.contains number then sc.told else sc.told ++ [⟨number, kind, data⟩] }

/-- A cancel is told. -/
def acknowledge (sc : Scene) (number : Nat) : Scene :=
  { sc with
    host := sc.host.acknowledge number
    unacknowledged := sc.unacknowledged.erase number
    told := sc.told ++ [⟨number, cancelledKind, .obj []⟩] }

/-- The kinds of the events of a job, the oldest first. -/
def kindsOf (sc : Scene) (number : Nat) : List String :=
  (sc.told.filter (·.job == number)).map Notice.kind

end Scene

/-- What somebody does, and for which job. -/
inductive Deed where
  /-- a job is started -/
  | start
  /-- a cancel is granted: the job is marked and silenced -/
  | cancel (number : Nat)
  /-- a cancel that was granted is told -/
  | acknowledge (number : Nat)
  /-- the search tells of its progress -/
  | report (number : Nat)
  /-- the search ends with a result or an error -/
  | conclude (number : Nat)
  /-- the thread takes the job off the list of the silenced -/
  | unsilence (number : Nat)
  /-- the thread is gone, and the host is idle -/
  | leave (number : Nat)
deriving DecidableEq, Repr

/-- What can happen next.  A job that is running can be cancelled at any time and any number of times, and
each cancel is told at any time after it; a call that is refused changes nothing, and is left out. -/
inductive Step (sc : Scene) : Deed → Scene → Prop
  /-- only an idle host starts a job -/
  | start (level : Level) (options : Search.Options) (evaluation : Evaluation.Options) {host}
      (hstart : sc.host.start level options evaluation = .ok host) :
      Step sc .start { sc with host, stage := .searching }
  /-- the job is marked and silenced now, the event comes later -/
  | cancel {job} (hr : sc.host.running = some job) :
      Step sc (.cancel job.number)
        { sc with host := sc.host.mark job, unacknowledged := job.number :: sc.unacknowledged }
  /-- the event of any cancel that is pending, in any order -/
  | acknowledge {number} (hpending : number ∈ sc.unacknowledged) :
      Step sc (.acknowledge number) (sc.acknowledge number)
  /-- a silenced job says nothing, but the search goes on -/
  | report {job} (data : Json) (hr : sc.host.running = some job) (hstage : sc.stage = .searching) :
      Step sc (.report job.number) (sc.say job.number progressKind data)
  /-- the same for the result, which ends the search -/
  | conclude {job kind} (data : Json) (hr : sc.host.running = some job) (hstage : sc.stage = .searching)
      (hkind : kind = "solver_result" ∨ kind = "solver_error") :
      Step sc (.conclude job.number) { sc.say job.number kind data with stage := .concluded }
  /-- after the conclusion the number is free to publish again -/
  | unsilence {job} (hr : sc.host.running = some job) (hstage : sc.stage = .concluded) :
      Step sc (.unsilence job.number)
        { sc with host := sc.host.unsilence job.number, stage := .released }
  /-- from here on nobody can cancel the job -/
  | leave {job} (hr : sc.host.running = some job) (hstage : sc.stage = .released) :
      Step sc (.leave job.number) { sc with host := sc.host.idle }

/-- These deeds, one after the other, lead from the first scene to the second. -/
inductive Runs : Scene → List Deed → Scene → Prop
  /-- nothing happens -/
  | here (sc : Scene) : Runs sc [] sc
  /-- one deed, and then the others -/
  | step {sc mid last deed deeds} (first : Step sc deed mid) (rest : Runs mid deeds last) :
      Runs sc (deed :: deeds) last

theorem Runs.append {sc mid last : Scene} {deeds others : List Deed} (h : Runs sc deeds mid)
    (h' : Runs mid others last) : Runs sc (deeds ++ others) last := by
  induction h with
  | here => exact h'
  | step first _ ih => exact .step first (ih h')

/-! ## Calls one after the other

  Here the calls of the host are found again among the runs, so that what holds of all runs holds of them.
-/

section Calls

variable {sc : Scene} {job : SearchJob}

/-- A cancel that is told at once. -/
theorem cancel_runs (hr : sc.host.running = some job) :
    Runs sc [.cancel job.number, .acknowledge job.number]
      { sc with
        host := sc.host.cancel.1
        told := sc.told ++ [⟨job.number, cancelledKind, .obj []⟩] } := by
  rw [cancel_eq hr]
  refine .step (.cancel hr) ?_
  refine .step (.acknowledge List.mem_cons_self) ?_
  unfold Scene.acknowledge
  rw [List.erase_cons_head]
  exact .here _

/-- A job publishes some events. -/
def Scene.sayAll (sc : Scene) (number : Nat) (events : List (String × Json)) : Scene :=
  events.foldl (fun sc e => sc.say number e.1 e.2) sc

theorem publishFor_keeps (h : SearchHost) (number : Nat) (kind : String) (data : Json) :
    (h.publishFor number kind data).running = h.running ∧
      (h.publishFor number kind data).latest = h.latest ∧
      (h.publishFor number kind data).silenced = h.silenced := by
  unfold publishFor
  split
  · exact ⟨rfl, rfl, rfl⟩
  · exact ⟨rfl, rfl, rfl⟩

/-- Some events, one after the other, are all told or all swallowed. -/
theorem Scene.sayAll_eq (number : Nat) :
    ∀ (events : List (String × Json)) (sc : Scene),
      sc.sayAll number events =
        { sc with
          host := sc.host.publishAll number events
          told := if sc.host.silenced.contains number then sc.told
            else sc.told ++ events.map fun e => ⟨number, e.1, e.2⟩ } := by
  intro events
  induction events with
  | nil =>
    intro sc
    show sc = { sc with told := if _ then sc.told else sc.told ++ [] }
    rw [List.append_nil, ite_self]
  | cons e rest ih =>
    intro sc
    obtain ⟨-, -, hsilenced⟩ := publishFor_keeps sc.host number e.1 e.2
    show (sc.say number e.1 e.2).sayAll number rest = _
    rw [ih]
    unfold Scene.say
    dsimp only
    -- the first event silences nobody, so the others are told or swallowed like it
    rw [hsilenced]
    split
    · rfl
    · rw [List.append_assoc]
      rfl

/-- Reports, one after the other. -/
theorem reports_run (hr : sc.host.running = some job) (hstage : sc.stage = .searching) :
    ∀ datas : List Json, Runs sc (List.replicate datas.length (.report job.number))
      (sc.sayAll job.number (datas.map (progressKind, ·))) := by
  intro datas
  induction datas generalizing sc with
  | nil => exact .here sc
  | cons data rest ih =>
    obtain ⟨hrunning, -, -⟩ := publishFor_keeps sc.host job.number progressKind data
    have hsaid : (sc.say job.number progressKind data).host.running = some job := hrunning.trans hr
    exact .step (.report data hr hstage) (ih hsaid hstage)

/-- To publish events leaves the job running. -/
theorem publishAll_running (number : Nat) :
    ∀ (events : List (String × Json)) (h : SearchHost),
      (h.publishAll number events).running = h.running := by
  intro events
  induction events with
  | nil => exact fun _ => rfl
  | cons e rest ih =>
    intro h
    exact (ih (h.publishFor number e.1 e.2)).trans (publishFor_keeps h number e.1 e.2).1

/-- The thread of a job, from its reports to its exit. -/
theorem thread_runs (hr : sc.host.running = some job) (hstage : sc.stage = .searching)
    (datas : List Json) {kind : String} (hkind : kind = "solver_result" ∨ kind = "solver_error")
    (data : Json) :
    Runs sc (List.replicate datas.length (.report job.number)
        ++ [.conclude job.number, .unsilence job.number, .leave job.number])
      { sc.sayAll job.number (datas.map (progressKind, ·) ++ [(kind, data)]) with
        host := (sc.host.publishAll job.number
          (datas.map (progressKind, ·) ++ [(kind, data)])).leave job
        stage := .released } := by
  -- the conclusion is said after all reports
  have hlast : sc.sayAll job.number (datas.map (progressKind, ·) ++ [(kind, data)])
      = (sc.sayAll job.number (datas.map (progressKind, ·))).say job.number kind data := by
    unfold Scene.sayAll
    rw [List.foldl_append]
    rfl
  have hhost : (sc.sayAll job.number (datas.map (progressKind, ·) ++ [(kind, data)])).host
      = sc.host.publishAll job.number (datas.map (progressKind, ·) ++ [(kind, data)]) := by
    rw [Scene.sayAll_eq]
  have hreports := reports_run hr hstage datas
  -- while it reports the job stays the running one, and the search goes on
  have hsaid : (sc.sayAll job.number (datas.map (progressKind, ·))).host.running = some job := by
    rw [Scene.sayAll_eq]
    exact (publishAll_running _ _ _).trans hr
  have hsearching : (sc.sayAll job.number (datas.map (progressKind, ·))).stage = .searching := by
    rw [Scene.sayAll_eq]
    exact hstage
  have hconcluded : (sc.sayAll job.number
      (datas.map (progressKind, ·) ++ [(kind, data)])).host.running = some job := by
    rw [hhost]
    exact (publishAll_running _ _ _).trans hr
  refine hreports.append (.step (.conclude data hsaid hsearching hkind) ?_)
  rw [← hlast, ← hhost]
  refine .step (.unsilence hconcluded rfl) (.step (.leave ?_ rfl) (.here _))
  exact hconcluded

/-- A job that nobody has asked to stop reports, and then tells its result or its error.  One that has been
asked to stop may have nothing to say. -/
theorem account_cases (job : SearchJob) :
    (∃ (datas : List Json) (kind : String) (data : Json),
      (kind = "solver_result" ∨ kind = "solver_error") ∧
      (account job).events = datas.map (progressKind, ·) ++ [(kind, data)]) ∨
    (job.stopAsked = true ∧ (account job).events = []) := by
  unfold account
  split
  · rename_i found hfound
    unfold accountOf
    cases hc : found.cancelled with
    | true =>
      rw [if_pos rfl]
      cases hstop : job.stopAsked with
      | true => exact Or.inr ⟨rfl, rfl⟩
      | false =>
        rw [hstop] at hfound
        -- a search that nobody has asked to stop is not cancelled
        rw [Search.cancelled_of_unasked (fun _ => rfl) hfound] at hc
        cases hc
    | false =>
      rw [if_neg Bool.false_ne_true]
      exact Or.inl ⟨_, _, _, Or.inl rfl, rfl⟩
  · exact Or.inl ⟨[], _, _, Or.inr rfl, rfl⟩

/-- Waiting lets the thread of the job go on to its exit. -/
theorem wait_runs (hr : sc.host.running = some job) (hstage : sc.stage = .searching)
    (hs : job.stopAsked = true → job.number ∈ sc.host.silenced) :
    ∃ deeds last, Runs sc deeds last ∧
      last.told.map Notice.event = sc.told.map Notice.event ++ sc.host.follow.2 ∧
      sc.host.wait
        = { last.host with progress := sc.host.wait.progress, result := sc.host.wait.result } := by
  have hwait : sc.host.wait = (sc.host.conclude job (account job)).leave job := by
    unfold wait follow
    rw [hr]
  have hfollow : sc.host.follow.2 = if sc.host.silenced.contains job.number then []
      else (account job).events.map fun e => eventOf job.number e.1 e.2 := by
    unfold follow
    rw [hr]
  rw [hwait, hfollow]
  unfold conclude
  rcases account_cases job with ⟨datas, kind, data, hkind, hevents⟩ | ⟨hstop, hevents⟩
  · refine ⟨_, _, thread_runs hr hstage datas hkind data, ?_, ?_⟩
    · rw [hevents, Scene.sayAll_eq]
      dsimp only
      split
      · exact (List.append_nil _).symm
      · rw [List.map_append, List.map_map]
        rfl
    · rw [hevents]
      rfl
  · -- whatever a silenced job tries to tell in the end, nobody is told
    have hin := hs hstop
    refine ⟨_, _, thread_runs hr hstage [] (Or.inl rfl) .null, ?_, ?_⟩
    · rw [Scene.sayAll_eq, if_pos (List.contains_iff_mem.2 hin), if_pos (List.contains_iff_mem.2 hin)]
      exact (List.append_nil _).symm
    · have hsame : sc.host.publishAll job.number
          (([] : List Json).map (progressKind, ·) ++ [("solver_result", .null)]) = sc.host :=
        publishFor_silenced hin _ _
      rw [hevents, hsame]
      rfl

end Calls

end SearchHost

end RobotPuzzle
