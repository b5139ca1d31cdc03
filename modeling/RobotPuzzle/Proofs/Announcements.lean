/-
  What the listeners of a background search are told, and in which order.

  1. **The story of a job** — its reports, then what concludes its search, then acknowledgements (`Tells`).
     Such a story has one ending, which comes last, just if there is one entry at most behind the reports
     (`Tells.endsOnce_iff`).
  2. **What every step keeps** — what has been told so far is such a story for every job, the result or the
     error is in it exactly if it came before every cancel, and each cancel is told once or is still to be
     told (`Recorded`).  While a job may still publish, it has only reported (`Orderly`).
  3. **Runs** — so the last event of a job is the only one that ends it, unless the job is cancelled twice,
     or is cancelled while its thread, which has told its result, has yet to exit (`tells_story`).  That can
     happen (`not_endsOnce_of_cancels`).

  The crux is that a job is silenced when it is cancelled, and stays so until its thread has concluded or
  another job starts.  So while it is searching, that it has been silenced and that it has been cancelled
  come to the same, and this is all that has to be known to say which of the two came first.

  What happens is a list of deeds, one for every step that callers, threads and the one who acknowledges
  cancels have made.  The statement reads the story of each job off that list: which of the two came
  first, and how often it was cancelled.  It does not say that a job ends once, but when it does; the
  example of a late acknowledgement and that of the second cancel are the two sides of it.
-/
import RobotPuzzle.Proofs.Scenes

namespace RobotPuzzle

namespace SearchHost

/-! ## The story of a job

  Reports and acknowledgements are told any number of times, and what concludes the search once at most.
  The kinds in between are those that end a job, so a story has more endings than one just if more than
  one entry stands behind the reports. -/

/-- The events of a job, by kind: reports, then what concludes the search, then acknowledgements. -/
structure Tells (kinds : List String) (reports : Nat) (conclusion : Option String) (acks : Nat) :
    Prop where
  /-- first the reports, then at most one conclusion, then the acknowledgements -/
  order : kinds = List.replicate reports progressKind ++ conclusion.toList
    ++ List.replicate acks cancelledKind
  /-- what concludes a search is a result or an error -/
  conclusion : ∀ kind ∈ conclusion, kind = "solver_result" ∨ kind = "solver_error"

/-- At most one event of a job ends it, and it is the last one. -/
def EndsOnce (kinds : List String) : Prop :=
  kinds.countP (terminalKinds.contains ·) ≤ 1 ∧
    kinds.Pairwise fun kind _ => terminalKinds.contains kind = false

instance (kinds : List String) : Decidable (EndsOnce kinds) :=
  inferInstanceAs (Decidable (_ ∧ _))

section Tells

variable {kinds : List String} {reports acks : Nat} {conclusion : Option String}

theorem Tells.acknowledge (h : Tells kinds reports conclusion acks) :
    Tells (kinds ++ [cancelledKind]) reports conclusion (acks + 1) := by
  refine ⟨?_, h.conclusion⟩
  rw [h.order, List.append_assoc, ← List.replicate_succ']

/-- A report comes behind the other reports, as long as nothing else has been told. -/
theorem Tells.report (h : Tells kinds reports none 0) :
    Tells (kinds ++ [progressKind]) (reports + 1) none 0 := by
  refine ⟨?_, h.conclusion⟩
  rw [h.order, List.replicate_succ']
  simp

theorem Tells.conclude (h : Tells kinds reports none 0) {kind : String}
    (hkind : kind = "solver_result" ∨ kind = "solver_error") :
    Tells (kinds ++ [kind]) reports (some kind) 0 := by
  refine ⟨?_, fun other hother => ?_⟩
  · rw [h.order]
    simp
  · cases hother
    exact hkind

/-- What tells the end, after the reports. -/
theorem Tells.ends (h : Tells kinds reports conclusion acks) :
    ∀ kind ∈ conclusion.toList ++ List.replicate acks cancelledKind,
      terminalKinds.contains kind = true := by
  intro kind hkind
  rcases List.mem_append.1 hkind with hconclusion | hack
  · rcases h.conclusion kind (Option.mem_toList.1 hconclusion) with rfl | rfl
    · rfl
    · rfl
  · rw [(List.mem_replicate.1 hack).2]
    rfl

/-- A list of endings ends once just if it has one entry at most. -/
theorem endsOnce_of_terminal {ends : List String}
    (hends : ∀ kind ∈ ends, terminalKinds.contains kind = true) (reports : Nat) :
    EndsOnce (List.replicate reports progressKind ++ ends) ↔ ends.length ≤ 1 := by
  have hprogress : terminalKinds.contains progressKind = false := rfl
  -- reports are not endings, so the endings are all that is counted
  have hcount : (List.replicate reports progressKind ++ ends).countP (terminalKinds.contains ·)
      = ends.length := by
    rw [List.countP_append, List.countP_replicate, hprogress, List.countP_eq_length.2 hends]
    exact Nat.zero_add _
  unfold EndsOnce
  rw [hcount, and_iff_left_iff_imp]
  -- conversely, one ending at most leaves no pair of which the first is an ending
  intro hone
  refine List.pairwise_append.2 ⟨List.pairwise_replicate.2 (Or.inr hprogress), ?_, ?_⟩
  · cases ends with
    | nil => exact .nil
    | cons first rest =>
      have hnone : rest = [] := List.eq_nil_of_length_eq_zero (by rw [List.length_cons] at hone; omega)
      rw [hnone]
      exact List.pairwise_singleton _ _
  · intro kind hkind other _
    rw [(List.mem_replicate.1 hkind).2]
    exact hprogress

/-- The acknowledgements can be counted in the story. -/
theorem Tells.count_cancelled (h : Tells kinds reports conclusion acks) :
    kinds.count cancelledKind = acks := by
  have hreports : (List.replicate reports progressKind).count cancelledKind = 0 :=
    List.count_eq_zero.2 fun hmem => absurd (List.mem_replicate.1 hmem).2 (by decide)
  have hconclusion : conclusion.toList.count cancelledKind = 0 := by
    refine List.count_eq_zero.2 fun hmem => ?_
    rcases h.conclusion _ (Option.mem_toList.1 hmem) with heq | heq
    · exact absurd heq (by decide)
    · exact absurd heq (by decide)
  rw [h.order, List.count_append, List.count_append, List.count_replicate_self, hreports, hconclusion,
    Nat.zero_add]

/-- **One ending**, just if there is one entry at most behind the reports. -/
theorem Tells.endsOnce_iff (h : Tells kinds reports conclusion acks) :
    EndsOnce kinds ↔ conclusion.toList.length + acks ≤ 1 := by
  rw [h.order, List.append_assoc, endsOnce_of_terminal h.ends, List.length_append, List.length_replicate]

end Tells

namespace Scene

/-- One more notice is one more entry in the story of its job, and in no other. -/
theorem kindsOf_append {sc : Scene} {number n : Nat} {kind : String} {data : Json} {told : List Notice}
    (htold : told = sc.told ++ [⟨number, kind, data⟩]) (sc' : Scene) (hsc : sc'.told = told) :
    sc'.kindsOf n = sc.kindsOf n ++ if number = n then [kind] else [] := by
  unfold kindsOf
  rw [hsc, htold, List.filter_append, List.map_append]
  by_cases h : number = n
  · rw [if_pos h, List.filter_cons_of_pos (by simpa using h)]
    rfl
  · rw [if_neg h, List.filter_cons_of_neg (by simpa using h)]
    rfl

/-- An acknowledgement is told whether the job is silenced or not. -/
theorem kindsOf_acknowledge (sc : Scene) (number n : Nat) :
    (sc.acknowledge number).kindsOf n
      = sc.kindsOf n ++ if number = n then [cancelledKind] else [] :=
  kindsOf_append rfl _ rfl

theorem say_silenced {sc : Scene} {number : Nat} (hs : number ∈ sc.host.silenced) (kind : String)
    (data : Json) : sc.say number kind data = sc := by
  unfold say
  rw [publishFor_silenced hs, if_pos (List.contains_iff_mem.2 hs)]

theorem kindsOf_say {sc : Scene} {number : Nat} (hs : number ∉ sc.host.silenced) (kind : String)
    (data : Json) (n : Nat) :
    (sc.say number kind data).kindsOf n = sc.kindsOf n ++ if number = n then [kind] else [] := by
  have hopen : ¬ sc.host.silenced.contains number = true := fun h => hs (List.contains_iff_mem.1 h)
  exact kindsOf_append rfl _ (if_neg hopen)

end Scene

/-! ## What every step keeps

  The deeds are what has happened, and the scene is what has come of it.  `Recorded` relates both for all
  jobs, also for those that are over; `Orderly` adds what is known of the job that is running. -/

/-- The deed ends the search of the job: it is cancelled or concluded. -/
def Deed.ends (n : Nat) : Deed → Bool
  | .cancel number => number == n
  | .conclude number => number == n
  | _ => false

/-- What has ended the search of a job first. -/
def firstEnd (n : Nat) (deeds : List Deed) : Option Deed := deeds.find? (Deed.ends n)

/-- What holds of a scene after some deeds, if the host was new and had this bus. -/
structure Recorded (bus : EventBus) (deeds : List Deed) (sc : Scene) : Prop where
  /-- the bus has been given just what has been told -/
  bus : sc.host.bus = bus.publishAll (sc.told.map Notice.event)
  /-- the job that is running is the latest one -/
  latest : ∀ job, sc.host.running = some job → job.number = sc.host.latest
  /-- nothing is known of jobs to come -/
  unborn : ∀ n, sc.host.latest < n →
    sc.kindsOf n = [] ∧ n ∉ sc.unacknowledged ∧ firstEnd n deeds = none
  /-- every job has a story, and a conclusion is in it exactly if it came first -/
  tells : ∀ n, ∃ reports conclusion acks, Tells (sc.kindsOf n) reports conclusion acks ∧
    (conclusion.isSome = true ↔ firstEnd n deeds = some (.conclude n))
  /-- a cancel is told once, or still to be told -/
  cancels : ∀ n, (sc.kindsOf n).count cancelledKind + sc.unacknowledged.count n
    = deeds.count (.cancel n)

/-- While a job is searching, it is silenced just if it has been cancelled.  If it has not been, all it has
done so far is to report. -/
structure Orderly (bus : EventBus) (deeds : List Deed) (sc : Scene) : Prop
    extends Recorded bus deeds sc where
  /-- a silenced job has been cancelled before anything else has ended it -/
  hushed : ∀ job, sc.host.running = some job → sc.stage = .searching →
    job.number ∈ sc.host.silenced → firstEnd job.number deeds = some (.cancel job.number)
  /-- a job that is not silenced has not been ended, and has told of reports only -/
  unheard : ∀ job, sc.host.running = some job → sc.stage = .searching →
    job.number ∉ sc.host.silenced → firstEnd job.number deeds = none ∧
      job.number ∉ sc.unacknowledged ∧ ∃ reports, Tells (sc.kindsOf job.number) reports none 0

/-- At first nothing has been done and nothing told. -/
theorem orderly_fresh (bus : EventBus) : Orderly bus [] (.fresh bus) where
  bus := rfl
  latest := fun _ hr => nomatch hr
  unborn := fun _ _ => ⟨rfl, List.not_mem_nil, rfl⟩
  tells := fun _ => ⟨0, none, 0, ⟨rfl, fun _ h => nomatch h⟩, by simp [firstEnd]⟩
  cancels := fun _ => rfl
  hushed := fun _ hr => nomatch hr
  unheard := fun _ hr => nomatch hr

/-- A job that starts has the next number, and whoever was silenced is not any more. -/
theorem start_cases {h h' : SearchHost} {level : Level} {options : Search.Options}
    {evaluation : Evaluation.Options} (hs : h.start level options evaluation = .ok h') :
    h'.bus = h.bus ∧ h'.latest = h.latest + 1 ∧ h'.silenced = [] ∧
      ∃ job, h'.running = some job ∧ job.number = h.latest + 1 := by
  unfold start at hs
  split at hs
  · cases hs
  · cases hs
    exact ⟨rfl, rfl, rfl, _, rfl, rfl⟩

theorem publishAll_concat (bus : EventBus) (told : List Notice) (notice : Notice) :
    bus.publishAll ((told ++ [notice]).map Notice.event)
      = ((bus.publishAll (told.map Notice.event)).publish notice.event).1 := by
  rw [List.map_append, EventBus.publishAll, List.foldl_append]
  rfl

section Steps

variable {bus : EventBus} {deeds : List Deed} {sc sc' : Scene} {deed : Deed} {n : Nat}

/-- Only cancels are counted. -/
theorem count_of_ne (hne : deed ≠ .cancel n) :
    (deeds ++ [deed]).count (.cancel n) = deeds.count (.cancel n) := by
  rw [List.count_append, List.count_singleton, if_neg (by simpa using hne), Nat.add_zero]

/-- What comes later is not first. -/
theorem firstEnd_of_some {first : Deed} (h : firstEnd n deeds = some first) (deed : Deed) :
    firstEnd n (deeds ++ [deed]) = some first := by
  rw [firstEnd, List.find?_append]
  rw [firstEnd] at h
  rw [h]
  rfl

/-- If nothing has ended the search, the deed that ends it is the first to do so. -/
theorem firstEnd_of_none (h : firstEnd n deeds = none) (hends : deed.ends n = true) :
    firstEnd n (deeds ++ [deed]) = some deed := by
  rw [firstEnd, List.find?_append]
  rw [firstEnd] at h
  rw [h, List.find?_cons_of_pos hends]
  rfl

theorem firstEnd_of_not_ends (hends : deed.ends n = false) :
    firstEnd n (deeds ++ [deed]) = firstEnd n deeds := by
  rw [firstEnd, List.find?_append, List.find?_cons_of_neg (Bool.eq_false_iff.1 hends), List.find?_nil,
    Option.or_none]
  rfl

/-- Once the search of a job is over, nothing is to be said of it any more. -/
theorem Recorded.orderly (h : Recorded bus deeds sc) (hover : sc.stage ≠ .searching) :
    Orderly bus deeds sc :=
  ⟨h, fun _ _ hstage => absurd hstage hover, fun _ _ hstage => absurd hstage hover⟩

/-- A deed that neither cancels a job nor concludes it, and that nobody is told of. -/
theorem Recorded.other (h : Recorded bus deeds sc) (deed : Deed) (hends : ∀ n, deed.ends n = false) :
    Recorded bus (deeds ++ [deed]) sc := by
  refine ⟨h.bus, h.latest, fun n hn => ?_, fun n => ?_, fun n => ?_⟩
  · rw [firstEnd_of_not_ends (hends n)]
    exact h.unborn n hn
  · rw [firstEnd_of_not_ends (hends n)]
    exact h.tells n
  · have hne : deed ≠ .cancel n := by
      rintro rfl
      have hthis := hends n
      simp [Deed.ends] at hthis
    rw [count_of_ne hne]
    exact h.cancels n

/-- The thread of a job goes on, and nobody is told. -/
theorem Recorded.of_same (h : Recorded bus deeds sc) (hbus : sc'.host.bus = sc.host.bus)
    (hlatest : sc'.host.latest = sc.host.latest)
    (hrunning : ∀ job, sc'.host.running = some job → sc.host.running = some job)
    (htold : sc'.told = sc.told) (hpending : sc'.unacknowledged = sc.unacknowledged) :
    Recorded bus deeds sc' := by
  have hkinds : ∀ n, sc'.kindsOf n = sc.kindsOf n := fun n => by
    unfold Scene.kindsOf
    rw [htold]
  refine ⟨?_, fun job hr => ?_, fun n hn => ?_, fun n => ?_, fun n => ?_⟩
  · rw [hbus, htold]
    exact h.bus
  · rw [hlatest]
    exact h.latest job (hrunning job hr)
  · rw [hkinds, hpending]
    exact h.unborn n (hlatest ▸ hn)
  · rw [hkinds]
    exact h.tells n
  · rw [hkinds, hpending]
    exact h.cancels n

/-- **A job says something.**  Only its own story grows.  Whether it may say it at this point of its story
is asked of the caller, in `htells`. -/
theorem Recorded.say (h : Recorded bus deeds sc) {job : SearchJob} (hr : sc.host.running = some job)
    (hs : job.number ∉ sc.host.silenced) {kind : String} (data : Json) (hkind : kind ≠ cancelledKind)
    (hcancel : ∀ n, deed ≠ .cancel n) (hends : ∀ n, n ≠ job.number → deed.ends n = false)
    (htells : ∃ reports conclusion acks,
      Tells (sc.kindsOf job.number ++ [kind]) reports conclusion acks ∧
        (conclusion.isSome = true ↔
          firstEnd job.number (deeds ++ [deed]) = some (.conclude job.number))) :
    Recorded bus (deeds ++ [deed]) (sc.say job.number kind data) := by
  obtain ⟨hrunning, hlatest, -⟩ := publishFor_keeps sc.host job.number kind data
  refine ⟨?_, fun other hother => ?_, fun n hn => ?_, fun n => ?_, fun n => ?_⟩
  · -- the bus has one event more, and the record one notice
    have hopen : ¬ sc.host.silenced.contains job.number = true :=
      fun hin => hs (List.contains_iff_mem.1 hin)
    show (sc.host.publishFor job.number kind data).bus = bus.publishAll (List.map Notice.event
      (if sc.host.silenced.contains job.number then sc.told
        else sc.told ++ [⟨job.number, kind, data⟩]))
    rw [publishFor, if_neg hopen, if_neg hopen, publishAll_concat, ← h.bus]
    rfl
  · show other.number = (sc.host.publishFor job.number kind data).latest
    rw [hlatest]
    exact h.latest other (hrunning.symm.trans hother)
  · -- a job that is not born yet is not the one that speaks
    have hlt : sc.host.latest < n := hlatest ▸ hn
    have hjob : n ≠ job.number := by
      have hnumber := h.latest job hr
      omega
    rw [Scene.kindsOf_say hs, if_neg hjob.symm, List.append_nil, firstEnd_of_not_ends (hends n hjob)]
    exact h.unborn n hlt
  · rw [Scene.kindsOf_say hs]
    -- only its own story grows, as the caller says that it may
    by_cases hjob : n = job.number
    · subst hjob
      rw [if_pos rfl]
      exact htells
    · rw [if_neg (Ne.symm hjob), List.append_nil, firstEnd_of_not_ends (hends n hjob)]
      exact h.tells n
  · rw [Scene.kindsOf_say hs, count_of_ne (hcancel n), ← h.cancels n, List.count_append]
    -- what is said is no acknowledgement
    have hnone : (if job.number = n then [kind] else []).count cancelledKind = 0 := by
      split
      · rw [List.count_singleton, if_neg (by simpa using hkind)]
      · rfl
    rw [hnone]
    rfl

/-! ### The steps of the callers

  Callers start jobs, cancel them and have cancels acknowledged. -/

/-- A new job has told nothing, and nobody knows its number. -/
theorem Orderly.start (h : Orderly bus deeds sc) {level : Level} {options : Search.Options}
    {evaluation : Evaluation.Options} {host : SearchHost}
    (hstart : sc.host.start level options evaluation = .ok host) :
    Orderly bus (deeds ++ [.start]) { sc with host, stage := .searching } := by
  obtain ⟨hbus, hlatest, hsilenced, job, hr, hnumber⟩ := start_cases hstart
  have hother := h.toRecorded.other .start fun _ => rfl
  refine ⟨⟨hbus.trans h.bus, fun other hrunning => ?_, fun n hn => ?_, hother.tells, hother.cancels⟩,
    fun other hrunning _ hs => ?_, fun other hrunning _ _ => ?_⟩
  · cases hr.symm.trans hrunning
    exact hnumber.trans hlatest.symm
  · have hlt : host.latest < n := hn
    exact hother.unborn n (by omega)
  · have hnobody : other.number ∈ host.silenced := hs
    rw [hsilenced] at hnobody
    cases hnobody
  · cases hr.symm.trans hrunning
    obtain ⟨hnew, hnobody, hfirst⟩ := hother.unborn job.number (by omega)
    exact ⟨hfirst, hnobody, 0, hnew, fun _ h => nomatch h⟩

/-- A cancel silences the job.  If it is the first deed to end the search, the search is over from now on,
whatever the thread still does. -/
theorem Orderly.cancel (h : Orderly bus deeds sc) {job : SearchJob} (hr : sc.host.running = some job) :
    Orderly bus (deeds ++ [.cancel job.number])
      { sc with host := sc.host.mark job, unacknowledged := job.number :: sc.unacknowledged } := by
  have hnumber := h.latest job hr
  have hends : ∀ n, n ≠ job.number → (Deed.cancel job.number).ends n = false := fun n hne =>
    beq_eq_false_iff_ne.2 hne.symm
  have hself : (Deed.cancel job.number).ends job.number = true := beq_self_eq_true job.number
  refine ⟨⟨h.bus, fun other hrunning => ?_, fun n hn => ?_, fun n => ?_, fun n => ?_⟩,
    fun other hrunning hstage _ => ?_, fun other hrunning _ hs => ?_⟩
  · cases hrunning
    exact hnumber
  · have hlt : sc.host.latest < n := hn
    obtain ⟨hnew, hnobody, hfirst⟩ := h.unborn n hlt
    rw [firstEnd_of_not_ends (hends n (by omega))]
    exact ⟨hnew, fun hmem => (List.mem_cons.1 hmem).elim (by omega) hnobody, hfirst⟩
  · -- a cancel is not a conclusion, and if it comes first there is none
    obtain ⟨reports, conclusion, acks, htells, hconclusion⟩ := h.tells n
    refine ⟨reports, conclusion, acks, htells, hconclusion.trans ?_⟩
    cases hfirst : firstEnd n deeds with
    | some first => rw [firstEnd_of_some hfirst]
    | none =>
      by_cases hjob : n = job.number
      · subst hjob
        rw [firstEnd_of_none hfirst hself]
        simp
      · rw [firstEnd_of_not_ends (hends n hjob), hfirst]
  · show (sc.kindsOf n).count cancelledKind + (job.number :: sc.unacknowledged).count n = _
    rw [List.count_append, List.count_cons, List.count_singleton, ← h.cancels n, Nat.add_assoc]
    by_cases hjob : job.number = n
    · subst hjob
      simp
    · simp [hjob]
  · cases hrunning
    show firstEnd job.number (deeds ++ [.cancel job.number]) = some (.cancel job.number)
    by_cases hs : job.number ∈ sc.host.silenced
    · exact firstEnd_of_some (h.hushed job hr hstage hs) _
    · exact firstEnd_of_none (h.unheard job hr hstage hs).1 hself
  · cases hrunning
    exact absurd (mem_silenced_mark.2 (Or.inl rfl)) hs

/-- An acknowledgement is told of a cancel that was still to be told, so the two counts move by one each.
-/
theorem Orderly.acknowledge (h : Orderly bus deeds sc) {number : Nat}
    (hpending : number ∈ sc.unacknowledged) :
    Orderly bus (deeds ++ [.acknowledge number]) (sc.acknowledge number) := by
  have hother := h.toRecorded.other (.acknowledge number) fun _ => rfl
  have hfirst : ∀ n, firstEnd n (deeds ++ [.acknowledge number]) = firstEnd n deeds :=
    fun n => firstEnd_of_not_ends rfl
  refine ⟨⟨?_, h.latest, fun n hn => ?_, fun n => ?_, fun n => ?_⟩, fun job hr hstage hs => ?_,
    fun job hr hstage hs => ?_⟩
  · show (sc.host.bus.publish _).1 = _
    rw [h.bus]
    exact (publishAll_concat bus sc.told ⟨number, cancelledKind, .obj []⟩).symm
  · obtain ⟨hnew, hnobody, hnone⟩ := hother.unborn n hn
    have hne : number ≠ n := by
      rintro rfl
      exact hnobody hpending
    rw [Scene.kindsOf_acknowledge, if_neg hne, List.append_nil]
    exact ⟨hnew, fun hmem => hnobody (List.mem_of_mem_erase hmem), hnone⟩
  · obtain ⟨reports, conclusion, acks, htells, hconclusion⟩ := hother.tells n
    rw [Scene.kindsOf_acknowledge]
    split
    · exact ⟨reports, conclusion, acks + 1, htells.acknowledge, hconclusion⟩
    · exact ⟨reports, conclusion, acks, (List.append_nil _).symm ▸ htells, hconclusion⟩
  · show ((sc.acknowledge number).kindsOf n).count cancelledKind
      + (sc.unacknowledged.erase number).count n = _
    rw [Scene.kindsOf_acknowledge, ← hother.cancels n, List.count_append]
    by_cases hjob : number = n
    · -- one cancel is told now, and no longer to be told
      subst hjob
      have hpos : 0 < sc.unacknowledged.count number := List.count_pos_iff.2 hpending
      rw [if_pos rfl, List.count_singleton_self, List.count_erase_self]
      omega
    · rw [if_neg hjob, List.count_nil, List.count_erase_of_ne (Ne.symm hjob)]
      rfl
  · rw [hfirst]
    exact h.hushed job hr hstage hs
  · obtain ⟨hnone, hnobody, reports, htells⟩ := h.unheard job hr hstage hs
    have hne : number ≠ job.number := by
      rintro rfl
      exact hnobody hpending
    rw [hfirst, Scene.kindsOf_acknowledge, if_neg hne, List.append_nil]
    exact ⟨hnone, fun hmem => hnobody (List.mem_of_mem_erase hmem), reports, htells⟩

/-! ### The steps of the thread

  A thread reports and concludes, and neither is heard of a job that is silenced. -/

/-- A report is told as long as nobody has cancelled the job. -/
theorem Orderly.report (h : Orderly bus deeds sc) {job : SearchJob} (hr : sc.host.running = some job)
    (hstage : sc.stage = .searching) (data : Json) :
    Orderly bus (deeds ++ [.report job.number]) (sc.say job.number progressKind data) := by
  have hfirst : ∀ n, firstEnd n (deeds ++ [.report job.number]) = firstEnd n deeds :=
    fun n => firstEnd_of_not_ends rfl
  by_cases hs : job.number ∈ sc.host.silenced
  · -- nobody hears a silenced job: neither its story nor the other ones grow
    rw [Scene.say_silenced hs]
    refine ⟨h.toRecorded.other _ fun _ => rfl, fun other hother => ?_, fun other hother => ?_⟩
    · rw [hfirst]
      exact h.hushed other hother
    · rw [hfirst]
      exact h.unheard other hother
  · -- a job that can still be heard has told of nothing but reports, and this is one more
    obtain ⟨hnone, hnobody, reports, htells⟩ := h.unheard job hr hstage hs
    obtain ⟨hrunning, -, hsilenced⟩ := publishFor_keeps sc.host job.number progressKind data
    refine ⟨h.toRecorded.say hr hs data (by decide) (fun _ => Deed.noConfusion) (fun _ _ => rfl)
      ⟨_, none, 0, htells.report, ?_⟩, fun other hother _ hin => ?_, fun other hother _ _ => ?_⟩
    · rw [hfirst, hnone]
      simp
    · cases hr.symm.trans (hrunning.symm.trans hother)
      have hsame : job.number ∈ (sc.host.publishFor job.number progressKind data).silenced := hin
      rw [hsilenced] at hsame
      exact absurd hsame hs
    · cases hr.symm.trans (hrunning.symm.trans hother)
      rw [hfirst, Scene.kindsOf_say hs, if_pos rfl]
      exact ⟨hnone, hnobody, reports + 1, htells.report⟩

/-- **The conclusion.**  If the job has been cancelled before, nobody is told and the cancel was first;
otherwise it is told, and it is first. -/
theorem Orderly.conclude (h : Orderly bus deeds sc) {job : SearchJob}
    (hr : sc.host.running = some job) (hstage : sc.stage = .searching) {kind : String}
    (hkind : kind = "solver_result" ∨ kind = "solver_error") (data : Json) :
    Orderly bus (deeds ++ [.conclude job.number])
      { sc.say job.number kind data with stage := .concluded } := by
  have hends : ∀ n, n ≠ job.number → (Deed.conclude job.number).ends n = false := fun n hne =>
    beq_eq_false_iff_ne.2 hne.symm
  have hself : (Deed.conclude job.number).ends job.number = true := beq_self_eq_true job.number
  have hsaid : Recorded bus (deeds ++ [.conclude job.number]) (sc.say job.number kind data) := by
    by_cases hs : job.number ∈ sc.host.silenced
    · -- it has been cancelled before, and nobody is told
      have hfirst := h.hushed job hr hstage hs
      rw [Scene.say_silenced hs]
      refine ⟨h.bus, h.latest, fun n hn => ?_, fun n => ?_, fun n => ?_⟩
      · have hne : n ≠ job.number := by
          have hnumber := h.latest job hr
          omega
        rw [firstEnd_of_not_ends (hends n hne)]
        exact h.unborn n hn
      · obtain ⟨reports, conclusion, acks, htells, hconclusion⟩ := h.tells n
        refine ⟨reports, conclusion, acks, htells, hconclusion.trans ?_⟩
        by_cases hjob : n = job.number
        · subst hjob
          rw [firstEnd_of_some hfirst, hfirst]
        · rw [firstEnd_of_not_ends (hends n hjob)]
      · rw [count_of_ne Deed.noConfusion]
        exact h.cancels n
    · obtain ⟨hnone, -, reports, htells⟩ := h.unheard job hr hstage hs
      have hne : kind ≠ cancelledKind := by
        rcases hkind with rfl | rfl
        · decide
        · decide
      refine h.toRecorded.say hr hs data hne (fun _ => Deed.noConfusion) hends
        ⟨reports, some kind, 0, htells.conclude hkind, ?_⟩
      rw [firstEnd_of_none hnone hself]
      simp
  exact Recorded.orderly (hsaid.of_same rfl rfl (fun _ hr => hr) rfl rfl) Stage.noConfusion

/-- **Every step keeps the order.** -/
theorem Step.orderly (h : Orderly bus deeds sc) (hstep : Step sc deed sc') :
    Orderly bus (deeds ++ [deed]) sc' := by
  cases hstep with
  | start level options evaluation hstart => exact h.start hstart
  | cancel hr => exact h.cancel hr
  | acknowledge hpending => exact h.acknowledge hpending
  | report data hr hstage => exact h.report hr hstage data
  | conclude data hr hstage hkind => exact h.conclude hr hstage hkind data
  | @unsilence job hr hstage =>
    -- the two steps that end a job say nothing, and leave it with nothing more to say
    have hother := h.toRecorded.other (.unsilence job.number) fun _ => rfl
    exact Recorded.orderly (hother.of_same rfl rfl (fun _ hr => hr) rfl rfl) Stage.noConfusion
  | @leave job hr hstage =>
    have hother := h.toRecorded.other (.leave job.number) fun _ => rfl
    have hover : sc.stage ≠ .searching := by
      rw [hstage]
      exact Stage.noConfusion
    exact Recorded.orderly (hother.of_same rfl rfl (fun _ hnone => nomatch hnone) rfl rfl) hover

/-- All steps keep the order, by induction on them. -/
theorem Runs.orderly {others : List Deed} (h : Orderly bus deeds sc) (hruns : Runs sc others sc') :
    Orderly bus (deeds ++ others) sc' := by
  induction hruns generalizing deeds with
  | here =>
    rw [List.append_nil]
    exact h
  | step first _ ih =>
    have hlast := ih (first.orderly h)
    rwa [List.append_assoc] at hlast

end Steps

/-! ## Runs -/

/-- **The story of a job.**  Whatever callers and threads do, and in whatever order, the bus has been given
just what has been told, in order.  The listeners of a job are told its reports; then its result or its
error, exactly if that comes before anybody cancels the job; and then of each cancel, once.  So just one
event ends the job, and none comes after it, exactly if what concludes the search and the cancels that
have been told are one at most. -/
theorem tells_story {bus : EventBus} {deeds : List Deed} {sc : Scene}
    (h : Runs (.fresh bus) deeds sc) :
    sc.host.bus = bus.publishAll (sc.told.map Notice.event) ∧
      ∀ n, ∃ reports conclusion acks, Tells (sc.kindsOf n) reports conclusion acks ∧
        (conclusion.isSome = true ↔ firstEnd n deeds = some (.conclude n)) ∧
        acks + sc.unacknowledged.count n = deeds.count (.cancel n) ∧
        (EndsOnce (sc.kindsOf n) ↔ conclusion.toList.length + acks ≤ 1) := by
  have horderly : Orderly bus deeds sc := h.orderly (orderly_fresh bus)
  refine ⟨horderly.bus, fun n => ?_⟩
  obtain ⟨reports, conclusion, acks, htells, hconclusion⟩ := horderly.tells n
  have hcancels := horderly.cancels n
  rw [htells.count_cancelled] at hcancels
  exact ⟨reports, conclusion, acks, htells, hconclusion, hcancels, htells.endsOnce_iff⟩

open Evaluation (doorstep)

/-- The first job is cancelled after a report, and concludes before the cancel is told; by then a second
job is running, which gets through. -/
theorem tells_story_late :
    ∃ deeds sc, Runs (.fresh ownBus) deeds sc ∧
      deeds = [.start, .report 1, .cancel 1, .conclude 1, .unsilence 1, .leave 1, .start,
        .acknowledge 1, .report 2, .conclude 2] ∧
      sc.told.map (fun notice => (notice.job, notice.kind)) = [(1, "solver_progress"),
        (1, "solver_cancelled"), (2, "solver_progress"), (2, "solver_result")] ∧
      EndsOnce (sc.kindsOf 1) ∧ EndsOnce (sc.kindsOf 2) ∧
      sc.host.bus = ownBus.publishAll (sc.told.map Notice.event) := by
  obtain ⟨deeds, sc, hruns, hdeeds, htold, hpending, hfirst⟩ : ∃ deeds sc,
      Runs (.fresh ownBus) deeds sc ∧
      deeds = [.start, .report 1, .cancel 1, .conclude 1, .unsilence 1, .leave 1, .start,
        .acknowledge 1, .report 2, .conclude 2] ∧
      sc.told.map (fun notice => (notice.job, notice.kind)) = [(1, "solver_progress"),
        (1, "solver_cancelled"), (2, "solver_progress"), (2, "solver_result")] ∧
      sc.unacknowledged = [] ∧ firstEnd 1 deeds = some (.cancel 1) := by
    refine ⟨_, _, .step (.start doorstep {} {} rfl) <|
      .step (.report .null rfl rfl) <| .step (.cancel rfl) <|
      .step (.conclude .null rfl rfl (Or.inl rfl)) <| .step (.unsilence rfl rfl) <|
      .step (.leave rfl rfl) <|
      .step (.start doorstep {} {} rfl) <|
      .step (.acknowledge List.mem_cons_self) <| .step (.report .null rfl rfl) <|
      .step (.conclude .null rfl rfl (Or.inl rfl)) (.here _), ?_⟩
    exact ⟨rfl, rfl, rfl, rfl⟩
  obtain ⟨hbus, hstory⟩ := tells_story hruns
  refine ⟨deeds, sc, hruns, hdeeds, htold, ?_, ?_, hbus⟩
  · -- the cancel has come first, and is the only one
    obtain ⟨-, conclusion, acks, -, hconclusion, hacks, hends⟩ := hstory 1
    rw [hpending, hdeeds] at hacks
    have hone : acks = 1 := hacks
    cases conclusion with
    | none => exact hends.2 (Nat.le_of_eq ((Nat.zero_add acks).trans hone))
    | some kind =>
      have hconcluded := hconclusion.1 rfl
      rw [hfirst] at hconcluded
      cases hconcluded
  · obtain ⟨-, conclusion, acks, -, -, hacks, hends⟩ := hstory 2
    rw [hpending, hdeeds] at hacks
    have hnone : acks = 0 := hacks
    have hlen : conclusion.toList.length ≤ 1 := by
      cases conclusion with
      | none => exact Nat.zero_le 1
      | some _ => exact Nat.le_refl 1
    exact hends.2 (by omega)

/-- Somebody cancels a job twice before its thread has exited.  Both calls are granted, and the listeners
are told twice that the job has ended. -/
theorem not_endsOnce_of_cancels :
    ∃ bus h h' deeds sc, bus = (ownBus.subscribe none).1 ∧
      SearchHost.start { bus } doorstep {} {} = .ok h ∧ h.cancel.2 = true ∧
      h.cancel.1.cancel = (h', true) ∧ Runs (.fresh bus) deeds sc ∧
      deeds = [.start, .cancel 1, .acknowledge 1, .cancel 1, .acknowledge 1] ∧ sc.host = h' ∧
      sc.kindsOf 1 = ["solver_cancelled", "solver_cancelled"] ∧ ¬ EndsOnce (sc.kindsOf 1) ∧
      (h'.bus.queue 0).events.map Event.kind = ["solver_cancelled", "solver_cancelled"] := by
  refine ⟨_, _, _, _, _, rfl, rfl, rfl, rfl,
    .step (.start doorstep {} {} rfl)
      ((cancel_runs rfl).append (cancel_runs rfl)), ?_⟩
  exact ⟨rfl, rfl, rfl, by decide, rfl⟩

end SearchHost

end RobotPuzzle
