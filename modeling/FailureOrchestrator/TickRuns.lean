import FailureOrchestrator.LeaseRecords

namespace FailureOrchestrator

open Exec WorkerTick

variable {P : Type} {w : WorkerTick P} {s s' s'' : Service P} {job : JobRecord P}

/-- Jobs are told apart, and the runs of those that have not ended are without a lease expiry. -/
structure Service.Sound (s : Service P) : Prop where
  jobs : SqlTable.Sound JobRecord.clashes s.jobs
  live : ∀ r ∈ s.jobs, r.status.terminal = false → (s.runs r.runId).Unrecorded r.runId

/-- What claims and runs leave: nothing is done for the jobs that have ended. -/
structure Service.Follows (s s' : Service P) : Prop where
  jobs : s.jobs.Follows s'.jobs
  ended : ∀ r ∈ s.jobs, r.status.terminal = true → s'.runs r.runId = s.runs r.runId
  live : ∀ r ∈ s.jobs, r.status.terminal = false → (s.runs r.runId).Unrecorded r.runId →
    (s'.runs r.runId).Unrecorded r.runId

namespace Service

theorem Follows.jobs_only {jobs : JobTable P} (h : s.jobs.Follows jobs) : s.Follows { s with jobs } :=
  ⟨h, fun _ _ _ => rfl, fun _ _ _ hunrecorded => hunrecorded⟩

theorem Follows.refl (s : Service P) : s.Follows s := jobs_only (.refl s.jobs)

theorem Follows.trans (h : s.Follows s') (h' : s'.Follows s'') : s.Follows s'' where
  jobs := h.jobs.trans h'.jobs
  ended r hr hterminal := (h'.ended r (h.jobs.ended hr hterminal) hterminal).trans (h.ended r hr hterminal)
  live r hr hlive hunrecorded := by
    obtain ⟨r', hr', hkeeps⟩ := h.jobs.grows.old r hr
    have hmiddle := h.live r hr hlive hunrecorded
    rw [← hkeeps.run] at hmiddle ⊢
    cases hterminal : r'.status.terminal with
    | true =>
      rw [h'.ended r' hr' hterminal]
      exact hmiddle
    | false => exact h'.live r' hr' hterminal hmiddle

theorem Sound.follows (h : s.Sound) (hf : s.Follows s') : s'.Sound where
  jobs := hf.jobs.sound h.jobs
  live r' hr' hlive := by
    obtain ⟨r, hr, hkeeps, hrlive⟩ := hf.jobs.live hr' hlive
    rw [hkeeps.run]
    exact hf.live r hr hrlive (h.live r hr hrlive)

end Service

namespace WorkerTick

theorem heartbeat_follows (jobId : Str) (times : List Int) (t : JobTable P) :
    t.Follows (w.heartbeat jobId times t).1 := by
  induction times generalizing t with
  | nil => exact .refl t
  | cons now rest ih =>
    have hstep : t.Follows (RenewCall.step ⟨jobId, w.workerId, w.leaseSeconds, now⟩ t none).1 := by
      unfold RenewCall.step
      dsimp only
      split
      · exact .refl t
      next expiresAt _ =>
        refine .update (fun r hr => ?_) (fun r => by exact ⟨rfl, rfl, rfl⟩) t
        exact owned_live hr
    unfold heartbeat
    dsimp only
    split
    · exact hstep.trans (ih _)
    · exact hstep
    · exact hstep

theorem claim_follows (h : SqlTable.Sound JobRecord.clashes s.jobs) :
    Triple (fun s' => s' = s) w.claim
      (fun found s' => s.Follows s' ∧ ∀ job, found = some job → job ∈ s'.jobs ∧ job.status = .running)
      (fun _ s' => s.Follows s') := by
  rintro s' rfl
  let c : ClaimCall := ⟨w.workerId, w.leaseSeconds, w.claimedAt⟩
  have hfollows : s'.Follows { s' with jobs := (c.after s'.jobs w.claimed).1 } :=
    .jobs_only (ClaimCall.after_follows _)
  have hrunning := ClaimCall.after_running (c := c) h w.claimed
  unfold claim
  dsimp only
  cases hphase : (c.after s'.jobs w.claimed).2 with
  | start => exact hfollows
  | claiming candidates => exact hfollows
  | claimed jobId => exact hfollows
  | finished result =>
    rw [hphase] at hrunning
    cases result with
    | error e => exact hfollows
    | ok found =>
      refine ⟨hfollows, ?_⟩
      rintro job rfl
      exact hrunning

theorem complete_follows (job : JobRecord P) (report : JobReport) :
    Triple s.Follows (w.complete job report) (fun _ => s.Follows) (fun _ => s.Follows) := by
  apply Triple.bind (Q := fun _ => s.Follows)
  · exact Triple.cond (fun _ => Triple.raise fun _ h => h) fun _ => Triple.ret fun _ h => h
  intro _
  apply Triple.read_bind
  intro s' hs'
  let c : CompleteCall := ⟨job.jobId, w.workerId, report.status, report.workflowStatus, report.failureClass,
    report.error, w.completedAt⟩
  have hcompleted : s'.jobs.Follows (c.step s'.jobs none).1 := by
    unfold CompleteCall.step
    dsimp only
    split
    · exact .update (fun r hr => owned_live hr) (fun r => by exact ⟨rfl, rfl, rfl⟩) _
    · exact .refl _
  apply Triple.bind (Q := fun _ => s.Follows)
  · apply Triple.update
    rintro _ rfl
    exact hs'.trans (.jobs_only hcompleted)
  intro _
  dsimp only
  split
  · exact Triple.ret fun _ h => h
  · exact Triple.raise fun _ h => h
  · exact Triple.ret fun _ h => h

section

variable [UnicodeData]

/-- A job that runs has its own run, and the rest of the service is left. -/
theorem process_follows (h : s.Sound) (hjob : job ∈ s.jobs) (hrunning : job.status = .running) :
    Triple (fun s' => s' = s) (w.process job) (fun _ => s.Follows) (fun _ => s.Follows) := by
  have hlive : job.status.terminal = false := by
    rw [hrunning]
    rfl
  let left : Service P := { s.put job.runId ((w.foundation job (s.runs job.runId)).leaves job.runId (s.runs job.runId))
    with jobs := (w.heartbeat job.jobId w.renewedAt s.jobs).1 }
  have hleft : s.Follows left := by
    constructor
    · exact heartbeat_follows _ _ _
    · intro r hr hterminal
      refine put_other fun hrun => ?_
      rw [JobTable.eq_of_run h.jobs hr hjob hrun, hlive] at hterminal
      cases hterminal
    · intro r hr hrlive hunrecorded
      by_cases hrun : r.runId = job.runId
      · rw [hrun] at hunrecorded ⊢
        have hleaves := FoundationRun.leaves_unrecorded hunrecorded (w.foundation job (s.runs job.runId))
        rw [← put_runs (s := s) (r := FoundationRun.leaves _ _ _)] at hleaves
        exact hleaves
      · have hsame : left.runs r.runId = s.runs r.runId := put_other hrun
        rw [hsame]
        exact hunrecorded
  apply Triple.read_bind
  intro s' hs'
  rw [hs']
  apply Triple.bind (Q := fun _ => s.Follows)
  · apply Triple.update
    rintro _ rfl
    exact hleft
  intro _
  split
  · exact Triple.ret fun _ h => h
  · exact Triple.cond (fun _ => Triple.ret fun _ h => h) fun _ => complete_follows _ _

/-- The recovered jobs of an iteration. -/
def recovered (w : WorkerTick P) (s : Service P) : List (JobRecord P) := (recoverStale w.recoveredAt s.jobs).2

/-- The service when the leases have expired and before their record. -/
def expired (w : WorkerTick P) (s : Service P) : Service P :=
  { s with jobs := (recoverStale w.recoveredAt s.jobs).1 }

/-- The service after the loop over the recovered jobs. -/
def noted (w : WorkerTick P) (s : Service P) : Service P :=
  (w.recordLeaseExpiries w.failure (w.recovered s) (w.expired s)).2

theorem tick_follows (h : (w.noted s).Sound) :
    (w.noted s).Follows (w.tick s).2 := by
  have hloop : Triple (fun s' => s' = w.expired s) (w.recordLeaseExpiries w.failure (w.recovered s))
      (fun _ s' => s' = w.noted s) (fun _ s' => s' = w.noted s) := by
    rintro _ rfl
    have hleft : (w.recordLeaseExpiries w.failure (w.recovered s) (w.expired s)).2 = w.noted s := rfl
    rcases hresult : w.recordLeaseExpiries w.failure (w.recovered s) (w.expired s) with ⟨e | _, s'⟩
    · rw [hresult] at hleft
      exact hleft
    · rw [hresult] at hleft
      exact hleft
  have hbody : Triple (fun s' => s' = s) w.tick (fun _ => (w.noted s).Follows) (fun _ => (w.noted s).Follows) := by
    apply Triple.handle (D := fun _ => (w.noted s).Follows)
    · apply Triple.read_bind
      intro s' hs'
      rw [hs']
      apply Triple.bind (Q := fun _ s' => s' = w.expired s)
      · apply Triple.update
        rintro _ rfl
        rfl
      intro _
      apply Triple.bind (Q := fun _ s' => s' = w.noted s)
      · refine hloop.mono (fun _ h => h) (fun _ _ h => h) fun _ s' hs' => ?_
        rw [hs']
        exact .refl _
      intro _
      apply Triple.bind (claim_follows h.jobs)
      intro found
      cases found with
      | none => exact Triple.ret fun _ hs' => hs'.1
      | some job =>
        apply Triple.bind (Q := fun _ => (w.noted s).Follows)
        · rintro s' ⟨hs', hfound⟩
          obtain ⟨hjob, hrunning⟩ := hfound job rfl
          refine (process_follows (w := w) (h.follows hs') hjob hrunning).mono (fun _ h => h) ?_ ?_ s' rfl
          · exact fun _ _ hafter => hs'.trans hafter
          · exact fun _ _ hafter => hs'.trans hafter
        intro _
        exact Triple.ret fun _ h => h
    · intro e
      cases e with
      | storage => exact Triple.ret fun _ h => h
      | queue e => exact Triple.raise fun _ h => h
  exact hbody.after rfl

end

/-- The recovered jobs are those that have expired. -/
theorem recovered_eq (h : s.Sound) : w.recovered s =
    (s.jobs.filter (·.expired w.recoveredAt)).map fun r => r.recover r.leaseOwner w.recoveredAt :=
  (recoverStale_expired h.jobs).1

theorem recovered_runs (h : s.Sound) :
    (w.recovered s).map (·.runId) = (s.jobs.filter (·.expired w.recoveredAt)).map (·.runId) := by
  rw [recovered_eq h, List.map_map]
  rfl

theorem of_recovered (h : s.Sound) (hjob : job ∈ w.recovered s) :
    ∃ r ∈ s.jobs, r.status.terminal = false ∧ r.runId = job.runId ∧ job ∈ (w.expired s).jobs ∧
      job.status.terminal = true := by
  rw [recovered_eq h] at hjob
  obtain ⟨r, hr, rfl⟩ := List.mem_map.mp hjob
  obtain ⟨hmem, hexpired⟩ := List.mem_filter.mp hr
  exact ⟨r, hmem, expired_live hexpired, rfl, (recoverStale_expired h.jobs).2 r hmem hexpired, rfl⟩

theorem recovered_unrecorded (h : s.Sound) : (∀ job ∈ w.recovered s, (s.runs job.runId).Unrecorded job.runId) ∧
    ((w.recovered s).map (·.runId)).Nodup := by
  constructor
  · intro job hjob
    obtain ⟨r, hr, hlive, hrun, -⟩ := of_recovered h hjob
    rw [← hrun]
    exact h.live r hr hlive
  · rw [recovered_runs h]
    refine List.pairwise_map.mpr ((List.Pairwise.filter _ h.jobs).imp fun {a b} hfree hrun => ?_)
    rw [JobRecord.clashes_of_run hrun.symm] at hfree
    cases hfree

theorem noted_frame (h : s.Sound) : (w.noted s).jobs = (w.expired s).jobs ∧ (w.noted s).hasState = s.hasState ∧
    ∀ runId ∉ (w.recovered s).map (·.runId), (w.noted s).runs runId = s.runs runId :=
  recordLeaseExpiries_frame (s := w.expired s) w w.failure (recovered_unrecorded h).1 (recovered_unrecorded h).2

/-- The run of a job that is none of the recovered ones. -/
theorem noted_other (h : s.Sound) {r : JobRecord P} (hr : r ∈ (w.expired s).jobs) (hjob : r ∉ w.recovered s) :
    (w.noted s).runs r.runId = s.runs r.runId := by
  refine (noted_frame h).2.2 _ fun hrun => ?_
  obtain ⟨job, hmem, hsame⟩ := List.mem_map.mp hrun
  obtain ⟨-, -, -, -, hstored, -⟩ := of_recovered h hmem
  rw [JobTable.eq_of_run ((recoverStale_follows _ _).sound h.jobs) hr hstored hsame.symm] at hjob
  exact hjob hmem

theorem noted_sound (h : s.Sound) : (w.noted s).Sound where
  jobs := by
    rw [(noted_frame h).1]
    exact (recoverStale_follows _ _).sound h.jobs
  live r' hr' hlive := by
    rw [(noted_frame h).1] at hr'
    obtain ⟨r, hr, hkeeps, hrlive⟩ := (recoverStale_follows _ _).live hr' hlive
    have hother : r' ∉ w.recovered s := by
      intro hmem
      obtain ⟨-, -, -, -, -, hterminal⟩ := of_recovered h hmem
      rw [hlive] at hterminal
      cases hterminal
    rw [noted_other h hr' hother, hkeeps.run]
    exact h.live r hr hrlive

section

variable [UnicodeData]

theorem tick_sound (h : s.Sound) : (w.tick s).2.Sound := (noted_sound h).follows (tick_follows (noted_sound h))

/-- An iteration leaves a job that has ended, and the rows of its run. -/
theorem tick_ended (h : s.Sound) {r : JobRecord P} (hr : r ∈ s.jobs) (hterminal : r.status.terminal = true) :
    r ∈ (w.tick s).2.jobs ∧ (w.tick s).2.runs r.runId = s.runs r.runId := by
  have hexpired : r ∈ (w.expired s).jobs := (recoverStale_follows _ _).ended hr hterminal
  have hnoted : r ∈ (w.noted s).jobs := by
    rw [(noted_frame h).1]
    exact hexpired
  have hother : r ∉ w.recovered s := by
    intro hmem
    obtain ⟨r', hr', hlive, hrun, -⟩ := of_recovered h hmem
    rw [JobTable.eq_of_run h.jobs hr' hr hrun, hterminal] at hlive
    cases hlive
  have hfollows := tick_follows (w := w) (noted_sound h)
  exact ⟨hfollows.jobs.ended hnoted hterminal, (hfollows.ended r hnoted hterminal).trans (noted_other h hexpired hother)⟩

/-- The failure leaves a recovered job with a run state without its record. -/
def Dropped (w : WorkerTick P) (s : Service P) : Prop :=
  Drops s.hasState ((s.jobs.filter (·.expired w.recoveredAt)).map (·.runId)) w.failure

/-- A recovered job is there after the iteration, and settled unless the failure drops one. -/
theorem tick_recovered (h : s.Sound) :
    (∀ job ∈ w.recovered s, job ∈ (w.tick s).2.jobs ∧ job.status.terminal = true) ∧
      ((∀ job ∈ w.recovered s, (w.tick s).2.Settled job.runId) ↔ ¬ w.Dropped s) := by
  have hfollows := tick_follows (w := w) (noted_sound h)
  have hstored : ∀ job ∈ w.recovered s, job ∈ (w.noted s).jobs ∧ job.status.terminal = true := by
    intro job hjob
    obtain ⟨-, -, -, -, hmem, hterminal⟩ := of_recovered h hjob
    rw [(noted_frame h).1]
    exact ⟨hmem, hterminal⟩
  constructor
  · intro job hjob
    obtain ⟨hmem, hterminal⟩ := hstored job hjob
    exact ⟨hfollows.jobs.ended hmem hterminal, hterminal⟩
  · obtain ⟨hopen, hnodup⟩ := recovered_unrecorded (w := w) h
    have hloop := recordLeaseExpiries_settled_iff (s := w.expired s) w w.failure hopen hnodup
    rw [recovered_runs h] at hloop
    refine Iff.trans (forall₂_congr fun job hjob => ?_) hloop
    obtain ⟨hmem, hterminal⟩ := hstored job hjob
    unfold Service.Settled Service.hasState
    rw [hfollows.ended job hmem hterminal]
    rfl

end

end WorkerTick

section Work

variable [UnicodeData] {ticks : List (WorkerTick P)}

/-- Iterations one after another, of any workers: the jobs that they recover and what they leave. -/
def work : List (WorkerTick P) → Service P → List (JobRecord P) × Service P
  | [], s => ([], s)
  | w :: rest, s => (w.recovered s ++ (work rest (w.tick s).2).1, (work rest (w.tick s).2).2)

/-- Nothing more happens to the run of a job that has ended. -/
theorem work_ended (ticks : List (WorkerTick P)) (h : s.Sound) {r : JobRecord P} (hr : r ∈ s.jobs) (hterminal : r.status.terminal = true) :
    (work ticks s).2.runs r.runId = s.runs r.runId := by
  induction ticks generalizing s with
  | nil => rfl
  | cons w rest ih =>
    obtain ⟨hmem, hrun⟩ := tick_ended (w := w) h hr hterminal
    exact (ih (tick_sound h) hmem).trans hrun

theorem recovered_settled_iff (h : s.Sound) (later : List (WorkerTick P)) :
    (∀ job ∈ w.recovered s, (work (w :: later) s).2.Settled job.runId) ↔ ¬ w.Dropped s := by
  obtain ⟨hstored, hsettled⟩ := tick_recovered (w := w) h
  refine Iff.trans (forall₂_congr fun job hjob => ?_) hsettled
  obtain ⟨hmem, hterminal⟩ := hstored job hjob
  have hrun := work_ended later (tick_sound (w := w) h) hmem hterminal
  unfold Service.Settled Service.hasState
  show (((work later (w.tick s).2).2.runs job.runId).state.isSome = true → _) ↔ _
  rw [show (work (w :: later) s).2 = (work later (w.tick s).2).2 from rfl, hrun]

omit [UnicodeData] in
theorem not_dropped (hw : w.failure = none) : ¬ w.Dropped s := by
  unfold WorkerTick.Dropped
  rw [hw]
  exact id

/-- Without a failure every recovered job is settled. -/
theorem work_settled (h : s.Sound) (hticks : ∀ w ∈ ticks, w.failure = none) :
    ∀ job ∈ (work ticks s).1, (work ticks s).2.Settled job.runId := by
  induction ticks generalizing s with
  | nil => exact fun _ hjob => nomatch hjob
  | cons w rest ih =>
    obtain ⟨hw, hrest⟩ := List.forall_mem_cons.mp hticks
    refine List.forall_mem_append.mpr ⟨?_, ih (tick_sound h) hrest⟩
    exact (recovered_settled_iff h rest).mpr (not_dropped hw)

/-- Every recovered job with a run state has its lease expiry recorded, in whatever iterations follow, exactly when the
one iteration with a failure drops none. -/
theorem lease_expiries_recorded_iff (h : s.Sound) (before later : List (WorkerTick P)) (w : WorkerTick P)
    (hbefore : ∀ k ∈ before, k.failure = none) (hlater : ∀ k ∈ later, k.failure = none) :
    (∀ job ∈ (work (before ++ w :: later) s).1, (work (before ++ w :: later) s).2.hasState job.runId = true →
      ((work (before ++ w :: later) s).2.runs job.runId).Recorded) ↔ ¬ w.Dropped (work before s).2 := by
  show (∀ job ∈ (work (before ++ w :: later) s).1, (work (before ++ w :: later) s).2.Settled job.runId) ↔ _
  induction before generalizing s with
  | nil =>
    refine Iff.trans List.forall_mem_append (Iff.trans (and_iff_left ?_) (recovered_settled_iff h later))
    exact work_settled (tick_sound h) hlater
  | cons k before ih =>
    obtain ⟨hk, hbefore⟩ := List.forall_mem_cons.mp hbefore
    refine Iff.trans List.forall_mem_append (Iff.trans (and_iff_right ?_) (ih (tick_sound h) hbefore))
    exact (recovered_settled_iff h (before ++ w :: later)).mpr (not_dropped hk)

end Work

section Sample

/-- An id that is longer than every id in use. -/
def IdSource.longer : IdSource where
  draw used := used.flatten ++ ['e']
  fresh used hmem := by
    have hle := (List.sublist_flatten_of_mem hmem).length_le
    rw [List.length_append, List.length_singleton] at hle
    omega

def sampleJob (n : Char) : JobRecord Unit where
  jobId := ['j', n]
  runId := ['r', n]
  status := .running
  workflow := "ci".toList
  payload := ()
  requestSha256 := []
  claimCount := 1
  leaseOwner := some "worker-a".toList
  leaseExpiresAt := some 100
  createdAt := 0
  updatedAt := 40

/-- A run of which a worker stored the start. -/
def sampleStarted (runId : Str) : RunStore where
  state := some { runId, workflowStatus := RunStatus.received.value, lastEventSequence := 1 }
  events := [{
    eventId := ['e']
    runId
    sequence := 1
    eventType := AuditEventType.runCreated.value
    stateBefore := none
    stateAfter := some RunStatus.received.value }]

/-- Two workers died in the middle of a run. -/
def sampleService : Service Unit where
  jobs := [sampleJob '1', sampleJob '2']
  runs := sampleStarted

def sampleTick (failure : Option TickFailure) : WorkerTick Unit where
  workerId := "worker-b".toList
  leaseSeconds := 60
  recoveredAt := 200
  claimedAt := 200
  completedAt := 200
  eventId := .longer
  foundation _ _ := ⟨[], fun _ _ => [], fun _ => none, .leaseLost⟩
  failure

theorem sampleService_sound : sampleService.Sound where
  jobs := by
    unfold SqlTable.Sound sampleService
    decide
  live r hr hlive := by
    refine ⟨?_, ?_, rfl⟩
    · rintro d hd
      cases hd
      rfl
    · rintro d hd
      cases hd
      exact Nat.le_refl 1

theorem sample_expiries_recorded :
    (∀ k ∈ [sampleTick none], k.failure = none) ∧
    ∀ job ∈ (@work Unit asciiData ([] ++ sampleTick (some (.claim 0)) :: [sampleTick none]) sampleService).1,
      (@work Unit asciiData ([] ++ sampleTick (some (.claim 0)) :: [sampleTick none]) sampleService).2.hasState
        job.runId = true →
      ((@work Unit asciiData ([] ++ sampleTick (some (.claim 0)) :: [sampleTick none]) sampleService).2.runs
        job.runId).Recorded := by
  have hkept : ¬ (sampleTick (some (.claim 0))).Dropped (@work Unit asciiData [] sampleService).2 := by
    unfold WorkerTick.Dropped
    exact id
  have hlater : ∀ k ∈ [sampleTick none], k.failure = none := by
    intro k hk
    rw [List.mem_singleton.mp hk]
    rfl
  exact ⟨hlater, (@lease_expiries_recorded_iff Unit sampleService asciiData sampleService_sound [] [sampleTick none]
    (sampleTick (some (.claim 0))) (fun _ hk => nomatch hk) hlater).mpr hkept⟩

/-- An append that fails for the first of two recovered jobs leaves both of them without a record. -/
theorem sample_expiries_dropped :
    ¬ ∀ job ∈ (@work Unit asciiData [sampleTick (some (.record 0 .append)), sampleTick none] sampleService).1,
      (@work Unit asciiData [sampleTick (some (.record 0 .append)), sampleTick none] sampleService).2.hasState job.runId =
        true →
        ((@work Unit asciiData [sampleTick (some (.record 0 .append)), sampleTick none] sampleService).2.runs
          job.runId).Recorded := by
  intro h
  have hmoved : ((sampleJob '2').recover (sampleJob '2').leaseOwner 200) ∈
      (@work Unit asciiData [sampleTick (some (.record 0 .append)), sampleTick none] sampleService).1 := by
    decide +kernel
  obtain ⟨e, d, hone, -⟩ := h _ hmoved (by decide +kernel)
  have hnone : ((@work Unit asciiData [sampleTick (some (.record 0 .append)), sampleTick none] sampleService).2.runs
    ((sampleJob '2').recover (sampleJob '2').leaseOwner 200).runId).expiries = [] := by
    decide +kernel
  rw [hnone] at hone
  cases hone

end Sample

end FailureOrchestrator
