import FailureOrchestrator.QueueAlone

namespace FailureOrchestrator

open Relation

variable {ι P : Type}

/-- A job after some calls of the queue. -/
abbrev JobRecord.MovesOn : JobRecord P → JobRecord P → Prop := ReflTransGen JobRecord.Moves

/-- A table after some calls: its jobs have moved on, and the others have begun unclaimed. -/
structure JobTable.Advances (t t' : JobTable P) : Prop where
  sound : SqlTable.Sound JobRecord.clashes t → SqlTable.Sound JobRecord.clashes t'
  grows : SqlTable.Grows JobRecord.MovesOn (fun r' => ∃ r : JobRecord P, r.Fresh ∧ r.MovesOn r') t t'

/-- The row that a call has left when it ended the job. -/
def JobTask.Outcome (r : JobRecord P) : JobTask P → Prop
  | .complete c _ => c.status.terminal = true ∧ r.leaseOwner = some c.workerId ∧
    ∃ r₀ : JobRecord P, r = r₀.finish c.status c.workflowStatus c.failureClass c.error c.now
  | .recoverStale now _ => ∃ r₀ : JobRecord P, r₀.expired now = true ∧ ∃ owner, r = r₀.recover owner now
  | _ => False

/-- What the stored rows say of a call. -/
structure JobTask.Backed (t : JobTable P) (task : JobTask P) : Prop where
  obtained : ∀ jobId, task.Obtained jobId → ∃ r ∈ t, r.jobId = jobId ∧ r.status ≠ .queued ∧ r.leaseOwner = task.claimer
  settled : ∀ jobId, task.Settled jobId → ∃ r ∈ t, r.jobId = jobId ∧ task.Outcome r

/-- No job is obtained by both calls, or ended by both. -/
structure JobTask.Apart (task other : JobTask P) : Prop where
  obtained : ∀ jobId, task.Obtained jobId → ¬ other.Obtained jobId
  settled : ∀ jobId, task.Settled jobId → ¬ other.Settled jobId

namespace JobRecord

variable {r r' : JobRecord P}

theorem MovesOn.same (h : r.MovesOn r') : r'.jobId = r.jobId := by
  induction h with
  | refl => rfl
  | tail _ hlast ih => exact hlast.same.trans ih

theorem MovesOn.status (h : r.MovesOn r') : ReflTransGen JobStatus.Moves r.status r'.status := by
  induction h with
  | refl => exact .refl
  | tail _ hlast ih =>
    rcases hlast.status with hsame | hmoved
    · rw [hsame]
      exact ih
    · exact ih.tail hmoved

/-- A job that has ended does not move. -/
theorem MovesOn.ended (h : r.MovesOn r') (hr : r.status.terminal = true) : r' = r := by
  cases h.cases_head with
  | inl hsame => exact hsame.symm
  | inr hfirst =>
    obtain ⟨r₁, hmoves, -⟩ := hfirst
    have halive := hmoves.alive
    rw [hr] at halive
    cases halive

theorem MovesOn.claimed_before (h : r.MovesOn r') (hr : r.status ≠ .queued) :
    r'.status ≠ .queued ∧ r'.leaseOwner = r.leaseOwner := by
  induction h with
  | refl => exact ⟨hr, rfl⟩
  | tail _ hlast ih =>
    obtain ⟨hclaimed, howner⟩ := ih
    obtain ⟨hclaimed', howner'⟩ := hlast.claimed_before hclaimed
    exact ⟨hclaimed', howner'.trans howner⟩

theorem MovesOn.counted (h : r.MovesOn r') (hr : r.Counted) : r'.Counted := by
  induction h with
  | refl => exact hr
  | tail _ hlast ih => exact hlast.counted ih

end JobRecord

namespace JobTable

variable {t t' t'' : JobTable P}

theorem Advances.refl (t : JobTable P) : t.Advances t := ⟨id, .refl fun _ => .refl⟩

theorem Advances.trans (h : t.Advances t') (h' : t'.Advances t'') : t.Advances t'' where
  sound ht := h'.sound (h.sound ht)
  grows := by
    refine h.grows.trans (fun _ _ _ => ReflTransGen.trans) (fun r r' hfresh hmoves => ?_) h'.grows
    obtain ⟨r₀, hr₀, hbefore⟩ := hfresh
    exact ⟨r₀, hr₀, hbefore.trans hmoves⟩

/-- An update that moves the rows it changes. -/
theorem Advances.update {c : JobRecord P → Bool} {f : JobRecord P → JobRecord P}
    (hmoves : ∀ r, c r = true → r.Moves (f r))
    (hf : ∀ r, (f r).jobId = r.jobId ∧ (f r).runId = r.runId ∧ (f r).idempotencyKey = r.idempotencyKey)
    (t : JobTable P) : t.Advances (SqlTable.update c f t) where
  sound := (JobTable.Follows.update (fun r hr => (hmoves r hr).alive) hf t).sound
  grows := .update (fun _ => .refl) fun r hr => .single (hmoves r hr)

theorem Advances.insert {r : JobRecord P} (hr : r.Fresh) (h : SqlTable.insert JobRecord.clashes r t = some t') :
    t.Advances t' where
  sound ht := ht.insert h
  grows := .insert (fun _ => .refl) ⟨r, hr, .refl⟩ h

theorem Advances.counted (h : t.Advances t') (ht : ∀ r ∈ t, r.Counted) : ∀ r' ∈ t', r'.Counted := by
  intro r' hr'
  rcases h.grows.new r' hr' with ⟨r, hr, hmoves⟩ | ⟨r, hfresh, hmoves⟩
  · exact hmoves.counted (ht r hr)
  · exact hmoves.counted hfresh.counted

end JobTable

section Turns

variable {digest : P → Str} {t : JobTable P}

theorem EnqueueCall.step_advances (c : EnqueueCall P) (phase : EnqueuePhase P) :
    t.Advances (c.step digest t phase).1 := by
  cases phase with
  | start =>
    unfold EnqueueCall.step
    dsimp only
    split <;> exact .refl t
  | inserting =>
    unfold EnqueueCall.step
    dsimp only
    split
    next t' hinsert => exact .insert ⟨rfl, rfl⟩ hinsert
    next => exact .refl t
  | conflicted =>
    unfold EnqueueCall.step
    dsimp only
    split <;> exact .refl t
  | inserted =>
    unfold EnqueueCall.step
    dsimp only
    split <;> exact .refl t
  | finished result => exact .refl t

theorem ClaimCall.step_advances (c : ClaimCall) (phase : ClaimPhase P) : t.Advances (c.step t phase).1 := by
  unfold ClaimCall.step
  split
  · exact .refl t
  · exact .refl t
  next jobId rest =>
    split
    · exact .refl t
    next expiresAt hexpires =>
      refine .update (fun r hr => ?_) (fun r => by exact ⟨rfl, rfl, rfl⟩) t
      exact .claimed c.workerId c.now expiresAt (waits_iff.mp hr).2
  · exact .refl t
  · exact .refl t

theorem owned_iff {jobId workerId : Str} {r : JobRecord P} : r.owned jobId workerId = true ↔
    r.jobId = jobId ∧ r.status = .running ∧ r.leaseOwner = some workerId := by
  unfold JobRecord.owned
  rw [Bool.and_eq_true, Bool.and_eq_true, decide_eq_true_eq, decide_eq_true_eq, decide_eq_true_eq, and_assoc]

theorem RenewCall.step_advances (c : RenewCall) (result : Option (Except QueueError Bool)) :
    t.Advances (c.step t result).1 := by
  unfold RenewCall.step
  split
  · split
    · exact .refl t
    next expiresAt hexpires =>
      refine .update (fun r hr => ?_) (fun r => by exact ⟨rfl, rfl, rfl⟩) t
      exact .renewed c.now expiresAt (owned_iff.mp hr).2.1
  · exact .refl t

theorem CompleteCall.step_advances (c : CompleteCall) (result : Option (Except QueueError Bool)) :
    t.Advances (c.step t result).1 := by
  unfold CompleteCall.step
  split
  · split
    next hterminal =>
      refine .update (fun r hr => ?_) (fun r => by exact ⟨rfl, rfl, rfl⟩) t
      exact .ended c.status c.workflowStatus c.failureClass c.error c.now (owned_iff.mp hr).2.1 hterminal
    · exact .refl t
  · exact .refl t

theorem expired_running {now : Int} {r : JobRecord P} (h : r.expired now = true) : r.status = .running := by
  unfold JobRecord.expired at h
  rw [Bool.and_eq_true, decide_eq_true_eq] at h
  exact h.1

theorem recoverStep_advances (now : Int) (phase : RecoverPhase P) : t.Advances (recoverStep now t phase).1 := by
  unfold recoverStep
  split
  · exact .refl t
  · exact .refl t
  next jobId owner stale recovered =>
    refine .update (fun r hr => ?_) (fun r => by exact ⟨rfl, rfl, rfl⟩) t
    exact .ended .requiresReview _ _ _ now (expired_running (stale_iff.mp hr).2) rfl
  · exact .refl t
  · exact .refl t

/-- No call does more to the table than move jobs and insert fresh ones. -/
theorem JobTask.act_advances (digest : P → Str) (t : JobTable P) (task : JobTask P) :
    t.Advances (task.act digest t).1 := by
  cases task with
  | enqueue c phase => exact c.step_advances phase
  | claim c phase => exact c.step_advances phase
  | renewLease c result => exact c.step_advances result
  | complete c result => exact c.step_advances result
  | recoverStale now phase => exact recoverStep_advances now phase

end Turns

section Calls

variable {digest : P → Str} {t : JobTable P} {task other : JobTask P} {jobId : Str}

theorem JobTask.act_claimer : (task.act digest t).2.claimer = task.claimer := by
  cases task <;> rfl

theorem JobTask.act_outcome {r : JobRecord P} : (task.act digest t).2.Outcome r ↔ task.Outcome r := by
  cases task <;> exact Iff.rfl

theorem JobTask.Outcome.ended {r : JobRecord P} (h : task.Outcome r) : r.status.terminal = true := by
  cases task with
  | complete c result =>
    obtain ⟨hterminal, -, r₀, rfl⟩ := h
    exact hterminal
  | recoverStale now phase =>
    obtain ⟨r₀, -, owner, rfl⟩ := h
    rfl
  | enqueue c phase => exact h.elim
  | claim c phase => exact h.elim
  | renewLease c result => exact h.elim

/-- A claim obtains a job by moving a queued row. -/
theorem JobTask.act_obtained (h : (task.act digest t).2.Obtained jobId) : task.Obtained jobId ∨
    (∃ r ∈ t, r.jobId = jobId ∧ r.status = .queued) ∧
      ∃ r ∈ (task.act digest t).1, r.jobId = jobId ∧ r.status ≠ .queued ∧ r.leaseOwner = task.claimer := by
  cases task with
  | enqueue c phase => exact h.elim
  | renewLease c result => exact h.elim
  | complete c result => exact h.elim
  | recoverStale now phase => exact h.elim
  | claim c phase =>
    cases phase with
    | start => exact h.elim
    | finished result => exact .inl h
    | claimed id =>
      change (JobTask.claim c (.finished (.ok (t.get id)))).Obtained jobId at h
      cases hget : t.get id with
      | none =>
        rw [hget] at h
        exact h.elim
      | some job =>
        rw [hget] at h
        exact .inl ((JobTable.mem_of_get hget).2.symm.trans h)
    | claiming candidates =>
      cases candidates with
      | nil => exact h.elim
      | cons id rest =>
        simp only [JobTask.act, ClaimCall.step] at h ⊢
        split at h
        next => exact h.elim
        next expiresAt hexpires =>
          dsimp only at h ⊢
          split at h
          next hone =>
            obtain rfl : id = jobId := h
            obtain ⟨r, hr, hwaits⟩ := SqlTable.exists_of_countP hone
            have hupdated := SqlTable.mem_update (c := (·.waits id)) (f := (·.claim c.workerId c.now expiresAt)) hr
            rw [if_pos hwaits] at hupdated
            obtain ⟨hid, hqueued⟩ := waits_iff.mp hwaits
            exact .inr ⟨⟨r, hr, hid, hqueued⟩, _, hupdated, hid, nofun, rfl⟩
          next => exact h.elim

/-- A call ends a job by moving a running row. -/
theorem JobTask.act_settled (h : (task.act digest t).2.Settled jobId) : task.Settled jobId ∨
    (∃ r ∈ t, r.jobId = jobId ∧ r.status = .running) ∧
      ∃ r ∈ (task.act digest t).1, r.jobId = jobId ∧ task.Outcome r := by
  cases task with
  | enqueue c phase => exact h.elim
  | claim c phase => exact h.elim
  | renewLease c result => exact h.elim
  | complete c result =>
    cases result with
    | some result => exact .inl h
    | none =>
      simp only [JobTask.act, CompleteCall.step] at h ⊢
      split at h
      next hterminal =>
        rw [if_pos hterminal]
        change (JobTask.complete c (some (.ok (decide (t.countP (·.owned c.jobId c.workerId) = 1))))).Settled jobId at h
        by_cases hone : t.countP (·.owned c.jobId c.workerId) = 1
        · rw [decide_eq_true hone] at h
          obtain rfl : c.jobId = jobId := h
          obtain ⟨r, hr, howned⟩ := SqlTable.exists_of_countP hone
          have hupdated := SqlTable.mem_update (c := (·.owned c.jobId c.workerId))
            (f := (·.finish c.status c.workflowStatus c.failureClass c.error c.now)) hr
          rw [if_pos howned] at hupdated
          obtain ⟨hid, hrunning, howner⟩ := owned_iff.mp howned
          exact .inr ⟨⟨r, hr, hid, hrunning⟩, _, hupdated, hid, hterminal, howner, r, rfl⟩
        · rw [decide_eq_false hone] at h
          exact h.elim
      next => exact h.elim
  | recoverStale now phase =>
    cases phase with
    | start =>
      obtain ⟨job, hjob, -⟩ := h
      cases hjob
    | finished recovered => exact .inl h
    | moved id stale recovered =>
      obtain ⟨job, hjob, hid⟩ := h
      rcases List.mem_append.mp hjob with hold | hnew
      · exact .inl (.inr ⟨job, hold, hid⟩)
      · have hget : t.get id = some job := Option.mem_toList.mp hnew
        exact .inl (.inl ((JobTable.mem_of_get hget).2.symm.trans hid))
    | recovering stale recovered =>
      cases stale with
      | nil => exact .inl h
      | cons entry stale =>
        obtain ⟨id, owner⟩ := entry
        simp only [JobTask.act, recoverStep] at h ⊢
        split at h
        next hone =>
          rcases h with rfl | hold
          · obtain ⟨r, hr, hstale⟩ := SqlTable.exists_of_countP hone
            have hupdated := SqlTable.mem_update (c := (·.stale id now)) (f := (·.recover owner now)) hr
            rw [if_pos hstale] at hupdated
            obtain ⟨hid, hexpired⟩ := stale_iff.mp hstale
            exact .inr ⟨⟨r, hr, hid, expired_running hexpired⟩, _, hupdated, hid, r, hexpired, owner, rfl⟩
          · exact .inl hold
        next => exact .inl h

theorem JobTask.Backed.advances {t' : JobTable P} (h : task.Backed t) (ht : t.Advances t') : task.Backed t' where
  obtained jobId hjob := by
    obtain ⟨r, hr, hid, hclaimed, howner⟩ := h.obtained jobId hjob
    obtain ⟨r', hr', hmoves⟩ := ht.grows.old r hr
    obtain ⟨hclaimed', howner'⟩ := hmoves.claimed_before hclaimed
    exact ⟨r', hr', hmoves.same.trans hid, hclaimed', howner'.trans howner⟩
  settled jobId hjob := by
    obtain ⟨r, hr, hid, houtcome⟩ := h.settled jobId hjob
    obtain ⟨r', hr', hmoves⟩ := ht.grows.old r hr
    rw [hmoves.ended houtcome.ended] at hr'
    exact ⟨r, hr', hid, houtcome⟩

theorem JobTask.act_backed (h : task.Backed t) : (task.act digest t).2.Backed (task.act digest t).1 where
  obtained jobId hjob := by
    rw [JobTask.act_claimer]
    rcases JobTask.act_obtained hjob with hold | ⟨-, hnew⟩
    · exact (h.advances (JobTask.act_advances digest t task)).obtained jobId hold
    · exact hnew
  settled jobId hjob := by
    simp only [JobTask.act_outcome]
    rcases JobTask.act_settled hjob with hold | ⟨-, hnew⟩
    · exact (h.advances (JobTask.act_advances digest t task)).settled jobId hold
    · exact hnew

/-- A job that one call has moved out of the queue, or ended, no other call moves so again. -/
theorem JobTask.act_apart (ht : SqlTable.Sound JobRecord.clashes t) (hother : other.Backed t) (h : task.Apart other) :
    (task.act digest t).2.Apart other where
  obtained jobId hjob hobtained := by
    rcases JobTask.act_obtained hjob with hold | ⟨⟨r, hr, hid, hqueued⟩, -⟩
    · exact h.obtained jobId hold hobtained
    · obtain ⟨r', hr', hid', hclaimed, -⟩ := hother.obtained jobId hobtained
      rw [JobTable.eq_of_id ht hr' hr (hid'.trans hid.symm)] at hclaimed
      exact hclaimed hqueued
  settled jobId hjob hsettled := by
    rcases JobTask.act_settled hjob with hold | ⟨⟨r, hr, hid, hrunning⟩, -⟩
    · exact h.settled jobId hold hsettled
    · obtain ⟨r', hr', hid', houtcome⟩ := hother.settled jobId hsettled
      have hended := houtcome.ended
      rw [JobTable.eq_of_id ht hr' hr (hid'.trans hid.symm), hrunning] at hended
      cases hended

theorem JobTask.noninterference (digest : P → Str) : Pool.Noninterference (JobTask.act digest) (fun _ _ => True)
    (SqlTable.Sound JobRecord.clashes) (fun t task => task.Backed t) JobTask.Apart where
  symm _ _ h := ⟨fun jobId hother htask => h.obtained jobId htask hother, fun jobId hother htask => h.settled jobId htask hother⟩
  shared t task ht _ _ := (JobTask.act_advances digest t task).sound ht
  own _ _ _ h _ := JobTask.act_backed h
  other t task _ _ _ hother _ _ := hother.advances (JobTask.act_advances digest t task)
  pair _ _ _ ht _ hother h _ := JobTask.act_apart ht hother h

theorem JobCall.start_backed (c : JobCall P) : c.start.Backed t := by
  cases c with
  | enqueue c => exact ⟨fun _ h => h.elim, fun _ h => h.elim⟩
  | claim c => exact ⟨fun _ h => h.elim, fun _ h => h.elim⟩
  | renewLease c => exact ⟨fun _ h => h.elim, fun _ h => h.elim⟩
  | complete c => exact ⟨fun _ h => h.elim, fun _ h => h.elim⟩
  | recoverStale now => exact ⟨fun _ h => h.elim, fun _ h => h.elim⟩

theorem JobCall.start_apart (c : JobCall P) : c.start.Apart other := by
  cases c with
  | enqueue c => exact ⟨fun _ h => h.elim, fun _ h => h.elim⟩
  | claim c => exact ⟨fun _ h => h.elim, fun _ h => h.elim⟩
  | renewLease c => exact ⟨fun _ h => h.elim, fun _ h => h.elim⟩
  | complete c => exact ⟨fun _ h => h.elim, fun _ h => h.elim⟩
  | recoverStale now => exact ⟨fun _ h => h.elim, fun _ h => h.elim⟩

end Calls

section Runs

variable [DecidableEq ι] {digest : P → Str} {p : Pool ι (JobTable P) (JobTask P)}

theorem run_advances (digest : P → Str) (schedule : List ι) (p : Pool ι (JobTable P) (JobTask P)) :
    p.shared.Advances (p.run (JobTask.act digest) schedule).shared := by
  induction schedule generalizing p with
  | nil => exact .refl _
  | cons i rest ih => exact (JobTask.act_advances digest p.shared (p.task i)).trans (ih (p.turn (JobTask.act digest) i))

/-- Calls of the queue take turns at the table in any order. -/
theorem jobs_advance (digest : P → Str) (hsound : SqlTable.Sound JobRecord.clashes p.shared)
    (hcounted : ∀ r ∈ p.shared, r.Counted) (before after : List ι) :
    let t := (p.run (JobTask.act digest) before).shared
    let t' := (p.run (JobTask.act digest) (before ++ after)).shared
    (∀ r ∈ t, ∃ r' ∈ t', r'.jobId = r.jobId ∧ ReflTransGen JobStatus.Moves r.status r'.status ∧
        (r.status.terminal = true → r' = r) ∧
        (r.status ≠ .queued → r'.status ≠ .queued ∧ r'.leaseOwner = r.leaseOwner)) ∧
      (∀ r' ∈ t', (∃ r ∈ t, r.jobId = r'.jobId) ∨ ∃ r₀ : JobRecord P, r₀.Fresh ∧ r₀.MovesOn r') ∧
      SqlTable.Sound JobRecord.clashes t' ∧ ∀ r' ∈ t', r'.claimCount = if r'.status = .queued then 0 else 1 := by
  intro t t'
  have hbegun : p.shared.Advances t := run_advances digest before p
  have hwhole : t.Advances t' := by
    have hrest := run_advances digest after (p.run (JobTask.act digest) before)
    rwa [← Pool.run_append] at hrest
  refine ⟨fun r hr => ?_, fun r' hr' => ?_, hwhole.sound (hbegun.sound hsound), hwhole.counted (hbegun.counted hcounted)⟩
  · obtain ⟨r', hr', hmoves⟩ := hwhole.grows.old r hr
    exact ⟨r', hr', hmoves.same, hmoves.status, hmoves.ended, hmoves.claimed_before⟩
  · rcases hwhole.grows.new r' hr' with ⟨r, hr, hmoves⟩ | ⟨r, hfresh, hmoves⟩
    · exact .inl ⟨r, hr, hmoves.same.symm⟩
    · exact .inr ⟨r, hfresh, hmoves⟩

/-- However calls take turns at the table, each job is obtained by at most one claim and ended by at most one call, and
the stored row is the one that these calls have left. -/
theorem jobs_settled_once (digest : P → Str) (hsound : SqlTable.Sound JobRecord.clashes p.shared)
    (hstart : ∀ i, ∃ c : JobCall P, p.task i = c.start) (schedule : List ι) :
    let q := p.run (JobTask.act digest) schedule
    (∀ i j jobId, (q.task i).Obtained jobId → (q.task j).Obtained jobId → i = j) ∧
      (∀ i j jobId, (q.task i).Settled jobId → (q.task j).Settled jobId → i = j) ∧
      (∀ i jobId, (q.task i).Obtained jobId →
        ∃ r ∈ q.shared, r.jobId = jobId ∧ r.status ≠ .queued ∧ r.leaseOwner = (q.task i).claimer) ∧
      ∀ i jobId, (q.task i).Settled jobId → ∃ r ∈ q.shared, r.jobId = jobId ∧ (q.task i).Outcome r := by
  intro q
  have hbegin : p.Holds (SqlTable.Sound JobRecord.clashes) (fun t task => task.Backed t) JobTask.Apart := by
    refine ⟨hsound, fun i => ?_, fun i j _ => ?_⟩
    · obtain ⟨c, hc⟩ := hstart i
      rw [hc]
      exact c.start_backed
    · obtain ⟨c, hc⟩ := hstart i
      rw [hc]
      exact c.start_apart
  have hend := (JobTask.noninterference digest).run schedule hbegin (Pool.along_of_forall (fun _ _ => trivial) schedule p)
  refine ⟨fun i j jobId hi hj => ?_, fun i j jobId hi hj => ?_, fun i jobId hi => ?_, fun i jobId hi => ?_⟩
  · by_contra hne
    exact (hend.pair i j hne).obtained jobId hi hj
  · by_contra hne
    exact (hend.pair i j hne).settled jobId hi hj
  · exact (hend.task i).obtained jobId hi
  · exact (hend.task i).settled jobId hi

end Runs

section Samples

def sampleQueuedJob : JobRecord Unit where
  jobId := "job-1".toList
  runId := "run-1".toList
  workflow := "ci".toList
  payload := ()
  requestSha256 := []
  createdAt := 0
  updatedAt := 0

/-- Two workers that claim at the same time, and a recovery a minute later. -/
def sampleCall : Fin 3 → JobCall Unit
  | 0 => .claim ⟨"worker-a".toList, 30, 1000000⟩
  | 1 => .claim ⟨"worker-b".toList, 30, 1000000⟩
  | 2 => .recoverStale 61000000

def sampleQueue : Pool (Fin 3) (JobTable Unit) (JobTask Unit) := ⟨[sampleQueuedJob], fun i => (sampleCall i).start⟩

def sampleTurns : List (Fin 3) := [0, 1, 0, 1, 0, 1, 2, 2, 2, 2]

theorem sampleQueue_counted :
    SqlTable.Sound JobRecord.clashes (sampleQueue.run (JobTask.act fun _ => []) ([0, 1] ++ sampleTurns)).shared ∧
      ∀ r ∈ (sampleQueue.run (JobTask.act fun _ => []) ([0, 1] ++ sampleTurns)).shared,
        r.claimCount = if r.status = .queued then 0 else 1 :=
  (@jobs_advance (Fin 3) Unit _ sampleQueue (fun _ => []) (List.pairwise_singleton _ _)
    (fun r hr => by rw [List.mem_singleton.mp hr]; rfl) [0, 1] sampleTurns).2.2

theorem sampleQueue_settled_once :
    ((sampleQueue.run (JobTask.act fun _ => []) sampleTurns).task 0).Obtained "job-1".toList ∧
      ((sampleQueue.run (JobTask.act fun _ => []) sampleTurns).task 2).Settled "job-1".toList ∧
      ∀ j, ((sampleQueue.run (JobTask.act fun _ => []) sampleTurns).task j).Obtained "job-1".toList → 0 = j := by
  have hobtained : ((sampleQueue.run (JobTask.act fun _ => []) sampleTurns).task 0).Obtained "job-1".toList := rfl
  refine ⟨hobtained, ⟨_, List.mem_singleton.mpr rfl, rfl⟩, fun j hj => ?_⟩
  exact (@jobs_settled_once (Fin 3) Unit _ sampleQueue (fun _ => []) (List.pairwise_singleton _ _)
    (fun i => ⟨sampleCall i, rfl⟩) sampleTurns).1 0 j _ hobtained hj

end Samples

end FailureOrchestrator
