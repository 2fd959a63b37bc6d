import FailureOrchestrator.QueueAlone
import FailureOrchestrator.RunModel
import FailureOrchestrator.Sanitization

namespace FailureOrchestrator

open Exec

/-- The `jobs` table and, of each run, what the other tables hold of it. -/
structure Service (P : Type) where
  jobs : JobTable P
  runs : Str → RunStore

/-- Replaces the rows of one run. -/
def Service.put {P : Type} (s : Service P) (runId : Str) (r : RunStore) : Service P :=
  { s with runs := Function.update s.runs runId r }

/-- Draws an id that is not in use. -/
structure IdSource where
  draw : List Str → Str
  fresh : ∀ used, draw used ∉ used

/-- A storage call that a foundation makes; only the worker appends `WORKER_LEASE_EXPIRED`. -/
inductive PersistenceCall where
  | startRun (workflowStatus : Str)
  | emit (eventType : AuditEventType) (allowed : eventType ≠ .workerLeaseExpired) (stateBefore stateAfter : Option Str)
    (evidenceRefs : List DurableEvidenceRef)
  | checkpoint (c : Checkpoint)
  | write (ref : Str) (document : Document)

def PersistenceCall.exec (env : Env) (runId : Str) : PersistenceCall → Exec Journal RunError Unit
  | .startRun workflowStatus => RunPersistence.startRun env runId workflowStatus
  | .emit eventType _ stateBefore stateAfter evidenceRefs =>
    RunPersistence.emit env eventType stateBefore stateAfter evidenceRefs
  | .checkpoint c => RunPersistence.checkpoint env c
  | .write ref document => perform env (.write ref document)

/-- How `foundation.run` ends. -/
inductive RunOutcome where
  | returned (result : FoundationResult)
  | leaseLost
  | raised (e : RunError)

/-- What a foundation does for a job: its storage calls, the failures among them, and its end. -/
structure FoundationRun where
  calls : List PersistenceCall
  newId : String → Nat → Str
  fails : Nat → Option Str := fun _ => none
  outcome : RunOutcome

/-- The rows of the run after the calls, of which some may raise. -/
def FoundationRun.leaves (f : FoundationRun) (runId : Str) (s : RunStore) : RunStore :=
  let env : Env := { store := s, newId := f.newId, fails := f.fails }
  (f.calls.foldl (fun j (c : PersistenceCall) => (c.exec env runId j).2) {}).store env

/-- The storage calls of `_record_lease_expiry`. -/
inductive RecordCall where
  | loadRun
  | latestSequence
  | append
  | saveRun
  deriving DecidableEq, Repr

/-- The storage call of an iteration that raises. -/
inductive TickFailure where
  /-- a call for the recovered job that has `position` others in front of it -/
  | record (position : Nat) (call : RecordCall)
  /-- the transaction of `claim` with that many in front of it -/
  | claim (transaction : Nat)
  | complete
  deriving DecidableEq, Repr

/-- `storage` stands for a `SQLAlchemyError` or a `PersistenceError`. -/
inductive TickError where
  | storage
  | queue (e : QueueError)

inductive TickOutcome where
  | idle
  | processed
  | storageUnavailable
  deriving DecidableEq, Repr

/-- One iteration of a worker: its settings, its readings of the clock, the foundation that its factory builds, and the
storage call that fails. -/
structure WorkerTick (P : Type) where
  workerId : Str
  leaseSeconds : Int
  recoveredAt : Int
  claimedAt : Int
  completedAt : Int
  renewedAt : List Int := []
  eventId : IdSource
  foundation : JobRecord P → RunStore → FoundationRun
  failure : Option TickFailure := none

/-- The row of a job that has ended. -/
structure JobReport where
  status : JobStatus
  workflowStatus : Option Str := none
  failureClass : Option Str := none
  error : Option Str := none

def persistenceErrorStatus : Str := "PERSISTENCE_ERROR".toList

section

variable [UnicodeData]

/-- What `process` records of a run, unless the lease was lost. -/
def RunOutcome.report : RunOutcome → Option JobReport
  | .returned r =>
    let workflowStatus := if r.workflowStatus.isEmpty then r.status.value else r.workflowStatus
    let failureClass := r.run.classification.map (·.category.toList)
    if workflowStatus = persistenceErrorStatus ∨ r.run.workflowStatus = some persistenceErrorStatus then
      let reason := (r.run.stopReason.filter (· ≠ [])).getD "persistence error".toList
      some ⟨.requiresReview, some persistenceErrorStatus, failureClass, some ((sanitizeText reason).1.take 2000)⟩
    else some ⟨.completed, some workflowStatus, failureClass, none⟩
  | .leaseLost => none
  | .raised e =>
    some ⟨.failed, none, none, some ((sanitizeText (e.typeName.toList ++ ": ".toList ++ e.message)).1.take 2000)⟩

end

namespace WorkerTick

variable {P : Type} (w : WorkerTick P)

/-- One call of a store. -/
def storeCall (runId : Str) (op : StoreOp) : Exec (Service P) TickError Unit := fun s =>
  match (s.runs runId).refusal op with
  | some _ => (.error .storage, s)
  | none => (.ok (), s.put runId ((s.runs runId).apply op))

/-- The event for a run whose latest event has the given sequence. -/
def expiryEvent (job : JobRecord P) (d : DurableRunState) (s : RunStore) : AuditEvent where
  eventId := w.eventId.draw (s.events.map (·.eventId))
  runId := job.runId
  sequence := s.latestSequence + 1
  eventType := AuditEventType.workerLeaseExpired.value
  actor := w.workerId
  component := "server.worker".toList
  stateBefore := some d.workflowStatus
  stateAfter := some d.workflowStatus

def workerLeaseExpired : Str := "worker_lease_expired".toList

def recordLeaseExpiry (failing : Option RecordCall) (job : JobRecord P) : Exec (Service P) TickError Unit := do
  when (failing = some .loadRun) (raise .storage)
  let s ← read
  match (s.runs job.runId).state with
  | none => pure ()
  | some d => do
    when (failing = some .latestSequence) (raise .storage)
    let event := w.expiryEvent job d (s.runs job.runId)
    when (failing = some .append) (raise .storage)
    storeCall job.runId (.append event)
    when (failing = some .saveRun) (raise .storage)
    storeCall d.runId (.saveRun { d with lastEventSequence := event.sequence, stopReason := some workerLeaseExpired })

/-- The call that fails for the first of the jobs. -/
def failingHere : Option TickFailure → Option RecordCall
  | some (.record 0 call) => some call
  | _ => none

/-- The failure as the jobs behind the first one see it. -/
def failingLater : Option TickFailure → Option TickFailure
  | some (.record (n + 1) call) => some (.record n call)
  | _ => none

/-- The loop over the recovered jobs. -/
def recordLeaseExpiries : Option TickFailure → List (JobRecord P) → Exec (Service P) TickError Unit
  | _, [] => pure ()
  | failure, job :: rest => do
    recordLeaseExpiry w (failingHere failure) job
    recordLeaseExpiries (failingLater failure) rest

/-- The number of transactions after which `claim` raises; one that does not raise is over by the twelfth. -/
def claimed : Nat :=
  match w.failure with
  | some (.claim n) => min n 12
  | _ => 12

def claim : Exec (Service P) TickError (Option (JobRecord P)) := fun s =>
  let left := ClaimCall.after ⟨w.workerId, w.leaseSeconds, w.claimedAt⟩ s.jobs w.claimed
  (match left.2 with
    | .finished (.ok job) => .ok job
    | .finished (.error e) => .error (.queue e)
    | _ => .error .storage,
    { s with jobs := left.1 })

/-- The renewals of the lease, up to one that an overflow ends or that finds the lease lost. -/
def heartbeat (jobId : Str) : List Int → JobTable P → JobTable P × Bool
  | [], t => (t, false)
  | now :: rest, t =>
    let (t', renewed) := RenewCall.step ⟨jobId, w.workerId, w.leaseSeconds, now⟩ t none
    match renewed with
    | some (.ok true) => heartbeat jobId rest t'
    | some (.ok false) => (t', true)
    | _ => (t', false)

def complete (job : JobRecord P) (report : JobReport) : Exec (Service P) TickError Bool := do
  when (w.failure = some .complete) (raise .storage)
  let s ← read
  let (jobs, recorded) := CompleteCall.step ⟨job.jobId, w.workerId, report.status, report.workflowStatus,
    report.failureClass, report.error, w.completedAt⟩ s.jobs none
  update fun s => { s with jobs }
  match recorded with
  | some (.ok done) => pure done
  | some (.error e) => raise (.queue e)
  | none => pure false

section

variable [UnicodeData]

def process (job : JobRecord P) : Exec (Service P) TickError Bool := do
  let s ← read
  let run := w.foundation job (s.runs job.runId)
  let (jobs, lost) := w.heartbeat job.jobId w.renewedAt s.jobs
  update fun s => { s.put job.runId (run.leaves job.runId (s.runs job.runId)) with jobs }
  match run.outcome.report with
  | none => pure false
  | some report => if lost then pure false else w.complete job report

/-- Recovers the stale leases, then claims and processes one job. -/
def tick : Exec (Service P) TickError TickOutcome :=
  handle
    (do
      let s ← read
      update fun s => { s with jobs := (recoverStale w.recoveredAt s.jobs).1 }
      w.recordLeaseExpiries w.failure (recoverStale w.recoveredAt s.jobs).2
      match ← w.claim with
      | none => pure .idle
      | some job => do
        let _ ← w.process job
        pure .processed)
    fun
      | .storage => pure .storageUnavailable
      | .queue e => raise (.queue e)

end

end WorkerTick

end FailureOrchestrator
