import FailureOrchestrator.Interleaving
import FailureOrchestrator.PyText
import FailureOrchestrator.SqlTable
import Mathlib.Data.List.Sort

namespace FailureOrchestrator

inductive JobStatus where
  | queued
  | running
  | completed
  | failed
  | requiresReview
  deriving DecidableEq, Repr

def JobStatus.name : JobStatus → String
  | .queued => "QUEUED"
  | .running => "RUNNING"
  | .completed => "COMPLETED"
  | .failed => "FAILED"
  | .requiresReview => "REQUIRES_REVIEW"

def terminalJobStatuses : List JobStatus := [.completed, .failed, .requiresReview]

def JobStatus.terminal (s : JobStatus) : Bool := s ∈ terminalJobStatuses

/-- One row of the `jobs` table, with a payload of type `P`; a time counts the microseconds since the year 1. -/
structure JobRecord (P : Type) where
  jobId : Str
  runId : Str
  status : JobStatus := .queued
  workflow : Str
  repository : Str := []
  payload : P
  requestSha256 : Str
  idempotencyKey : Option Str := none
  claimCount : Nat := 0
  leaseOwner : Option Str := none
  leaseExpiresAt : Option Int := none
  workflowStatus : Option Str := none
  failureClass : Option Str := none
  error : Option Str := none
  createdAt : Int
  updatedAt : Int
  startedAt : Option Int := none
  finishedAt : Option Int := none
  deriving DecidableEq

/-- `now + timedelta(seconds=…)`; there is no date behind the year 9999. -/
def addSeconds (now seconds : Int) : Option Int :=
  if 0 ≤ now + seconds * 1000000 ∧ now + seconds * 1000000 < 315537897600000000 then some (now + seconds * 1000000)
  else none

namespace JobRecord

variable {P : Type}

/-- The primary key and the two unique columns; a null clashes with nothing. -/
def clashes (r r' : JobRecord P) : Bool :=
  r.jobId = r'.jobId || r.runId = r'.runId || r.idempotencyKey.isSome && r.idempotencyKey = r'.idempotencyKey

def waits (jobId : Str) (r : JobRecord P) : Bool := r.jobId = jobId && r.status = .queued

def owned (jobId workerId : Str) (r : JobRecord P) : Bool :=
  r.jobId = jobId && r.status = .running && r.leaseOwner = some workerId

/-- A null is not less than any time. -/
def expired (now : Int) (r : JobRecord P) : Bool := r.status = .running && r.leaseExpiresAt.any (· < now)

def stale (jobId : Str) (now : Int) (r : JobRecord P) : Bool := r.jobId = jobId && r.expired now

def claim (workerId : Str) (now expiresAt : Int) (r : JobRecord P) : JobRecord P :=
  { r with
    status := .running
    leaseOwner := some workerId
    leaseExpiresAt := some expiresAt
    claimCount := r.claimCount + 1
    startedAt := some now
    updatedAt := now }

def renew (now expiresAt : Int) (r : JobRecord P) : JobRecord P :=
  { r with leaseExpiresAt := some expiresAt, updatedAt := now }

/-- The outcome of a job, from its worker or from a recovery. -/
def finish (status : JobStatus) (workflowStatus failureClass error : Option Str) (now : Int) (r : JobRecord P) :
    JobRecord P :=
  { r with
    status
    workflowStatus
    failureClass
    error
    leaseExpiresAt := none
    finishedAt := some now
    updatedAt := now }

/-- `owner` is the owner that the recovery has read. -/
def recover (owner : Option Str) (now : Int) (r : JobRecord P) : JobRecord P :=
  r.finish .requiresReview r.workflowStatus r.failureClass
    (some ("worker lease expired before completion (owner=".toList ++ owner.getD "None".toList ++ [')'])) now

end JobRecord

abbrev JobTable (P : Type) := List (JobRecord P)

namespace JobTable

variable {P : Type} (t : JobTable P)

def get (jobId : Str) : Option (JobRecord P) := t.find? fun r => r.jobId = jobId

def byKey (key : Str) : Option (JobRecord P) := t.find? fun r => r.idempotencyKey = some key

def older (r r' : JobRecord P) : Prop := r.createdAt < r'.createdAt ∨ r.createdAt = r'.createdAt ∧ r.jobId ≤ r'.jobId

instance : DecidableRel (older (P := P)) := fun _ _ => inferInstanceAs (Decidable (_ ∨ _))

/-- The ten oldest queued jobs. -/
def candidates : List Str :=
  (((t.filter fun r => r.status = .queued).insertionSort older).take 10).map (·.jobId)

def expired (now : Int) : List (Str × Option Str) := (t.filter (·.expired now)).map fun r => (r.jobId, r.leaseOwner)

end JobTable

structure EnqueueResult (P : Type) where
  job : JobRecord P
  created : Bool

/-- What a call of the queue raises. -/
inductive QueueError where
  | idempotencyConflict
  | notTerminal (status : JobStatus)
  | integrity
  | overflow
  | assertion
  deriving DecidableEq, Repr

/-- The texts of the queue's own errors. -/
def QueueError.message : QueueError → Option Str
  | .idempotencyConflict => some "idempotency key reused with a different request body".toList
  | .notTerminal status => some ("not a terminal job status: JobStatus.".toList ++ status.name.toList)
  | .integrity | .overflow | .assertion => none

/-- The arguments of `enqueue`, its reading of the clock and the identifiers that it draws. -/
structure EnqueueCall (P : Type) where
  payload : P
  workflow : Str
  repository : Str := []
  idempotencyKey : Option Str := none
  now : Int
  jobId : Str
  runId : Str

inductive EnqueuePhase (P : Type) where
  | start
  | inserting
  | conflicted
  | inserted
  | finished (result : Except QueueError (EnqueueResult P))

namespace EnqueueCall

variable {P : Type} (digest : P → Str) (c : EnqueueCall P)

/-- An empty key is no key. -/
def key : Option Str := c.idempotencyKey.filter (· ≠ [])

def row : JobRecord P where
  jobId := c.jobId
  runId := c.runId
  workflow := c.workflow
  repository := c.repository
  payload := c.payload
  requestSha256 := digest c.payload
  idempotencyKey := c.idempotencyKey
  createdAt := c.now
  updatedAt := c.now

def replay (existing : JobRecord P) : Except QueueError (EnqueueResult P) :=
  if existing.requestSha256 ≠ digest c.payload then .error .idempotencyConflict else .ok ⟨existing, false⟩

def stored (t : JobTable P) : Option (JobRecord P) := c.key.bind t.byKey

/-- One transaction of the call; each of them holds a single statement. -/
def step (t : JobTable P) : EnqueuePhase P → JobTable P × EnqueuePhase P
  | .start =>
    match c.stored t with
    | some existing => (t, .finished (c.replay digest existing))
    | none => (t, .inserting)
  | .inserting =>
    match SqlTable.insert JobRecord.clashes (c.row digest) t with
    | some t' => (t', .inserted)
    | none => (t, if c.key.isSome then .conflicted else .finished (.error .integrity))
  | .conflicted =>
    match c.stored t with
    | some existing => (t, .finished (c.replay digest existing))
    | none => (t, .finished (.error .integrity))
  | .inserted =>
    match t.get c.jobId with
    | some job => (t, .finished (.ok ⟨job, true⟩))
    | none => (t, .finished (.error .assertion))
  | .finished result => (t, .finished result)

end EnqueueCall

structure ClaimCall where
  workerId : Str
  leaseSeconds : Int
  now : Int

inductive ClaimPhase (P : Type) where
  | start
  | claiming (candidates : List Str)
  | claimed (jobId : Str)
  | finished (result : Except QueueError (Option (JobRecord P)))

def ClaimCall.step {P : Type} (c : ClaimCall) (t : JobTable P) : ClaimPhase P → JobTable P × ClaimPhase P
  | .start => (t, .claiming t.candidates)
  | .claiming [] => (t, .finished (.ok none))
  | .claiming (jobId :: rest) =>
    match addSeconds c.now c.leaseSeconds with
    | none => (t, .finished (.error .overflow))
    | some expiresAt =>
      (SqlTable.update (·.waits jobId) (·.claim c.workerId c.now expiresAt) t,
        if t.countP (·.waits jobId) = 1 then .claimed jobId else .claiming rest)
  | .claimed jobId => (t, .finished (.ok (t.get jobId)))
  | .finished result => (t, .finished result)

structure RenewCall where
  jobId : Str
  workerId : Str
  leaseSeconds : Int
  now : Int

def RenewCall.step {P : Type} (c : RenewCall) (t : JobTable P) :
    Option (Except QueueError Bool) → JobTable P × Option (Except QueueError Bool)
  | none =>
    match addSeconds c.now c.leaseSeconds with
    | none => (t, some (.error .overflow))
    | some expiresAt =>
      (SqlTable.update (·.owned c.jobId c.workerId) (·.renew c.now expiresAt) t,
        some (.ok (t.countP (·.owned c.jobId c.workerId) = 1)))
  | some result => (t, some result)

structure CompleteCall where
  jobId : Str
  workerId : Str
  status : JobStatus
  workflowStatus : Option Str := none
  failureClass : Option Str := none
  error : Option Str := none
  now : Int

def CompleteCall.step {P : Type} (c : CompleteCall) (t : JobTable P) :
    Option (Except QueueError Bool) → JobTable P × Option (Except QueueError Bool)
  | none =>
    if c.status.terminal then
      (SqlTable.update (·.owned c.jobId c.workerId)
          (·.finish c.status c.workflowStatus c.failureClass c.error c.now) t,
        some (.ok (t.countP (·.owned c.jobId c.workerId) = 1)))
    else (t, some (.error (.notTerminal c.status)))
  | some result => (t, some result)

/-- The place of `recover_stale`: the expired jobs that are left, and the ones that it has moved. -/
inductive RecoverPhase (P : Type) where
  | start
  | recovering (stale : List (Str × Option Str)) (recovered : List (JobRecord P))
  | moved (jobId : Str) (stale : List (Str × Option Str)) (recovered : List (JobRecord P))
  | finished (recovered : List (JobRecord P))

/-- `now` is the call's reading of the clock. -/
def recoverStep {P : Type} (now : Int) (t : JobTable P) : RecoverPhase P → JobTable P × RecoverPhase P
  | .start => (t, .recovering (t.expired now) [])
  | .recovering [] recovered => (t, .finished recovered)
  | .recovering ((jobId, owner) :: stale) recovered =>
    (SqlTable.update (·.stale jobId now) (·.recover owner now) t,
      if t.countP (·.stale jobId now) = 1 then .moved jobId stale recovered else .recovering stale recovered)
  | .moved jobId stale recovered => (t, .recovering stale (recovered ++ (t.get jobId).toList))
  | .finished recovered => (t, .finished recovered)

/-- A call of the queue. -/
inductive JobCall (P : Type) where
  | enqueue (c : EnqueueCall P)
  | claim (c : ClaimCall)
  | renewLease (c : RenewCall)
  | complete (c : CompleteCall)
  | recoverStale (now : Int)

/-- A call of the queue under way. -/
inductive JobTask (P : Type) where
  | enqueue (c : EnqueueCall P) (phase : EnqueuePhase P)
  | claim (c : ClaimCall) (phase : ClaimPhase P)
  | renewLease (c : RenewCall) (result : Option (Except QueueError Bool))
  | complete (c : CompleteCall) (result : Option (Except QueueError Bool))
  | recoverStale (now : Int) (phase : RecoverPhase P)

variable {P : Type}

def JobCall.start : JobCall P → JobTask P
  | .enqueue c => .enqueue c .start
  | .claim c => .claim c .start
  | .renewLease c => .renewLease c none
  | .complete c => .complete c none
  | .recoverStale now => .recoverStale now .start

/-- The call runs its next transaction. -/
def JobTask.act (digest : P → Str) (t : JobTable P) : JobTask P → JobTable P × JobTask P
  | .enqueue c phase => ((c.step digest t phase).1, .enqueue c (c.step digest t phase).2)
  | .claim c phase => ((c.step t phase).1, .claim c (c.step t phase).2)
  | .renewLease c result => ((c.step t result).1, .renewLease c (c.step t result).2)
  | .complete c result => ((c.step t result).1, .complete c (c.step t result).2)
  | .recoverStale now phase => ((recoverStep now t phase).1, .recoverStale now (recoverStep now t phase).2)

end FailureOrchestrator
