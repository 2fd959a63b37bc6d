import FailureOrchestrator.PyText
import FailureOrchestrator.SqlTable
import Mathlib.Data.List.Sort
import Mathlib.Data.Rat.Init
import Mathlib.Algebra.Order.Ring.Rat

namespace FailureOrchestrator

namespace AutonomousRuntime

inductive RunStatus where
  | queued
  | running
  | retry
  | completed
  | deadLettered
  deriving DecidableEq

structure InvocationUsage where
  calls : Int := 0
  tokens : Int := 0
  costUsd : ℚ := 0
  deriving DecidableEq

/-- A run as a caller has it, and a row of the table `runs`; the payload is JSON of type `P`. -/
structure DurableRunState (P : Type) where
  runId : Str
  incidentId : Str
  status : RunStatus := .queued
  step : Str := "detected".toList
  attempts : Int := 0
  maxAttempts : Int := 3
  usage : InvocationUsage := {}
  payload : P
  lastError : Option Str := none
  nextRunAt : ℚ := 0
  leaseOwner : Option Str := none
  leaseUntil : ℚ := 0
  updatedAt : ℚ
  deriving DecidableEq

structure DeadLetter (P : Type) where
  runId : Str
  reason : Str
  state : DurableRunState P
  createdAt : ℚ
  deriving DecidableEq

structure SQLiteRunStore (P : Type) where
  runs : List (DurableRunState P) := []
  deadLetters : List (DeadLetter P) := []

namespace DurableRunState

variable {P : Type}

def retryExhausted (d : DurableRunState P) : Bool := d.maxAttempts ≤ d.attempts

/-- `status IN ('queued', 'retry')`. -/
def waits (d : DurableRunState P) : Bool := d.status = .queued || d.status = .retry

def due (now : ℚ) (d : DurableRunState P) : Bool := d.waits && d.nextRunAt ≤ now && d.leaseUntil ≤ now

/-- `ORDER BY next_run_at, updated_at`. -/
def before (d d' : DurableRunState P) : Prop :=
  d.nextRunAt < d'.nextRunAt ∨ d.nextRunAt = d'.nextRunAt ∧ d.updatedAt ≤ d'.updatedAt

instance : DecidableRel (before (P := P)) := fun _ _ => inferInstanceAs (Decidable (_ ∨ _))

def lease (owner : Str) (leaseUntil : ℚ) (d : DurableRunState P) : DurableRunState P :=
  { d with leaseOwner := some owner, leaseUntil, status := .running }

/-- A state without a lease. -/
def unleased (d : DurableRunState P) : DurableRunState P := { d with leaseOwner := none, leaseUntil := 0 }

end DurableRunState

namespace SQLiteRunStore

variable {P : Type} (s : SQLiteRunStore P)

/-- `INSERT … ON CONFLICT(run_id) DO UPDATE`. -/
def save (state : DurableRunState P) (now : ℚ) : SQLiteRunStore P :=
  let row := { state with updatedAt := now }
  { s with
    runs :=
      if s.runs.any (·.runId = row.runId) then SqlTable.update (·.runId = row.runId) (fun _ => row) s.runs
      else s.runs ++ [row] }

/-- The rows that `lease_due` selects; a negative limit is none. -/
def dueRows (now : ℚ) (limit : Int) : List (DurableRunState P) :=
  let rows := (s.runs.filter (·.due now)).insertionSort DurableRunState.before
  if limit < 0 then rows else rows.take limit.toNat

/-- One transaction: what it returns, and the store behind it. -/
def leaseDue (owner : Str) (now leaseSeconds : ℚ) (limit : Int) : List (DurableRunState P) × SQLiteRunStore P :=
  let rows := s.dueRows now limit
  let leaseUntil := now + leaseSeconds
  let runs := SqlTable.update (fun d => d.runId ∈ rows.map (·.runId))
    (fun d => { d with leaseOwner := some owner, leaseUntil, status := .running, updatedAt := now }) s.runs
  (rows.map (·.lease owner leaseUntil), { s with runs })

def deadLetter (state : DurableRunState P) (reason : Str) (now createdAt : ℚ) : SQLiteRunStore P :=
  let dead := { state.unleased with status := .deadLettered, lastError := some reason }
  { (s.save dead now) with deadLetters := s.deadLetters ++
      [⟨dead.runId, reason, { dead with updatedAt := now }, createdAt⟩] }

/-- The state of `mark_retry` behind its first lines. -/
def failed (state : DurableRunState P) (error : Str) : DurableRunState P :=
  { state.unleased with attempts := state.attempts + 1, lastError := some error }

def markRetry (state : DurableRunState P) (error : Str) (backoffSeconds now savedAt createdAt : ℚ) : SQLiteRunStore P :=
  if (failed state error).retryExhausted then
    s.deadLetter (failed state error) "retry_budget_exhausted".toList savedAt createdAt
  else s.save { (failed state error) with status := .retry, nextRunAt := now + backoffSeconds } savedAt

/-- `min(state.next_run_at, time.time()) if state.next_run_at else time.time()`. -/
def submitAt (state : DurableRunState P) (now : ℚ) : ℚ :=
  if state.nextRunAt ≠ 0 then min state.nextRunAt now else now

/-- `AutonomousRuntime.submit`. -/
def submit (state : DurableRunState P) (now savedAt : ℚ) : SQLiteRunStore P :=
  s.save { state with status := .queued, nextRunAt := submitAt state now } savedAt

/-- `AutonomousRuntime.complete`. -/
def complete (state : DurableRunState P) (step : Str) (savedAt : ℚ) : SQLiteRunStore P :=
  s.save { state.unleased with status := .completed, step } savedAt

/-- `AutonomousRuntime.poll`. -/
def poll (owner : Str) (now : ℚ) (limit : Int) : List (DurableRunState P) × SQLiteRunStore P := s.leaseDue owner now 60 limit

end SQLiteRunStore

/-- A run in the hands of a worker; `number` counts the hand-outs of the run since its last submit, and `held` ends when
the worker gives the state to `mark_retry` or `complete`. -/
structure Lease where
  runId : Str
  owner : Str
  grantedAt : ℚ
  leaseUntil : ℚ
  number : Nat
  maxAttempts : Int
  held : Bool := true
  deriving DecidableEq

/-- The store, every lease that it granted, and the hand-outs of each run since its last submit. -/
structure Fleet (P : Type) where
  store : SQLiteRunStore P := {}
  leases : List Lease := []
  handouts : Str → Nat := fun _ => 0

/-- A call of some worker, with its clock readings. A state is passed as the caller has it at that time; the number is
the one of the lease that it came from. -/
inductive RuntimeCall (P : Type) where
  | submit (state : DurableRunState P) (now savedAt : ℚ)
  | poll (owner : Str) (now : ℚ) (limit : Int)
  | markRetry (lease : Option Nat) (state : DurableRunState P) (error : Str) (backoffSeconds now savedAt createdAt : ℚ)
  | complete (lease : Option Nat) (state : DurableRunState P) (step : Str) (savedAt : ℚ)

def Lease.ended (l : Lease) : Lease := { l with held := false }

/-- The leases once one of them is given back. -/
def giveBack (leases : List Lease) : Option Nat → List Lease
  | none => leases
  | some k => leases.modify k Lease.ended

namespace Fleet

variable {P : Type}

/-- The lease on a run that `lease_due` returned. -/
def granted (f : Fleet P) (owner : Str) (now : ℚ) (d : DurableRunState P) : Lease where
  runId := d.runId
  owner
  grantedAt := now
  leaseUntil := d.leaseUntil
  number := f.handouts d.runId + 1
  maxAttempts := d.maxAttempts

def step (f : Fleet P) : RuntimeCall P → Fleet P
  | .submit state now savedAt =>
    { f with store := f.store.submit state now savedAt, handouts := Function.update f.handouts state.runId 0 }
  | .poll owner now limit =>
    { store := (f.store.poll owner now limit).2
      leases := f.leases ++ (f.store.poll owner now limit).1.map (f.granted owner now)
      handouts := fun runId => f.handouts runId + (f.store.poll owner now limit).1.countP (·.runId = runId) }
  | .markRetry lease state error backoffSeconds now savedAt createdAt =>
    { f with
      store := f.store.markRetry state error backoffSeconds now savedAt createdAt
      leases := giveBack f.leases lease }
  | .complete lease state step savedAt =>
    { f with store := f.store.complete state step savedAt, leases := giveBack f.leases lease }

def run (f : Fleet P) (calls : List (RuntimeCall P)) : Fleet P := calls.foldl step f

end Fleet

end AutonomousRuntime

end FailureOrchestrator
