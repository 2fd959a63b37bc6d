import FailureOrchestrator.Models
import FailureOrchestrator.StateMachine

namespace FailureOrchestrator

inductive AuditEventType where
  | runCreated
  | runResumed
  | contextBuilt
  | failureClassified
  | planCreated
  | attemptStarted
  | toolCalled
  | toolCompleted
  | proposalCreated
  | sandboxStarted
  | sandboxCompleted
  | evaluationCompleted
  | retryDecided
  | retryStarted
  | retryStopped
  | policyReviewStarted
  | policyApproved
  | policyRejected
  | policyEscalated
  | escalationPackageCreated
  | awaitingHuman
  | humanDecisionRecorded
  | humanApproved
  | humanRejected
  | targetPatchApplied
  | targetBranchPushed
  | targetPrOpened
  | repairVerificationCompleted
  | runSucceeded
  | runFailed
  | persistenceError
  | workerLeaseExpired
  deriving DecidableEq, Repr

def AuditEventType.name : AuditEventType → String
  | .runCreated => "RUN_CREATED"
  | .runResumed => "RUN_RESUMED"
  | .contextBuilt => "CONTEXT_BUILT"
  | .failureClassified => "FAILURE_CLASSIFIED"
  | .planCreated => "PLAN_CREATED"
  | .attemptStarted => "ATTEMPT_STARTED"
  | .toolCalled => "TOOL_CALLED"
  | .toolCompleted => "TOOL_COMPLETED"
  | .proposalCreated => "PROPOSAL_CREATED"
  | .sandboxStarted => "SANDBOX_STARTED"
  | .sandboxCompleted => "SANDBOX_COMPLETED"
  | .evaluationCompleted => "EVALUATION_COMPLETED"
  | .retryDecided => "RETRY_DECIDED"
  | .retryStarted => "RETRY_STARTED"
  | .retryStopped => "RETRY_STOPPED"
  | .policyReviewStarted => "POLICY_REVIEW_STARTED"
  | .policyApproved => "POLICY_APPROVED"
  | .policyRejected => "POLICY_REJECTED"
  | .policyEscalated => "POLICY_ESCALATED"
  | .escalationPackageCreated => "ESCALATION_PACKAGE_CREATED"
  | .awaitingHuman => "AWAITING_HUMAN"
  | .humanDecisionRecorded => "HUMAN_DECISION_RECORDED"
  | .humanApproved => "HUMAN_APPROVED"
  | .humanRejected => "HUMAN_REJECTED"
  | .targetPatchApplied => "TARGET_PATCH_APPLIED"
  | .targetBranchPushed => "TARGET_BRANCH_PUSHED"
  | .targetPrOpened => "TARGET_PR_OPENED"
  | .repairVerificationCompleted => "REPAIR_VERIFICATION_COMPLETED"
  | .runSucceeded => "RUN_SUCCEEDED"
  | .runFailed => "RUN_FAILED"
  | .persistenceError => "PERSISTENCE_ERROR"
  | .workerLeaseExpired => "WORKER_LEASE_EXPIRED"

/-- The text that an audit record carries. -/
def AuditEventType.value (t : AuditEventType) : Str := t.name.toList

/-- An evidence file of a run; `ref` is relative to the run's directory. -/
structure DurableEvidenceRef where
  kind : String
  ref : Str
  contentType : String := "application/json"
  deriving DecidableEq, Repr

structure AuditEvent where
  eventId : Str
  runId : Str
  sequence : Nat
  eventType : Str
  actor : Str := "orchestrator".toList
  component : Str := "foundation".toList
  stateBefore : Option Str
  stateAfter : Option Str
  evidenceRefs : List DurableEvidenceRef := []
  deriving DecidableEq, Repr

/-- The evidence references that a run state holds. -/
inductive RefField where
  | failureEvent
  | classification
  | currentPlan
  | currentProposal
  | latestEvaluation
  | latestPolicyDecision
  | latestRetryDecision
  | escalation
  | reviewerDecision
  deriving DecidableEq, Repr

/-- The persisted snapshot of a run; `refs` holds the references that were set, newest first (the evidence index
repeats them). -/
structure DurableRunState where
  runId : Str
  workflowStatus : Str
  technicalStatus : Option Str := none
  policyOutcome : Option Str := none
  currentAttempt : Nat := 0
  refs : List (RefField × Str) := []
  lastEventSequence : Nat := 0
  stopReason : Option Str := none
  deriving DecidableEq, Repr

def DurableRunState.ref (d : DurableRunState) (field : RefField) : Option Str := d.refs.lookup field

/-- What the evidence store is given to write; the file holds its sanitised rendering. -/
inductive Document where
  | json (value : Json)
  | text (content : Str) (maxChars : Nat)

/-- The directory of one run: `state.json`, the records of `events.jsonl`, and the evidence files, newest
first. -/
structure RunStore where
  state : Option DurableRunState := none
  events : List AuditEvent := []
  files : List (Str × Document) := []

def RunStore.workflowStatus (s : RunStore) : Option Str := s.state.map (·.workflowStatus)

def RunStore.latestSequence (s : RunStore) : Nat := s.events.getLast?.elim 0 (·.sequence)

/-- One call of a store. -/
inductive StoreOp where
  | createRun (run : DurableRunState)
  | saveRun (run : DurableRunState)
  | append (event : AuditEvent)
  | write (ref : Str) (document : Document)

/-- The effect of a call that succeeds: state and evidence files are replaced, audit records appended. -/
def RunStore.apply (s : RunStore) : StoreOp → RunStore
  | .createRun run => { s with state := some run }
  | .saveRun run => { s with state := some run }
  | .append event => { s with events := s.events ++ [event] }
  | .write ref document => { s with files := (ref, document) :: s.files }

/-- The calls that the file stores refuse themselves. -/
def RunStore.refusal (s : RunStore) : StoreOp → Option Str
  | .createRun run => if s.state.isSome then some ("run already exists: ".toList ++ run.runId) else none
  | .append event =>
    if event.eventId ∈ s.events.map (·.eventId) then some ("duplicate event_id: ".toList ++ event.eventId)
    else if event.sequence ≠ s.latestSequence + 1 then
      some ("non-monotonic sequence: expected ".toList ++ natStr (s.latestSequence + 1) ++ ", got ".toList ++
        natStr event.sequence)
    else none
  | .saveRun _ | .write _ _ => none

/-- A call that was made; one that raised left the state, the records and the files as they were (what a failing append may
leave of its own record is the `LogEnd` of the journal). -/
structure StoreStep where
  op : StoreOp
  done : Bool

def RunStore.step (s : RunStore) (call : StoreStep) : RunStore := if call.done then s.apply call.op else s

/-- The store after a sequence of calls. -/
def RunStore.replay (s : RunStore) (calls : List StoreStep) : RunStore := calls.foldl RunStore.step s

theorem RunStore.latestSequence_append {s : RunStore} {e : AuditEvent} :
    (s.apply (.append e)).latestSequence = e.sequence := by
  unfold RunStore.latestSequence
  rw [show (s.apply (.append e)).events = s.events ++ [e] from rfl, List.getLast?_concat]
  rfl

/-- The store takes an event with a new id and the next sequence. -/
theorem RunStore.refusal_append_none_iff {s : RunStore} {e : AuditEvent} :
    s.refusal (.append e) = none ↔ e.eventId ∉ s.events.map (·.eventId) ∧ e.sequence = s.latestSequence + 1 := by
  unfold RunStore.refusal
  dsimp only
  split
  next hknown => exact ⟨nofun, fun h => absurd hknown h.1⟩
  next hnew =>
    split
    next hsequence => exact ⟨nofun, fun h => absurd h.2 hsequence⟩
    next hsequence => exact ⟨fun _ => ⟨hnew, not_not.mp hsequence⟩, fun _ => rfl⟩

theorem RunStore.replay_append (s : RunStore) (calls : List StoreStep) (call : StoreStep) :
    s.replay (calls ++ [call]) = (s.replay calls).step call := by
  simp [RunStore.replay]

section

variable {s : RunStore} {done : Bool}

@[simp] theorem RunStore.step_failed {op : StoreOp} : s.step ⟨op, false⟩ = s := rfl

@[simp] theorem RunStore.step_createRun {run : DurableRunState} :
    s.step ⟨.createRun run, true⟩ = { s with state := some run } := rfl

@[simp] theorem RunStore.step_saveRun {run : DurableRunState} :
    s.step ⟨.saveRun run, true⟩ = { s with state := some run } := rfl

@[simp] theorem RunStore.step_append_state {event : AuditEvent} : (s.step ⟨.append event, done⟩).state = s.state := by
  cases done <;> rfl

@[simp] theorem RunStore.step_append_events {event : AuditEvent} :
    (s.step ⟨.append event, true⟩).events = s.events ++ [event] := rfl

@[simp] theorem RunStore.step_write_state {ref : Str} {document : Document} :
    (s.step ⟨.write ref document, done⟩).state = s.state := by
  cases done <;> rfl

@[simp] theorem RunStore.step_write_events {ref : Str} {document : Document} :
    (s.step ⟨.write ref document, done⟩).events = s.events := by
  cases done <;> rfl

end

end FailureOrchestrator
