import FailureOrchestrator.PyText

namespace FailureOrchestrator

/-- The lifecycle of a run. -/
inductive RunStatus where
  | received
  | contextReady
  | classified
  | planned
  | executing
  | proposalReady
  | sandboxRunning
  | evaluating
  | evaluated
  | retryDecision
  | retrying
  | policyReview
  | approved
  | rejected
  | escalated
  | escalationBuilding
  | awaitingHuman
  | escalationError
  | succeeded
  | failed
  deriving DecidableEq, Repr

def RunStatus.name : RunStatus → String
  | .received => "RECEIVED"
  | .contextReady => "CONTEXT_READY"
  | .classified => "CLASSIFIED"
  | .planned => "PLANNED"
  | .executing => "EXECUTING"
  | .proposalReady => "PROPOSAL_READY"
  | .sandboxRunning => "SANDBOX_RUNNING"
  | .evaluating => "EVALUATING"
  | .evaluated => "EVALUATED"
  | .retryDecision => "RETRY_DECISION"
  | .retrying => "RETRYING"
  | .policyReview => "POLICY_REVIEW"
  | .approved => "APPROVED"
  | .rejected => "REJECTED"
  | .escalated => "ESCALATED"
  | .escalationBuilding => "ESCALATION_BUILDING"
  | .awaitingHuman => "AWAITING_HUMAN"
  | .escalationError => "ESCALATION_ERROR"
  | .succeeded => "SUCCEEDED"
  | .failed => "FAILED"

/-- The text that state and audit records carry. -/
def RunStatus.value (s : RunStatus) : Str := s.name.toList

theorem RunStatus.eq_approved_of_value {s : RunStatus} (h : s.value = RunStatus.approved.value) : s = .approved := by
  cases s <;> first | rfl | exact absurd h (by decide)

def allowedTransitions : RunStatus → List RunStatus
  | .received => [.contextReady, .failed]
  | .contextReady => [.classified, .failed]
  | .classified => [.planned, .failed]
  | .planned => [.executing, .failed]
  | .executing => [.proposalReady, .failed]
  | .proposalReady => [.sandboxRunning, .failed]
  | .sandboxRunning => [.evaluating, .failed]
  | .evaluating => [.evaluated, .failed]
  | .evaluated => [.policyReview, .retryDecision, .failed]
  | .retryDecision => [.retrying, .failed]
  | .retrying => [.planned, .failed]
  | .policyReview => [.approved, .rejected, .escalated, .failed]
  | .escalated => [.escalationBuilding, .escalationError, .failed]
  | .escalationBuilding => [.awaitingHuman, .escalationError, .failed]
  | .awaitingHuman => [.approved, .rejected, .failed]
  | .approved | .rejected | .escalationError | .succeeded | .failed => []

/-- What the run's collaborators and its stores raise, with `str(exc)`. -/
inductive RunError where
  | persistence (message : Str)
  | other (typeName : String) (message : Str)
  deriving DecidableEq, Repr

def RunError.typeName : RunError → String
  | .persistence _ => "PersistenceError"
  | .other typeName _ => typeName

def RunError.message : RunError → Str
  | .persistence message => message
  | .other _ message => message

def RunError.isPersistence : RunError → Bool
  | .persistence _ => true
  | .other _ _ => false

structure FoundationStateMachine where
  status : RunStatus := .received
  history : List (RunStatus × RunStatus × Str) := []
  deriving DecidableEq, Repr

def FoundationStateMachine.transition (sm : FoundationStateMachine) (target : RunStatus) (reason : Str) :
    Except RunError FoundationStateMachine :=
  if target ∈ allowedTransitions sm.status then
    .ok { status := target, history := sm.history ++ [(sm.status, target, reason)] }
  else
    .error (.other "InvalidStateTransition" ("illegal transition ".toList ++ sm.status.value ++ " -> ".toList ++
      target.value ++ ": ".toList ++ reason))

theorem FoundationStateMachine.transition_status {sm sm' : FoundationStateMachine} {target : RunStatus} {reason : Str}
    (h : sm.transition target reason = .ok sm') : sm'.status = target := by
  unfold FoundationStateMachine.transition at h
  split at h
  · cases h
    rfl
  · cases h

theorem FoundationStateMachine.transition_refused {sm : FoundationStateMachine} {target : RunStatus} {reason : Str}
    {e : RunError} (h : sm.transition target reason = .error e) : target ∉ allowedTransitions sm.status := by
  unfold FoundationStateMachine.transition at h
  split at h
  · cases h
  next hnot => exact hnot

end FailureOrchestrator
