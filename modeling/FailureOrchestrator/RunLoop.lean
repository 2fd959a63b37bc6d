import FailureOrchestrator.Runner

namespace FailureOrchestrator

open Exec RunPersistence

namespace Foundation

variable [UnicodeData] (f : Foundation) (env : Env)

def approveBranch (decision : PolicyDecision) (policyRefs : List DurableEvidenceRef) : Run FoundationResult := do
  moveTo .approved (decision.leadRule "approve")
  modifyState fun s => { s with workflowStatus := some RunStatus.approved.value }
  f.audit env .policyApproved (some .policyReview) (some .approved) policyRefs
  f.audit env .runSucceeded none (some .approved)
  f.journaled (checkpoint env { workflowStatus := some RunStatus.approved.value, technicalStatus := some "PASS" })
  result .success "PASS" (some decision)

def rejectBranch (decision : PolicyDecision) (policyRefs : List DurableEvidenceRef) : Run FoundationResult := do
  moveTo .rejected (decision.leadRule "reject")
  modifyState fun s => { s with workflowStatus := some RunStatus.rejected.value }
  f.audit env .policyRejected (some .policyReview) (some .rejected) policyRefs
  f.journaled (checkpoint env { workflowStatus := some RunStatus.rejected.value, technicalStatus := some "PASS" })
  result .success "PASS" (some decision)

/-- Builds and stores the review package; this is the body of the `try` block. -/
def escalate (decision : PolicyDecision) (context : PolicyContext) (classification : FailureClassification)
    (proposal : RepairProposal) (evaluation : EvaluationResult) : Run FoundationResult := do
  moveTo .escalationBuilding "build_package".toList
  f.journaled (checkpoint env { workflowStatus := some RunStatus.escalationBuilding.value })
  let w ← read
  let escalation ← lift (f.buildEscalation decision proposal evaluation w.attempts classification w.state.event context)
  let artifacts ← lift (f.writeEscalation escalation proposal evaluation)
  moveTo .awaitingHuman escalation.escalationId
  modifyState fun s => { s with
    workflowStatus := some RunStatus.awaitingHuman.value
    escalation := some escalation
    artifactRefs := artifacts.refs }
  f.journaled (do
    let ref ← writeJson env "escalation" escalation.document "summary.json".toList
    checkpoint env {
      workflowStatus := some RunStatus.awaitingHuman.value
      refs := [(.escalation, ref.ref)]
      technicalStatus := some "PASS"
      policyOutcome := some PolicyOutcome.escalate.value }
    emit env .escalationPackageCreated none none [ref]
    emit env .awaitingHuman (some RunStatus.escalationBuilding.value) (some RunStatus.awaitingHuman.value))
  result .success "PASS" (some decision) (some escalation) (some artifacts)

/-- Fails closed: any exception of the package ends in `ESCALATION_ERROR`. -/
def escalationFailed (decision : PolicyDecision) (e : RunError) : Run FoundationResult := do
  let w ← read
  when (.escalationError ∈ allowedTransitions w.machine.status)
    (moveTo .escalationError ("escalation_failed:".toList ++ e.message))
  modifyState fun s => { s with
    status := .escalationError
    workflowStatus := some RunStatus.escalationError.value
    policyTrace := s.policyTrace ++ ["escalation_package_failed: ".toList ++ e.typeName.toList] }
  f.journaled (checkpoint env { workflowStatus := some RunStatus.escalationError.value })
  result .success "PASS" (some decision)

def escalateBranch (decision : PolicyDecision) (policyRefs : List DurableEvidenceRef) (context : PolicyContext)
    (classification : FailureClassification) (proposal : RepairProposal) (evaluation : EvaluationResult) :
    Run FoundationResult := do
  moveTo .escalated (decision.leadRule "escalate")
  f.audit env .policyEscalated (some .policyReview) (some .escalated) policyRefs
  handle (f.escalate env decision context classification proposal evaluation) (f.escalationFailed env decision)

/-- The policy decision as evidence, with its reference for the event of the outcome. -/
def storePolicy (decision : PolicyDecision) : Run (List DurableEvidenceRef) :=
  if f.persistence then onJournal (do
    let ref ← writeJson env "policy" (policyDocument decision) "policy-decision.json".toList
    checkpoint env {
      workflowStatus := some RunStatus.policyReview.value
      technicalStatus := some "PASS"
      policyOutcome := some decision.outcome.value
      refs := [(.latestPolicyDecision, ref.ref)] }
    return [ref])
  else pure []

def runPolicyGate (classification : FailureClassification) (proposal : RepairProposal)
    (evaluation : EvaluationResult) : Run FoundationResult := do
  let w ← read
  moveTo .policyReview "evaluation_pass".toList
  modifyState fun s => { s with technicalStatus := some "PASS", stopReason := some RetryReason.success.value.toList }
  f.audit env .policyReviewStarted (some w.machine.status) (some .policyReview)
  let context := buildPolicyContext proposal evaluation (some classification) w.toolsUsed w.toolRisks
    w.attempts.length f.policyConfig
  let decision ← lift (f.evaluatePolicy context)
  modifyState fun s => { s with
    policyDecision := some decision
    policyTrace := s.policyTrace ++ [decision.explain.toList] }
  let refs ← f.storePolicy env decision
  match decision.outcome with
  | .approve => f.approveBranch env decision refs
  | .reject => f.rejectBranch env decision refs
  | .escalate => f.escalateBranch env decision refs context classification proposal evaluation

/-- Ends the run on a decision not to retry. -/
def stopRun (decision : RetryDecision) : Run FoundationResult := do
  moveTo .failed decision.reason.value.toList
  modifyState fun s => { s with stopReason := some decision.reason.value.toList, technicalStatus := some "FAIL" }
  f.audit env .retryStopped (some .retryDecision) (some .failed)
  f.audit env .runFailed none (some .failed)
  f.journaled (checkpoint env {
    workflowStatus := some RunStatus.failed.value
    technicalStatus := some "FAIL"
    stopReason := some decision.reason.value.toList })
  result decision.reason "FAIL"

def startRetry (decision : RetryDecision) : Run Unit := do
  moveTo .retrying decision.reason.value.toList
  f.audit env .retryStarted (some .retryDecision) (some .retrying)
  f.journaled (checkpoint env { workflowStatus := some RunStatus.retrying.value })

def decideStage (n : Nat) (evaluation : EvaluationResult) : Run RetryDecision := do
  moveTo .retryDecision "evaluation_fail".toList
  let w ← read
  let decision := RetryDecisionEngine.decide f.retryBudget w.attempts evaluation
  update fun w => { w with
    decisions := w.decisions ++ [decision]
    state := { w.state with
      lastRetryDecision := some decision
      retryTrace := w.state.retryTrace ++ [decisionTrace decision] } }
  f.journaled (record env "retry" (retryDocument decision) (numbered "retry-decision" n ".json")
    .latestRetryDecision .retryDecided (some .evaluated) .retryDecision)
  return decision

/-- One pass of the attempt loop: a result, or `none` when the loop goes on. -/
def attempt (event : FailureEvent) (n : Nat) : Run (Option FoundationResult) := do
  update fun w => { w with started := n, toolsUsed := [], toolRisks := [] }
  let context ← f.buildContextStage env n event
  let classification ← f.classifyStage env n event
  f.startAttempt env n
  let plan ← f.planStage env n context classification
  moveTo .executing "tools".toList
  f.toolSteps env n event context 0 plan.steps
  let proposal ← f.proposeStage env n event context plan classification
  let sandbox ← f.sandboxStage env n plan proposal
  let evaluation ← f.evaluateStage env n proposal sandbox
  f.recordStage env n event classification plan proposal sandbox evaluation
  if evaluation.passed then some <$> f.runPolicyGate env classification proposal evaluation
  else do
    let decision ← f.decideStage env n evaluation
    if decision.shouldRetry then do
      f.startRetry env decision
      return none
    else some <$> f.stopRun env decision

/-- `for attempt_number in range(n, n + count)`. -/
def attempts (event : FailureEvent) : Nat → Nat → Run (Option FoundationResult)
  | _, 0 => pure none
  | n, count + 1 => do
    let outcome ← f.attempt env event n
    match outcome with
    | some r => return some r
    | none => attempts event (n + 1) count

/-- The code after the attempt loop. -/
def exhausted : Run FoundationResult := do
  let w ← read
  when (.failed ∈ allowedTransitions w.machine.status)
    (moveTo .failed RetryReason.maxAttemptsExhausted.value.toList)
  modifyState fun s => { s with
    status := .failed
    stopReason := some RetryReason.maxAttemptsExhausted.value.toList
    technicalStatus := some "FAIL" }
  f.audit env .runFailed none (some .failed)
  f.journaled (checkpoint env {
    workflowStatus := some RunStatus.failed.value
    technicalStatus := some "FAIL"
    stopReason := some RetryReason.maxAttemptsExhausted.value.toList })
  result .maxAttemptsExhausted "FAIL"

def openRun (event : FailureEvent) : Run Unit :=
  f.journaled (do
    startRun env event.runId RunStatus.received.value
    let ref ← writeJson env "input" (eventDocument event) "failure-event.json".toList
    checkpoint env { refs := [(.failureEvent, ref.ref)] })

/-- Everything before the code after the loop; `none` when the loop ran out. -/
def attemptLoop (event : FailureEvent) : Run (Option FoundationResult) := do
  f.openRun env event
  f.attempts env event 1 f.retryBudget.maxAttempts

/-- The body of the `try` block. -/
def runBody (event : FailureEvent) : Run FoundationResult := do
  let outcome ← f.attemptLoop env event
  match outcome with
  | some r => return r
  | none => f.exhausted env

/-- `except PersistenceError`: nothing more is written. -/
def persistenceFailed (e : RunError) : Run FoundationResult := do
  modifyState fun s => { s with
    status := .failed
    workflowStatus := some "PERSISTENCE_ERROR".toList
    technicalStatus := some "FAIL"
    stopReason := some ("PERSISTENCE_ERROR:".toList ++ e.message) }
  result .unrecoverableFailure "FAIL"

/-- `state.stop_reason or ...`. -/
def stopReasonOr (reason : Option Str) (fallback : RetryReason) : Str :=
  match reason with
  | none | some [] => fallback.value.toList
  | some reason => reason

/-- `except Exception`: the failure is recorded as far as the stores allow. -/
def runFailed (e : RunError) : Run FoundationResult := do
  let w ← read
  when (.failed ∈ allowedTransitions w.machine.status) (moveTo .failed ("error:".toList ++ e.message))
  let stopReason := stopReasonOr w.state.stopReason .unrecoverableFailure
  modifyState fun s => { s with
    status := .failed
    stopReason := some stopReason
    technicalStatus := some "FAIL"
    attempts := w.attempts }
  handle (do
    f.audit env .runFailed none (some .failed)
    f.journaled (checkpoint env {
      workflowStatus := some RunStatus.failed.value
      technicalStatus := some "FAIL"
      stopReason := some stopReason })) fun _ => pure ()
  result .unrecoverableFailure "FAIL"

def runId (event : FailureEvent) : Str := firstNonEmpty event.runId (env.newId "run" 0)

/-- The event as the run works on it. -/
def receivedEvent (event : FailureEvent) : FailureEvent := event.received (runId env event) (env.newId "evt" 0)

def initialWorld (event : FailureEvent) : World :=
  { state := { runId := runId env event, event := receivedEvent env event } }

/-- `run`: the result and everything the run left behind. -/
def run (event : FailureEvent) : Except RunError FoundationResult × World :=
  handle (f.runBody env (receivedEvent env event))
    (fun e => if e.isPersistence then persistenceFailed e else f.runFailed env e) (initialWorld env event)

/-- A foundation whose first attempt calls one tool, passes and is approved. -/
def sample : Foundation where
  sha256 := id
  buildContext _ event _ := .ok { runId := event.runId }
  classify _ := .ok { category := "test_failure", confidence := 1 }
  plan _ _ _ _ := .ok { goal := "fix".toList, steps := [{ tool := "log_reader" }] }
  invoke _ _ _ tool _ := .ok ({ toolName := tool, riskLevel := .readOnly }, { toolName := tool, success := true })
  propose _ _ _ _ _ _ := .ok { proposalId := [], filesChanged := ["a.py".toList], patch := [] }
  execute _ proposal _ _ := .ok { proposalId := proposal.proposalId, success := true, patchApplied := true }
  evaluate _ _ _ := .ok
    { passed := true, patchApplied := true, targetVerificationPassed := true, forbiddenChangesDetected := false }
  evaluatePolicy _ := .ok
    { outcome := .approve, reasons := [], matchedRules := [], violations := [], riskLevel := .low, evidence := [],
      explanation := "" }
  buildEscalation _ _ _ _ _ _ _ := .error (.other "ValueError" [])
  writeEscalation _ _ _ := .error (.other "ValueError" [])

end Foundation

def sampleEvent : FailureEvent := { runId := "run-1".toList, failedStep := "test".toList, message := "failed".toList }

/-- Surroundings in which the store calls after the first `n` fail. -/
def diskFullAfter (n : Nat) : Env where
  newId _ k := List.replicate k 'e'
  fails k := if k < n then none else some "No space left on device".toList

end FailureOrchestrator
