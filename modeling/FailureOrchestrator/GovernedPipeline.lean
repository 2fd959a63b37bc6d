import FailureOrchestrator.ErrorTable
import FailureOrchestrator.Exec
import FailureOrchestrator.Supervisor

namespace FailureOrchestrator

namespace GovernedPipeline

/-! ## States -/

inductive PipelineState where
  | received
  | contextReady
  | classified
  | planned
  | executing
  | evaluating
  | retrying
  | policyReview
  | awaitingHuman
  | approved
  | applying
  | verifying
  | succeeded
  | failed
  | cancelled
  deriving DecidableEq, Repr

def PipelineState.value : PipelineState → String
  | .received => "RECEIVED"
  | .contextReady => "CONTEXT_READY"
  | .classified => "CLASSIFIED"
  | .planned => "PLANNED"
  | .executing => "EXECUTING"
  | .evaluating => "EVALUATING"
  | .retrying => "RETRYING"
  | .policyReview => "POLICY_REVIEW"
  | .awaitingHuman => "AWAITING_HUMAN"
  | .approved => "APPROVED"
  | .applying => "APPLYING"
  | .verifying => "VERIFYING"
  | .succeeded => "SUCCEEDED"
  | .failed => "FAILED"
  | .cancelled => "CANCELLED"

/-- `ALLOWED_TRANSITIONS`. -/
def allowedTransitions : PipelineState → List PipelineState
  | .received => [.contextReady, .cancelled]
  | .contextReady => [.classified, .failed]
  | .classified => [.planned, .awaitingHuman, .failed]
  | .planned => [.executing, .failed]
  | .executing => [.evaluating, .failed]
  | .evaluating => [.policyReview, .retrying, .awaitingHuman, .failed]
  | .retrying => [.planned, .awaitingHuman, .failed]
  | .policyReview => [.approved, .awaitingHuman, .retrying, .failed]
  | .awaitingHuman => [.approved, .failed, .cancelled]
  | .approved => [.applying, .verifying]
  | .applying => [.verifying, .failed]
  | .verifying => [.succeeded, .failed]
  | .succeeded | .failed | .cancelled => []

abbrev Transition : Type := PipelineState × PipelineState × Str

inductive PipelineError where
  | illegalTransition (message : Str)
  | keyError (message : Str)
  /-- The loop would go on after as many passes as the model grants it. -/
  | unfinished
  deriving DecidableEq, Repr

structure PipelineStateMachine where
  state : PipelineState := .received
  history : List Transition := []
  deriving DecidableEq, Repr

namespace PipelineStateMachine

def moved (sm : PipelineStateMachine) (target : PipelineState) (reason : Str) : PipelineStateMachine :=
  ⟨target, sm.history ++ [(sm.state, target, reason)]⟩

def transition (sm : PipelineStateMachine) (target : PipelineState) (reason : Str) :
    Except PipelineError PipelineStateMachine :=
  if target ∈ allowedTransitions sm.state then .ok (sm.moved target reason)
  else .error (.illegalTransition ("illegal transition ".toList ++ sm.state.value.toList ++ " -> ".toList ++
    target.value.toList ++ ": ".toList ++ reason))

@[simp] theorem moved_state (sm : PipelineStateMachine) (target : PipelineState) (reason : Str) :
    (sm.moved target reason).state = target := rfl

theorem transition_ok {sm : PipelineStateMachine} {target : PipelineState} (h : target ∈ allowedTransitions sm.state)
    (reason : Str) : sm.transition target reason = .ok (sm.moved target reason) := if_pos h

end PipelineStateMachine

/-- Allowed transitions lead from one state to another. -/
inductive Path (start : PipelineState) : List Transition → PipelineState → Prop
  | here : Path start [] start
  | step {history : List Transition} {s t : PipelineState} {reason : Str} (h : Path start history s)
      (ht : t ∈ allowedTransitions s) : Path start (history ++ [(s, t, reason)]) t

/-- The history of a machine is a path from the first state of a run to its state. -/
def PipelineStateMachine.Legal (sm : PipelineStateMachine) : Prop := Path .received sm.history sm.state

theorem PipelineStateMachine.Legal.moved {sm : PipelineStateMachine} (h : sm.Legal) {target : PipelineState}
    (ht : target ∈ allowedTransitions sm.state) (reason : Str) : (sm.moved target reason).Legal :=
  Path.step h ht

/-! ## Retry budget -/

inductive PolicyOutcome where
  | approve
  | reject
  | escalate
  | retry
  deriving DecidableEq, Repr

structure RepairProposal where
  proposalId : Str
  proposedPatch : Str
  deriving DecidableEq, Repr

structure EvaluationResult where
  passed : Bool
  deriving DecidableEq, Repr

structure RetryDecision where
  runId : Str
  shouldRetry : Bool
  attemptsUsed : Nat
  maxAttempts : Nat
  reason : String
  deriving DecidableEq, Repr

structure RetryBudget where
  maxAttempts : Nat := 3
  attemptsUsed : Nat := 0
  repeatedFailureLimit : Int := 2
  failureFingerprints : List Str := []
  patchFingerprints : List Str := []
  deriving DecidableEq, Repr

/-- `xs[-limit:]`. -/
def lastItems {α : Type} (xs : List α) (limit : Int) : List α :=
  if 0 < limit then xs.drop (xs.length - limit.toNat) else xs.drop (-limit).toNat

namespace RetryBudget

def remaining (b : RetryBudget) : Nat := b.maxAttempts - b.attemptsUsed

def recordAttempt (b : RetryBudget) (failureFingerprint : Str) (patchFingerprint : Option Str) : RetryBudget :=
  { b with
    attemptsUsed := b.attemptsUsed + 1
    failureFingerprints := b.failureFingerprints ++ [failureFingerprint]
    patchFingerprints := b.patchFingerprints ++ (patchFingerprint.filter (!·.isEmpty)).toList }

/-- The last failures are as many as the limit says and all the same. -/
def repeatsFailure (b : RetryBudget) : Bool :=
  decide (b.repeatedFailureLimit ≤ b.failureFingerprints.length) &&
    decide ((lastItems b.failureFingerprints b.repeatedFailureLimit).dedup.length = 1)

/-- The last two patches are the same. -/
def repeatsPatch (b : RetryBudget) : Bool :=
  match b.patchFingerprints.reverse with
  | last :: previous :: _ => last = previous
  | _ => false

def stopReason (b : RetryBudget) (evaluation : Option EvaluationResult) (proposal : Option RepairProposal)
    (unrecoverable policyBlocksRetry requiresHuman : Bool) : Option String :=
  if unrecoverable then some "unrecoverable"
  else if requiresHuman then some "human_required"
  else if policyBlocksRetry then some "policy_blocks_retry"
  else if b.maxAttempts ≤ b.attemptsUsed then some "budget_exhausted"
  else if evaluation.any (·.passed) then some "evaluation_passed"
  else if b.repeatsFailure then some "repeated_identical_failure"
  else if proposal.isSome && b.repeatsPatch then some "repeated_identical_patch"
  else none

def decide (b : RetryBudget) (runId : Str) (evaluation : Option EvaluationResult) (proposal : Option RepairProposal := none)
    (unrecoverable policyBlocksRetry requiresHuman : Bool := false) : RetryDecision :=
  match b.stopReason evaluation proposal unrecoverable policyBlocksRetry requiresHuman with
  | some reason => ⟨runId, false, b.attemptsUsed, b.maxAttempts, reason⟩
  | none => ⟨runId, true, b.attemptsUsed, b.maxAttempts, "retry_allowed"⟩

end RetryBudget

/-! ## Classification -/

structure FailureEvent where
  runId : Str
  workflow : Str := []
  job : Str := []
  failedStep : Str := []
  message : Str
  changedPaths : List Str := []
  logExcerpt : Str := []
  deriving DecidableEq, Repr

structure FailureClassification where
  failureClass : String
  confidence : ℚ
  evidence : List Str
  uncertainty : String
  recommendedNextAction : String
  deriving DecidableEq

/-- `_LEGACY_TO_GOVERNED`. -/
def legacyToGoverned : List (String × String) :=
  [("TYPE_ERROR", "type_failure"), ("BUILD_ERROR", "build_failure"), ("NETWORK_ERROR", "network_failure"),
    ("DEPENDENCY_ERROR", "dependency_failure"), ("TEST_ASSERTION", "test_failure"), ("FLAKY_TEST", "flaky_failure"),
    ("PACKAGE_ERROR", "dependency_failure"), ("DEPLOYMENT_ERROR", "infrastructure_failure"),
    ("SECURITY_ERROR", "configuration_failure"), ("RUNTIME_ERROR", "infrastructure_failure"), ("UNKNOWN", "unknown"),
    ("lint", "lint_failure"), ("formatting", "lint_failure"), ("typing", "type_failure"),
    ("workflow_syntax", "configuration_failure"), ("unit_test_failure", "test_failure"), ("unknown", "unknown")]

def nextActions : List (String × String) :=
  [("lint_failure", "plan_format_or_lint_fix"), ("type_failure", "plan_type_annotation_fix"),
    ("test_failure", "plan_minimal_test_fix"), ("flaky_failure", "escalate_or_quarantine"),
    ("dependency_failure", "inspect_lockfiles_with_approval"), ("network_failure", "escalate_infrastructure"),
    ("infrastructure_failure", "escalate_infrastructure"), ("build_failure", "plan_build_fix"),
    ("configuration_failure", "escalate_config_review"), ("unknown", "escalate_human")]

section

variable [UnicodeData]

def classify (event : FailureEvent) : FailureClassification :=
  let (messageClass, messageConf) := classifyError (if event.message.isEmpty then event.logExcerpt else event.message)
  let adapterClass := Supervisor.classifyFailedCheck
    { workflow := event.workflow, job := event.job, failedStep := event.failedStep,
      logExcerpt := if event.logExcerpt.isEmpty then event.message else event.logExcerpt,
      changedPaths := event.changedPaths }
  let messageSays := "message_taxonomy=".toList ++ messageClass.value.toList
  let actionsSay := "actions_class=".toList ++ adapterClass
  let byMessage := (legacyToGoverned.lookup messageClass.value).getD "unknown"
  let (governed, confidence, evidence) : String × ℚ × List Str :=
    if messageClass = .flakyTest then ("flaky_failure", max messageConf flakyConfidence, [messageSays, actionsSay])
    else if adapterClass = "unknown".toList then (byMessage, messageConf, [messageSays])
    else ((legacyToGoverned.lookup (String.ofList adapterClass)).getD byMessage, max messageConf stepConfidence,
      [actionsSay, messageSays])
  { failureClass := governed
    confidence
    evidence
    uncertainty := if governed ≠ "unknown" then "heuristic_regex_match_only" else "no_strong_pattern_match"
    recommendedNextAction := (nextActions.lookup governed).getD "escalate_human" }

/-- The classifier hands the failure to a human before anything is tried. -/
def Escalates (event : FailureEvent) : Prop := (classify event).recommendedNextAction = "escalate_human"

instance (event : FailureEvent) : Decidable (Escalates event) := inferInstanceAs (Decidable (_ = _))

end

/-! ## Runs -/

/-- What the planner, the model, the sandbox, the evaluator and the policy answer in one pass of the loop. The policy is
asked where the evaluation passed. -/
structure Answers where
  tools : List Str
  proposal : RepairProposal
  evaluation : EvaluationResult
  outcome : PolicyOutcome

/-- A failure with the answers that its run is given, pass after pass. -/
structure Incident where
  event : FailureEvent
  answers : Nat → Answers

structure PipelineResult where
  runId : Str
  state : PipelineState
  classification : FailureClassification
  policy : Option PolicyOutcome := none
  escalated : Bool := false
  attempts : Nat
  deriving DecidableEq

/-- A run under way. The budget is the pipeline's; the audit trail and the counters are written only. -/
structure RunState where
  budget : RetryBudget
  machine : PipelineStateMachine := {}
  toolNames : List Str := []
  attempts : List (Str × Bool) := []
  decisions : List RetryDecision := []
  /-- The passes of the loop. -/
  passes : Nat := 0

def RunState.moved (s : RunState) (target : PipelineState) (reason : String) : RunState :=
  { s with machine := s.machine.moved target reason.toList }

open Exec

/-- `sm.transition(target, reason)`. -/
def move (target : PipelineState) (reason : String) : Exec RunState PipelineError Unit := do
  let s ← Exec.read
  let machine ← Exec.lift (s.machine.transition target reason.toList)
  Exec.update fun s => { s with machine }

/-- The tools of a plan are called in turn; only those of the registry can be. -/
def invokeAll (registry : List Str) : List Str → Exec RunState PipelineError Unit
  | [] => pure ()
  | name :: rest => do
    Exec.lift (if name ∈ registry then .ok () else .error (.keyError ("unknown tool: ".toList ++ name)))
    Exec.update fun s => { s with toolNames := s.toolNames ++ [name] }
    invokeAll registry rest

section

variable (sha256 : Str → Str) (registry : List Str) (event : FailureEvent) (classification : FailureClassification)

def failureFingerprint : Str := sha256 (classification.failureClass.toList ++ ':' :: event.message)

/-- The budget after one more attempt. -/
def RetryBudget.after (b : RetryBudget) (a : Answers) : RetryBudget :=
  b.recordAttempt (failureFingerprint sha256 event classification) (some (sha256 a.proposal.proposedPatch))

def finish (policy : Option PolicyOutcome) (escalated : Bool) : Exec RunState PipelineError PipelineResult := do
  let s ← Exec.read
  pure
    { runId := event.runId
      state := s.machine.state
      classification := classification
      policy := policy
      escalated := escalated
      attempts := s.budget.attemptsUsed }

/-- From the plan to the attempt on record. -/
def tryRepair (a : Answers) : Exec RunState PipelineError Unit := do
  Exec.update fun s => { s with passes := s.passes + 1 }
  move .planned "plan_created"
  move .executing "tools"
  invokeAll registry a.tools
  move .evaluating "evaluate"
  Exec.update fun s =>
    { s with
      budget := s.budget.after sha256 event classification a
      attempts := s.attempts ++ [(a.proposal.proposalId, a.evaluation.passed)] }

/-- The end of a pass where the retry budget decides. -/
def reconsider (policy : Option PolicyOutcome) (a : Answers) :
    Exec RunState PipelineError (Option PipelineResult) := do
  let s ← Exec.read
  let decision := s.budget.decide event.runId (some a.evaluation) (some a.proposal)
  Exec.update fun s => { s with decisions := s.decisions ++ [decision] }
  if decision.shouldRetry then do
    Exec.when (s.machine.state = .policyReview ∨ s.machine.state = .evaluating) (move .retrying decision.reason)
    pure none
  else do
    move .awaitingHuman decision.reason
    some <$> finish event classification policy true

/-- The rest of a pass, behind the attempt on record. -/
def settle (a : Answers) : Exec RunState PipelineError (Option PipelineResult) :=
  if a.evaluation.passed then do
    move .policyReview "eval_pass"
    match a.outcome with
    | .approve => do
      move .approved "policy_approve"
      move .verifying "verify"
      move .succeeded "success"
      some <$> finish event classification (some .approve) false
    | .escalate => do
      move .awaitingHuman "policy_escalate"
      some <$> finish event classification (some .escalate) true
    | .reject => do
      move .failed "policy_reject"
      some <$> finish event classification (some .reject) false
    | .retry => reconsider event classification (some .retry) a
  else reconsider event classification none a

/-- `while True`, for at most so many passes. -/
def loop : Nat → (Nat → Answers) → Exec RunState PipelineError PipelineResult
  | 0, _ => Exec.raise .unfinished
  | n + 1, answers => do
    tryRepair sha256 registry event classification (answers 0)
    let r ← settle event classification (answers 0)
    match r with
    | some result => pure result
    | none => loop n fun i => answers (i + 1)

end

section

variable [UnicodeData] (sha256 : Str → Str) (registry : List Str)

def handleEvent (i : Incident) (maxPasses : Nat) : Exec RunState PipelineError PipelineResult := do
  move .contextReady "context_built"
  let classification := classify i.event
  move .classified classification.failureClass
  if classification.recommendedNextAction = "escalate_human" then do
    move .awaitingHuman "classifier_escalate"
    finish i.event classification none true
  else loop sha256 registry i.event classification maxPasses i.answers

/-- A run on the budget that earlier runs left, with as many passes as `max_attempts` says. -/
def run (i : Incident) (b : RetryBudget) : Except PipelineError PipelineResult × RunState :=
  handleEvent sha256 registry i b.maxAttempts { budget := b }

/-- What a run leaves to the next one on the same pipeline. -/
def serve (i : Incident) : Exec RetryBudget PipelineError Unit := fun b =>
  ((run sha256 registry i b).1.map fun _ => (), (run sha256 registry i b).2.budget)

end

end GovernedPipeline

end FailureOrchestrator
