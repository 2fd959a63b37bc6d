import FailureOrchestrator.Fingerprint

namespace FailureOrchestrator

inductive RetryReason where
  | recoverableFailure
  | partialProgress
  | alternativePlanAvailable
  | transientToolFailure
  | transientSandboxFailure
  | success
  | maxAttemptsExhausted
  | identicalProposalRepeated
  | identicalFailureRepeated
  | noProgress
  | unrecoverableFailure
  | invalidProposal
  | securityBoundaryHit
  | insufficientEvidence
  deriving DecidableEq, Repr

def RetryReason.value : RetryReason → String
  | .recoverableFailure => "RECOVERABLE_FAILURE"
  | .partialProgress => "PARTIAL_PROGRESS"
  | .alternativePlanAvailable => "ALTERNATIVE_PLAN_AVAILABLE"
  | .transientToolFailure => "TRANSIENT_TOOL_FAILURE"
  | .transientSandboxFailure => "TRANSIENT_SANDBOX_FAILURE"
  | .success => "SUCCESS"
  | .maxAttemptsExhausted => "MAX_ATTEMPTS_EXHAUSTED"
  | .identicalProposalRepeated => "IDENTICAL_PROPOSAL_REPEATED"
  | .identicalFailureRepeated => "IDENTICAL_FAILURE_REPEATED"
  | .noProgress => "NO_PROGRESS"
  | .unrecoverableFailure => "UNRECOVERABLE_FAILURE"
  | .invalidProposal => "INVALID_PROPOSAL"
  | .securityBoundaryHit => "SECURITY_BOUNDARY_HIT"
  | .insufficientEvidence => "INSUFFICIENT_EVIDENCE"

inductive FailureDisposition where
  | recoverable
  | transient
  | unrecoverable
  | unknown
  deriving DecidableEq, Repr

def FailureDisposition.value : FailureDisposition → String
  | .recoverable => "RECOVERABLE"
  | .transient => "TRANSIENT"
  | .unrecoverable => "UNRECOVERABLE"
  | .unknown => "UNKNOWN"

/-- A finite retry configuration; the constraints are those that `__post_init__` enforces. -/
structure RetryBudget where
  maxAttempts : Nat := 3
  maxIdenticalFailures : Nat := 2
  maxIdenticalProposals : Nat := 1
  maxNoProgressAttempts : Nat := 2
  maxRetryHistoryEntries : Nat := 3
  maxAttempts_pos : 1 ≤ maxAttempts := by decide
  maxIdenticalFailures_pos : 1 ≤ maxIdenticalFailures := by decide
  maxIdenticalProposals_pos : 1 ≤ maxIdenticalProposals := by decide
  maxNoProgressAttempts_pos : 1 ≤ maxNoProgressAttempts := by decide
  maxRetryHistoryEntries_pos : 1 ≤ maxRetryHistoryEntries := by decide

structure ProgressAssessment where
  improved : Bool
  signals : List Str := []
  deriving DecidableEq, Repr

/-- The summary of one repair attempt that retry decisions read. -/
structure AttemptRecord where
  attemptNumber : Nat
  planGoal : Str
  proposalId : Str
  proposalFingerprint : Str
  failureFingerprint : Str
  evaluationPassed : Bool
  patchApplied : Bool
  targetPassed : Bool
  failedCheckCount : Nat
  sandboxError : Option Str
  disposition : FailureDisposition
  progress : Option ProgressAssessment := none
  summary : Str := []
  deriving DecidableEq, Repr

/-- `bool(a.progress and a.progress.improved)`. -/
def AttemptRecord.improved (a : AttemptRecord) : Bool := a.progress.elim false (·.improved)

structure RetryDecision where
  shouldRetry : Bool
  reason : RetryReason
  nextAttempt : Nat
  budgetRemaining : Int
  progressDetected : Bool
  evidence : List Str := []
  deriving DecidableEq, Repr

/-- `bool(error)` of an optional text. -/
def errorSet (error : Option Str) : Bool := error.elim false fun e => !e.isEmpty

def assessProgress (previous : Option AttemptRecord) (current : AttemptRecord) : ProgressAssessment :=
  match previous with
  | none => { improved := false, signals := ["first_attempt".toList] }
  | some previous =>
    let fewer : Bool := current.failedCheckCount < previous.failedCheckCount
    let signals :=
      (if !previous.targetPassed && current.targetPassed then ["target_test_now_passes".toList] else []) ++
      (if fewer then ["remaining_failure_count_decreased".toList] else []) ++
      (if !previous.patchApplied && current.patchApplied then ["patch_now_applies".toList] else []) ++
      (if errorSet previous.sandboxError && !errorSet current.sandboxError then
        ["sandbox_reached_further".toList] else []) ++
      -- A different fingerprint alone is not progress: the counts must hold and one of them improve.
      (if previous.failureFingerprint ≠ current.failureFingerprint ∧
          current.failedCheckCount ≤ previous.failedCheckCount ∧ current.patchApplied ∧
          (fewer ∨ current.targetPassed) then
        ["failure_signature_improved".toList] else [])
    { improved := !signals.isEmpty, signals }

def recoverableProposalErrors : List String :=
  ["patch_check_failed", "patch_apply_failed", "no_patch_extracted", "provider_failed"]

section

variable [UnicodeData]

def classifyDisposition (evaluation : EvaluationResult) (sandbox : SandboxResult) : FailureDisposition :=
  let err := UnicodeData.lower (sandbox.error.getD [])
  if evaluation.forbiddenChangesDetected || hasSub err "forbidden_path".toList then .unrecoverable
  else if inSet err ["empty_patch", "binary_patch_rejected"] || hasSub err "invalid".toList then .unrecoverable
  else if inSet err recoverableProposalErrors then .recoverable
  else if sandbox.timeout || hasSub err "timeout".toList || hasSub err "setup".toList then .transient
  else if evaluation.passed then .recoverable
  else if !evaluation.patchApplied && errorSet sandbox.error && hasSub err "sandbox_setup_error".toList then .transient
  else if evaluation.patchApplied && !evaluation.passed then .recoverable
  else .unknown

def buildAttemptRecord (sha256 : Str → Str) (attemptNumber : Nat) (planGoal : Str) (proposal : RepairProposal)
    (evaluation : EvaluationResult) (sandbox : SandboxResult) (event : FailureEvent)
    (classification : FailureClassification) (previous : Option AttemptRecord) : AttemptRecord :=
  let failedChecks := evaluation.checks.countP fun c => c.status = .failed
  let disposition := classifyDisposition evaluation sandbox
  let record : AttemptRecord := {
    attemptNumber, planGoal
    proposalId := proposal.proposalId
    proposalFingerprint := proposalFingerprint sha256 proposal
    failureFingerprint := failureFingerprint sha256 event classification evaluation sandbox
    evaluationPassed := evaluation.passed
    patchApplied := evaluation.patchApplied
    targetPassed := evaluation.targetVerificationPassed
    failedCheckCount := failedChecks
    sandboxError := sandbox.error
    disposition
    summary := "attempt=".toList ++ natStr attemptNumber ++ " passed=".toList ++ boolStr evaluation.passed ++
      " failed_checks=".toList ++ natStr failedChecks ++ " disposition=".toList ++ disposition.value.toList }
  { record with progress := some (assessProgress previous record) }

end

namespace RetryDecisionEngine

/-- The number of attempts with the fingerprint of the latest one. -/
def fingerprintCount (attempts : List AttemptRecord) (fingerprint : Str) : Nat :=
  (attempts.map (·.proposalFingerprint)).count fingerprint

/-- The consecutive trailing attempts without improvement. -/
def noProgressStreak (attempts : List AttemptRecord) : Nat :=
  (attempts.reverse.takeWhile fun a => !a.improved).length

def unrecoverableReason (latest : AttemptRecord) (evaluation : EvaluationResult) : RetryReason :=
  if latest.sandboxError = some "empty_patch".toList ∨ latest.sandboxError = some "binary_patch_rejected".toList then
    .invalidProposal
  else if evaluation.forbiddenChangesDetected ∨ latest.sandboxError.elim false (hasSub · "forbidden".toList) then
    .securityBoundaryHit
  else .unrecoverableFailure

/-- `f"{key}={value}"`. -/
def keyValue (key : String) (value : Str) : Str := key.toList ++ ['='] ++ value

/-- Rules 1 to 6: success, the attempt budget, recoverability, repetition and progress, in this order. -/
def stopDecision (budget : RetryBudget) (attempts : List AttemptRecord) (latestEvaluation : EvaluationResult)
    (latest : AttemptRecord) : Option RetryDecision :=
  let used := attempts.length
  let remaining : Int := max 0 ((budget.maxAttempts : Int) - used)
  let progress := latest.improved
  let proposalCount := fingerprintCount attempts latest.proposalFingerprint
  let failureCount := (attempts.map (·.failureFingerprint)).count latest.failureFingerprint
  let streak := noProgressStreak attempts
  if latestEvaluation.passed || latest.evaluationPassed then
    some ⟨false, .success, used, remaining, progress, ["evaluation_passed".toList]⟩
  else if budget.maxAttempts ≤ used then
    some ⟨false, .maxAttemptsExhausted, used, 0, progress,
      [keyValue "attempts" (natStr used), keyValue "max" (natStr budget.maxAttempts)]⟩
  else if latest.disposition = .unrecoverable then
    some ⟨false, unrecoverableReason latest latestEvaluation, used, remaining, progress,
      [keyValue "disposition" latest.disposition.value.toList, latest.sandboxError.getD []]⟩
  else if budget.maxIdenticalProposals < proposalCount then
    some ⟨false, .identicalProposalRepeated, used, remaining, progress,
      [keyValue "fingerprint" (latest.proposalFingerprint.take 12), keyValue "count" (natStr proposalCount)]⟩
  else if budget.maxIdenticalFailures ≤ failureCount ∧ progress = false then
    some ⟨false, .identicalFailureRepeated, used, remaining, false,
      [keyValue "failure_fp" (latest.failureFingerprint.take 12), keyValue "count" (natStr failureCount)]⟩
  else if budget.maxNoProgressAttempts ≤ streak then
    some ⟨false, .noProgress, used, remaining, false, [keyValue "no_progress_streak" (natStr streak)]⟩
  else none

/-- Rules 7 and 8: progress and known dispositions are retried, anything else stops. -/
def retryDecision (budget : RetryBudget) (attempts : List AttemptRecord) (latest : AttemptRecord) : RetryDecision :=
  let used := attempts.length
  let remaining : Int := max 0 ((budget.maxAttempts : Int) - used)
  let disposition := keyValue "disposition" latest.disposition.value.toList
  if latest.improved then
    ⟨true, .partialProgress, used + 1, remaining - 1, true, latest.progress.elim [] (·.signals)⟩
  else
    match latest.disposition with
    | .transient =>
      ⟨true, if errorSet latest.sandboxError then .transientSandboxFailure else .transientToolFailure,
        used + 1, remaining - 1, false, [disposition]⟩
    | .recoverable =>
      -- An attempt is on record, so the alternative plan is always the reason.
      ⟨true, if 1 ≤ used then .alternativePlanAvailable else .recoverableFailure,
        used + 1, remaining - 1, false, [disposition]⟩
    | .unrecoverable | .unknown =>
      ⟨false, .insufficientEvidence, used, remaining, latest.improved,
        ["disposition=UNKNOWN".toList, "conservative_stop".toList]⟩

def decide (budget : RetryBudget) (attempts : List AttemptRecord) (latestEvaluation : EvaluationResult) :
    RetryDecision :=
  match attempts.getLast? with
  | none => ⟨false, .insufficientEvidence, 1, budget.maxAttempts, false, ["no_attempts_recorded".toList]⟩
  | some latest =>
    (stopDecision budget attempts latestEvaluation latest).getD (retryDecision budget attempts latest)

/-- What a decision to retry says about the attempts so far. -/
structure Retried (budget : RetryBudget) (attempts : List AttemptRecord) (decision : RetryDecision)
    (latest : AttemptRecord) : Prop where
  last : attempts.getLast? = some latest
  failed : latest.evaluationPassed = false
  budget_left : attempts.length < budget.maxAttempts
  recoverable : latest.disposition ≠ .unrecoverable
  proposals : fingerprintCount attempts latest.proposalFingerprint ≤ budget.maxIdenticalProposals
  streak : noProgressStreak attempts < budget.maxNoProgressAttempts
  known : latest.disposition = .unknown → latest.improved = true
  next : decision.nextAttempt = attempts.length + 1
  remaining : decision.budgetRemaining = (budget.maxAttempts : Int) - attempts.length - 1

theorem stopDecision_shouldRetry {budget : RetryBudget} {attempts : List AttemptRecord}
    {evaluation : EvaluationResult} {latest : AttemptRecord} {decision : RetryDecision}
    (h : stopDecision budget attempts evaluation latest = some decision) : decision.shouldRetry = false := by
  unfold stopDecision at h
  simp only at h
  split_ifs at h <;> (cases h; rfl)

theorem stopDecision_none {budget : RetryBudget} {attempts : List AttemptRecord} {evaluation : EvaluationResult}
    {latest : AttemptRecord} (h : stopDecision budget attempts evaluation latest = none) :
    latest.evaluationPassed = false ∧ attempts.length < budget.maxAttempts ∧ latest.disposition ≠ .unrecoverable ∧
      fingerprintCount attempts latest.proposalFingerprint ≤ budget.maxIdenticalProposals ∧
      noProgressStreak attempts < budget.maxNoProgressAttempts := by
  unfold stopDecision at h
  simp only at h
  split_ifs at h with hpass hmax hdisp hprop hfail hstreak
  rw [Bool.or_eq_true, not_or, Bool.not_eq_true, Bool.not_eq_true] at hpass
  exact ⟨hpass.2, by omega, hdisp, by omega, by omega⟩

theorem retryDecision_shouldRetry {budget : RetryBudget} {attempts : List AttemptRecord} {latest : AttemptRecord}
    (h : (retryDecision budget attempts latest).shouldRetry = true) :
    (latest.disposition = .unknown → latest.improved = true) ∧
      (retryDecision budget attempts latest).nextAttempt = attempts.length + 1 ∧
      (retryDecision budget attempts latest).budgetRemaining =
        max 0 ((budget.maxAttempts : Int) - attempts.length) - 1 := by
  unfold retryDecision at h ⊢
  simp only at h ⊢
  cases himp : latest.improved with
  | true => exact ⟨fun _ => rfl, rfl, rfl⟩
  | false =>
    rw [himp] at h
    cases hdisp : latest.disposition with
    | recoverable => exact ⟨fun hu => absurd hu (by decide), rfl, rfl⟩
    | transient => exact ⟨fun hu => absurd hu (by decide), rfl, rfl⟩
    | unrecoverable =>
      rw [hdisp] at h
      cases h
    | unknown =>
      rw [hdisp] at h
      cases h

theorem decide_retried {budget : RetryBudget} {attempts : List AttemptRecord} {evaluation : EvaluationResult}
    (h : (decide budget attempts evaluation).shouldRetry = true) :
    ∃ latest, Retried budget attempts (decide budget attempts evaluation) latest := by
  unfold decide at h ⊢
  split at h
  next => cases h
  next latest hlast =>
    refine ⟨latest, ?_⟩
    cases hstop : stopDecision budget attempts evaluation latest with
    | some decision =>
      rw [hstop, Option.getD_some, stopDecision_shouldRetry hstop] at h
      cases h
    | none =>
      rw [hstop, Option.getD_none] at h
      obtain ⟨hfailed, hmax, hdisp, hprop, hstreak⟩ := stopDecision_none hstop
      obtain ⟨hknown, hnext, hremaining⟩ := retryDecision_shouldRetry h
      refine ⟨hlast, hfailed, hmax, hdisp, hprop, hstreak, hknown, ?_, ?_⟩
      · rw [Option.getD_none, hnext]
      · rw [Option.getD_none, hremaining]
        omega

end RetryDecisionEngine

/-- The compact history that the context of a retry shows. -/
def retryHistorySummaries (attempts : List AttemptRecord) (limit : Nat) : List Str :=
  (attempts.drop (attempts.length - limit)).map fun a =>
    "Attempt ".toList ++ natStr a.attemptNumber ++ ": approach=".toList ++ a.planGoal.take 80 ++
    "; result=".toList ++ (if a.evaluationPassed then "PASS" else "FAIL").toList ++
    "; target_passed=".toList ++ boolStr a.targetPassed ++
    "; failed_checks=".toList ++ natStr a.failedCheckCount ++
    "; proposal_fp=".toList ++ a.proposalFingerprint.take 12 ++
    "; failure_fp=".toList ++ a.failureFingerprint.take 12 ++
    "; progress=".toList ++ boolStr a.improved

end FailureOrchestrator
