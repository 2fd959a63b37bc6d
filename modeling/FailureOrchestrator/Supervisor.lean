import FailureOrchestrator.Glob
import FailureOrchestrator.JsonText

namespace FailureOrchestrator

namespace Supervisor

inductive RiskLevel where
  | low
  | medium
  | high
  | critical
  deriving DecidableEq

inductive RepairAuthority where
  | autonomousPatch
  | patchRequiresReview
  | rcaOnly
  | deny
  deriving DecidableEq

def RepairAuthority.value : RepairAuthority → Str
  | .autonomousPatch => "autonomous_patch".toList
  | .patchRequiresReview => "patch_requires_review".toList
  | .rcaOnly => "rca_only".toList
  | .deny => "deny".toList

/-- The limits of one incident, as their constructor admits them. -/
structure RetryBudget where
  maxAttempts : Nat := 3
  maxChangedFiles : Nat := 8
  maxChangedLines : Nat := 400
  maxCostUsd : ℚ := 2
  maxElapsedSeconds : Nat := 900
  counts_pos : 1 ≤ maxAttempts ∧ 1 ≤ maxChangedFiles ∧ 1 ≤ maxChangedLines := by decide
  limits : 0 ≤ maxCostUsd ∧ 1 ≤ maxElapsedSeconds := by decide +kernel

structure RepairRequest where
  failureClass : Str
  changedPaths : List Str := []
  predictedChangedLines : Int := 0
  attempt : Int := 1
  costSpentUsd : ℚ := 0
  elapsedSeconds : Int := 0
  regressionDetected : Bool := false
  securityFinding : Bool := false
  testWeakeningDetected : Bool := false
  unknownFailure : Bool := false

structure SupervisorDecision where
  risk : RiskLevel
  authority : RepairAuthority
  allowed : Bool
  reasons : List Str
  requiredGates : List Str
  forbiddenActions : List Str

structure SupervisorPolicy where
  budget : RetryBudget := {}
  protectedGlobs : List Str := [".github/workflows/*".toList, "**/migrations/*".toList, "**/auth/*".toList,
    "**/iam/*".toList, "**/security/*".toList, "infra/*".toList, "terraform/*".toList]
  criticalGlobs : List Str := ["**/*secret*".toList, "**/*credential*".toList, "**/*production*".toList,
    "**/*prod*".toList]
  lowRiskFailureClasses : List Str := ["lint".toList, "formatting".toList, "typing".toList,
    "deterministic_test_fixture".toList, "workflow_syntax".toList]
  forbiddenActions : List Str := ["delete_failing_tests".toList, "disable_required_checks".toList,
    "add_continue_on_error_to_hide_failure".toList, "lower_coverage_threshold_without_policy_approval".toList,
    "disable_security_scanner".toList, "expose_or_modify_secrets".toList, "force_merge".toList]

def dropDotSlash : Str → Str
  | '.' :: '/' :: rest => dropDotSlash rest
  | s => s

def normalizeRepoPath (path : Str) : Str := dropDotSlash (replaceChar '\\' '/' path)

def pathMatches (path : Str) (patterns : List Str) : Except PyError Bool :=
  patterns.anyM (pathMatch (normalizeRepoPath path))

def classifyRisk (request : RepairRequest) (policy : SupervisorPolicy) : Except PyError RiskLevel := do
  let critical ←
    if request.securityFinding then pure true
    else request.changedPaths.anyM fun path => pathMatches path policy.criticalGlobs
  if critical then return .critical
  if ← request.changedPaths.anyM fun path => pathMatches path policy.protectedGlobs then return .high
  if request.unknownFailure || request.failureClass ∉ policy.lowRiskFailureClasses then return .medium
  return .low

/-- The evidence and the exhausted limits that deny a repair by themselves. -/
def denialChecks (request : RepairRequest) (budget : RetryBudget) : List (Bool × String) :=
  [(request.regressionDetected, "regression_detected"),
    (request.testWeakeningDetected, "test_weakening_detected"),
    (decide (budget.maxAttempts < request.attempt), "retry_budget_exhausted"),
    (decide (budget.maxChangedFiles < request.changedPaths.length), "changed_file_budget_exhausted"),
    (decide (budget.maxChangedLines < request.predictedChangedLines), "changed_line_budget_exhausted"),
    (decide (budget.maxCostUsd < request.costSpentUsd), "cost_budget_exhausted"),
    (decide (budget.maxElapsedSeconds < request.elapsedSeconds), "time_budget_exhausted")]

def denialReasons (request : RepairRequest) (budget : RetryBudget) : List Str :=
  ((denialChecks request budget).filter (·.1)).map (·.2.toList)

/-- The decision once the risk is known. -/
def decideRepair (request : RepairRequest) (policy : SupervisorPolicy) (risk : RiskLevel) : SupervisorDecision :=
  if denialReasons request policy.budget ≠ [] then
    ⟨risk, .deny, false, denialReasons request policy.budget,
      ["human_escalation".toList, "root_cause_review".toList], policy.forbiddenActions⟩
  else
    match risk with
    | .critical => ⟨risk, .deny, false, ["critical_surface".toList],
        ["security_review".toList, "human_approval".toList], policy.forbiddenActions⟩
    | .high => ⟨risk, .rcaOnly, true, ["protected_surface".toList],
        ["human_approval".toList, "full_regression".toList, "security_gate".toList], policy.forbiddenActions⟩
    | .medium => ⟨risk, .patchRequiresReview, true, ["nontrivial_change".toList],
        ["targeted_tests".toList, "full_regression".toList, "human_review".toList], policy.forbiddenActions⟩
    | .low => ⟨risk, .autonomousPatch, true, ["bounded_low_risk_repair".toList],
        ["targeted_tests".toList, "full_regression".toList, "policy_gate".toList], policy.forbiddenActions⟩

def evaluateRepair (request : RepairRequest) (policy : SupervisorPolicy) : Except PyError SupervisorDecision :=
  (classifyRisk request policy).map (decideRepair request policy)

/-- A repair past the attempt limit is denied. -/
theorem decideRepair_attempt {request : RepairRequest} {policy : SupervisorPolicy} {risk : RiskLevel}
    (h : (decideRepair request policy risk).authority ≠ .deny) : request.attempt ≤ policy.budget.maxAttempts := by
  by_contra hlimit
  have hcheck : (true, "retry_budget_exhausted") ∈ denialChecks request policy.budget := by
    have hover : decide ((policy.budget.maxAttempts : Int) < request.attempt) = true := decide_eq_true (by omega)
    unfold denialChecks
    rw [hover]
    exact .tail _ (.tail _ (.head _))
  have hreason : denialReasons request policy.budget ≠ [] := by
    unfold denialReasons
    exact fun hnil => List.ne_nil_of_mem (List.mem_filter.mpr ⟨hcheck, rfl⟩) (List.map_eq_nil_iff.mp hnil)
  refine h ?_
  unfold decideRepair
  rw [if_pos hreason]

/-- The risk depends on the changed paths, the failure class and the findings alone. -/
theorem classifyRisk_congr {request request' : RepairRequest} (policy : SupervisorPolicy)
    (hclass : request.failureClass = request'.failureClass) (hpaths : request.changedPaths = request'.changedPaths)
    (hsecurity : request.securityFinding = request'.securityFinding)
    (hunknown : request.unknownFailure = request'.unknownFailure) :
    classifyRisk request policy = classifyRisk request' policy := by
  unfold classifyRisk
  rw [hclass, hpaths, hsecurity, hunknown]

structure FailedCheck where
  workflow : Str
  job : Str
  failedStep : Str
  logExcerpt : Str := []
  changedPaths : List Str := []

structure AgentTask where
  objective : Str
  failureClass : Str
  authority : RepairAuthority
  allowedPaths : List Str
  requiredGates : List Str
  forbiddenActions : List Str
  evidence : List Str
  idempotencyKey : Str

structure GitHubRepairPlan where
  decision : SupervisorDecision
  task : Option AgentTask
  shouldRerunAfterPatch : Bool

section Adapter

variable [UnicodeData] (sha256 : Str → Str)

def classifyFailedCheck (check : FailedCheck) : Str :=
  let haystack := UnicodeData.lower
    (joinWith [' '] [check.workflow, check.job, check.failedStep, check.logExcerpt])
  let holds (word : String) : Bool := hasSub haystack word.toList
  if holds "ruff" || holds "flake8" || holds "lint" then "lint".toList
  else if holds "black" || holds "format" then "formatting".toList
  else if holds "mypy" || holds "pyright" || holds "type check" then "typing".toList
  else if holds "workflow" && (holds "yaml" || holds "syntax") then "workflow_syntax".toList
  else if holds "pytest" || hasSub (UnicodeData.lower check.failedStep) "test".toList then "unit_test_failure".toList
  else "unknown".toList

/-- `str` of a tuple of texts. -/
def tupleStr : List Str → Str
  | [] => "()".toList
  | [x] => '(' :: (pyRepr x ++ ",)".toList)
  | xs => '(' :: (joinWith ", ".toList (xs.map pyRepr) ++ [')'])

omit [UnicodeData] in
/-- `sha256` is the hexadecimal digest of the UTF-8 encoding of a text. -/
def deriveIdempotencyKey (parts : List Str) : Str := sha256 ('[' :: (joinWith [','] (parts.map writeString) ++ [']']))

def planRequest (check : FailedCheck) (attempt : Nat) (costSpentUsd : ℚ) (elapsedSeconds : Int) : RepairRequest where
  failureClass := classifyFailedCheck check
  changedPaths := check.changedPaths
  attempt := attempt
  costSpentUsd := costSpentUsd
  elapsedSeconds := elapsedSeconds
  unknownFailure := classifyFailedCheck check = "unknown".toList

def checkEvidence (check : FailedCheck) : List Str :=
  ["workflow=".toList ++ check.workflow, "job=".toList ++ check.job, "failed_step=".toList ++ check.failedStep] ++
    if check.logExcerpt = [] then [] else ["log_excerpt=".toList ++ check.logExcerpt.take 2000]

def agentTask (check : FailedCheck) (attempt : Nat) (decision : SupervisorDecision) : AgentTask where
  objective := ("Determine the root cause and propose the smallest safe repair. " ++
    "Do not weaken tests, checks, security controls, or policy to obtain green CI.").toList
  failureClass := classifyFailedCheck check
  authority := decision.authority
  allowedPaths := check.changedPaths
  requiredGates := decision.requiredGates
  forbiddenActions := decision.forbiddenActions
  evidence := checkEvidence check
  idempotencyKey := deriveIdempotencyKey sha256 [check.workflow, check.job, check.failedStep,
    classifyFailedCheck check, decision.authority.value, natStr attempt, tupleStr check.changedPaths,
    tupleStr (checkEvidence check)]

def repairPlan (check : FailedCheck) (attempt : Nat) (decision : SupervisorDecision) : GitHubRepairPlan :=
  if decision.authority = .deny then ⟨decision, none, false⟩
  else ⟨decision, some (agentTask sha256 check attempt decision),
    decision.authority = .autonomousPatch || decision.authority = .patchRequiresReview⟩

def buildRepairPlan (check : FailedCheck) (attempt : Nat) (costSpentUsd : ℚ) (elapsedSeconds : Int)
    (policy : SupervisorPolicy) : Except PyError GitHubRepairPlan :=
  (evaluateRepair (planRequest check attempt costSpentUsd elapsedSeconds) policy).map (repairPlan sha256 check attempt)

end Adapter

end Supervisor

end FailureOrchestrator
