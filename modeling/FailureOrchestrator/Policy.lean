import FailureOrchestrator.Models
import FailureOrchestrator.Integrity

namespace FailureOrchestrator

inductive PolicyOutcome where
  | approve
  | reject
  | escalate
  deriving DecidableEq, Repr

def PolicyOutcome.value : PolicyOutcome → String
  | .approve => "APPROVE"
  | .reject => "REJECT"
  | .escalate => "ESCALATE"

inductive GovernanceRiskLevel where
  | low
  | medium
  | high
  | critical
  deriving DecidableEq, Repr

def GovernanceRiskLevel.value : GovernanceRiskLevel → String
  | .low => "LOW"
  | .medium => "MEDIUM"
  | .high => "HIGH"
  | .critical => "CRITICAL"

def GovernanceRiskLevel.order : GovernanceRiskLevel → Nat
  | .low => 0
  | .medium => 1
  | .high => 2
  | .critical => 3

def maxRisk (a b : GovernanceRiskLevel) : GovernanceRiskLevel := if b.order ≤ a.order then a else b

inductive FileCategory where
  | source
  | test
  | documentation
  | ci
  | dependency
  | security
  | auth
  | infrastructure
  | migration
  | configuration
  | unknown
  deriving DecidableEq, Repr

def FileCategory.value : FileCategory → String
  | .source => "SOURCE"
  | .test => "TEST"
  | .documentation => "DOCUMENTATION"
  | .ci => "CI"
  | .dependency => "DEPENDENCY"
  | .security => "SECURITY"
  | .auth => "AUTH"
  | .infrastructure => "INFRASTRUCTURE"
  | .migration => "MIGRATION"
  | .configuration => "CONFIGURATION"
  | .unknown => "UNKNOWN"

inductive ChangeScope where
  | small
  | moderate
  | broad
  deriving DecidableEq, Repr

def ChangeScope.value : ChangeScope → String
  | .small => "SMALL"
  | .moderate => "MODERATE"
  | .broad => "BROAD"

/-- The stable rule identifiers. -/
inductive PolicyRule where
  | evaluationMustPass
  | forbiddenPath
  | securitySensitive
  | ciWorkflow
  | lowRiskAutoApprove
  | defaultEscalation
  | dependencyChange
  | restrictedTool
  | authChange
  | broadScope
  | highRetryCount
  | invalidProposal
  | engineFailure
  | failureCategory
  | lowConfidence
  | escalationPath
  | infraOrMigration
  | verificationWeakened
  | verificationChangeReview
  deriving DecidableEq, Repr

def PolicyRule.id : PolicyRule → String
  | .evaluationMustPass => "POL-001-EVALUATION-MUST-PASS"
  | .forbiddenPath => "POL-002-FORBIDDEN-PATH"
  | .securitySensitive => "POL-003-SECURITY-SENSITIVE-CHANGE"
  | .ciWorkflow => "POL-004-CI-WORKFLOW-CHANGE"
  | .lowRiskAutoApprove => "POL-005-LOW-RISK-AUTO-APPROVE"
  | .defaultEscalation => "POL-006-DEFAULT-ESCALATION"
  | .dependencyChange => "POL-007-DEPENDENCY-CHANGE"
  | .restrictedTool => "POL-008-RESTRICTED-TOOL"
  | .authChange => "POL-009-AUTH-CHANGE"
  | .broadScope => "POL-010-BROAD-SCOPE"
  | .highRetryCount => "POL-011-HIGH-RETRY-COUNT"
  | .invalidProposal => "POL-012-INVALID-PROPOSAL"
  | .engineFailure => "POL-013-ENGINE-FAILURE"
  | .failureCategory => "POL-014-ENVIRONMENT-OR-UNKNOWN-FAILURE"
  | .lowConfidence => "POL-015-LOW-CLASSIFICATION-CONFIDENCE"
  | .escalationPath => "POL-016-ESCALATION-PATH"
  | .infraOrMigration => "POL-017-INFRASTRUCTURE-OR-MIGRATION"
  | .verificationWeakened => "POL-018-VERIFICATION-WEAKENED"
  | .verificationChangeReview => "POL-019-VERIFICATION-CHANGE-REVIEW"

def policyVersion : String := "2026.10.1"

structure PolicyViolation where
  rule : PolicyRule
  severity : String
  message : String
  evidence : List String := []
  deriving DecidableEq, Repr

structure PolicyDecision where
  outcome : PolicyOutcome
  reasons : List String
  matchedRules : List PolicyRule
  violations : List PolicyViolation
  riskLevel : GovernanceRiskLevel
  evidence : List String
  explanation : String
  policyVersion : String := FailureOrchestrator.policyVersion
  deriving DecidableEq, Repr

/-- The inputs that the policy gate evaluates for one proposal. -/
structure PolicyContext where
  proposal : RepairProposal
  evaluation : EvaluationResult
  classification : Option FailureClassification
  changedFiles : List Str
  toolsUsed : List String
  toolRiskLevels : List ToolRiskLevel
  attemptCount : Int
  fileCategories : List FileCategory
  changeScope : ChangeScope
  riskLevel : GovernanceRiskLevel

structure PolicyConfig where
  defaultOutcome : PolicyOutcome := .escalate
  forbiddenPaths : List String := [".env", "secrets/", ".git/", "id_rsa"]
  escalationPaths : List String := [".github/workflows/", "auth/", "infra/", "migrations/", "deploy/"]
  securityPathMarkers : List String :=
    ["auth/", "authorization", "permission", "secret", "crypt", "oauth", "jwt", "credential"]
  ciPathPrefixes : List String := [".github/workflows/", "Jenkinsfile", "azure-pipelines.yml", ".gitlab-ci.yml"]
  autoApproveMaxFiles : Int := 3
  autoApproveCategories : List FileCategory := [.source, .test, .documentation]
  autoApproveRiskLevels : List GovernanceRiskLevel := [.low]
  escalateOnRestrictedTools : Bool := true
  escalateWhenAttemptsAtMax : Bool := false
  maxAttemptsForEscalation : Int := 3
  smallScopeMaxFiles : Int := 3
  moderateScopeMaxFiles : Int := 8
  escalationFailureCategories : List String :=
    ["dependency_failure", "infrastructure_failure", "network_failure", "unknown", "security_scan_failure",
      "timeout_failure", "environment_failure"]
  -- The double that the literal 0.6 denotes.
  minClassificationConfidence : ℚ := 5404319552844595 / 9007199254740992

def malformedPattern (p : String) : Bool :=
  p.toList.isEmpty || hasSub (replaceChar '\\' '/' p.toList) "..".toList

/-- `__post_init__`; the checks that a value is of its enumeration hold by type. -/
def PolicyConfig.validate [UnicodeData] (c : PolicyConfig) : Except PyError Unit :=
  if c.defaultOutcome = .approve then
    .error (.valueError "default_outcome must not be APPROVE (conservative)")
  else if c.autoApproveMaxFiles < 1 then .error (.valueError "auto_approve_max_files must be >= 1")
  else if c.smallScopeMaxFiles < 1 ∨ c.moderateScopeMaxFiles < 1 then
    .error (.valueError "scope thresholds must be >= 1")
  else if c.moderateScopeMaxFiles < c.smallScopeMaxFiles then
    .error (.valueError "small_scope_max_files must be <= moderate_scope_max_files")
  else if c.maxAttemptsForEscalation < 1 then
    .error (.valueError "max_attempts_for_escalation must be >= 1")
  else if ¬ (0 ≤ c.minClassificationConfidence ∧ c.minClassificationConfidence ≤ 1) then
    .error (.valueError "min_classification_confidence must be within [0, 1]")
  else
    match (c.forbiddenPaths ++ c.escalationPaths).find? malformedPattern with
    | some p => .error (.valueError ("malformed path pattern: " ++ String.ofList (pyRepr p.toList)))
    | none => .ok ()

def dependencyBasenames : List String :=
  ["requirements.txt", "pyproject.toml", "poetry.lock", "package.json", "package-lock.json", "pnpm-lock.yaml",
    "yarn.lock", "cargo.toml", "cargo.lock", "go.mod", "go.sum"]

/-- `len(set(xs))`. -/
def distinctCount (xs : List Str) : Nat := xs.dedup.length

variable [UnicodeData]

def normalizePath (path : Str) : Str := UnicodeData.lower (dropDotSlash (replaceChar '\\' '/' path))

def classifyFile (path : Str) : FileCategory :=
  let p := normalizePath path
  let base := afterLast '/' p
  let inner := ['/'] ++ p ++ ['/']
  if inSet base dependencyBasenames || endsWith base ".lock".toList then .dependency
  else if startsWith p ".github/workflows/".toList ||
      inSet base ["jenkinsfile", "azure-pipelines.yml", ".gitlab-ci.yml"] ||
      endsWith p "/azure-pipelines.yml".toList || inSet p ["azure-pipelines.yml", ".gitlab-ci.yml", "jenkinsfile"]
  then .ci
  else if hasSub inner "/migrations/".toList || startsWith p "migrations/".toList ||
      hasSub inner "/alembic/".toList then .migration
  else if startsWithAny p ["infra/", "terraform/", "deploy/"] then .infrastructure
  else if startsWith p "auth/".toList || hasSub inner "/auth/".toList || hasSub p "authorization".toList ||
      hasSub p "permission".toList then .auth
  else if hasSub p "secret".toList || startsWith p "secrets/".toList || hasSub p "credential".toList ||
      inSet base [".env", "id_rsa"] || hasSub p "crypt".toList then .security
  else if startsWith p "tests/".toList || startsWith p "test/".toList || hasSub inner "/tests/".toList ||
      startsWith base "test_".toList || endsWith base "_test.py".toList then .test
  else if startsWith p "docs/".toList || endsWith base ".md".toList ||
      inSet base ["readme", "readme.md", "changelog.md"] then .documentation
  else if startsWith p "src/".toList || startsWith p "ci_failure_orchestrator/".toList ||
      endsWithAny p [".py", ".ts", ".js", ".go", ".rs"] then .source
  else if endsWithAny base [".yml", ".yaml", ".toml", ".ini", ".cfg", ".json"] then .configuration
  else .unknown

def classifyScope (files : List Str) (smallMax moderateMax : Int) : ChangeScope :=
  let n : Int := files.length
  let dirs := distinctCount (((files.map normalizePath).filter (·.contains '/')).map (beforeLast '/'))
  if n = 0 then .broad
  else if n ≤ smallMax ∧ dirs ≤ 2 then .small
  else if n ≤ moderateMax ∧ dirs ≤ 4 then .moderate
  else .broad

def criticalPath (f : Str) : Bool :=
  startsWithAny (normalizePath f) [".env", "secrets/"] || hasSub (normalizePath f) "id_rsa".toList

def classifyRisk (categories : List FileCategory) (scope : ChangeScope) (toolRisks : List ToolRiskLevel)
    (files : List Str) : GovernanceRiskLevel :=
  if .security ∈ categories then .critical
  else if files.any criticalPath then .critical
  else if .auth ∈ categories ∨ .ci ∈ categories then .high
  else if .infrastructure ∈ categories ∨ .migration ∈ categories then .high
  else if .dependency ∈ categories then .medium
  else if .restricted ∈ toolRisks ∧ scope ≠ .small then .medium
  else if .unknown ∈ categories ∨ scope = .broad then .medium
  else if scope = .moderate then .medium
  else if ∀ c ∈ categories, c = .source ∨ c = .test ∨ c = .documentation then .low
  else .medium

def buildPolicyContext (proposal : RepairProposal) (evaluation : EvaluationResult)
    (classification : Option FailureClassification) (toolsUsed : List String)
    (toolRiskLevels : List ToolRiskLevel) (attemptCount : Int) (config : PolicyConfig) : PolicyContext :=
  let files := proposal.filesChanged
  let categories := files.map classifyFile
  let scope := classifyScope files config.smallScopeMaxFiles config.moderateScopeMaxFiles
  { proposal, evaluation, classification, changedFiles := files, toolsUsed, toolRiskLevels, attemptCount
    fileCategories := categories
    changeScope := scope
    riskLevel := classifyRisk categories scope toolRiskLevels files }

end FailureOrchestrator
