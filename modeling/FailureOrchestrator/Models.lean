import FailureOrchestrator.PyText

namespace FailureOrchestrator

inductive ToolRiskLevel where
  | readOnly
  | safeWrite
  | restricted
  deriving DecidableEq, Repr

inductive CheckStatus where
  | passed
  | failed
  | notRun
  | unavailable
  | skipped
  deriving DecidableEq, Repr

def ToolRiskLevel.value : ToolRiskLevel → String
  | .readOnly => "READ_ONLY"
  | .safeWrite => "SAFE_WRITE"
  | .restricted => "RESTRICTED"

def CheckStatus.value : CheckStatus → String
  | .passed => "PASSED"
  | .failed => "FAILED"
  | .notRun => "NOT_RUN"
  | .unavailable => "UNAVAILABLE"
  | .skipped => "SKIPPED"

/-- A CI failure received for repair. -/
structure FailureEvent where
  eventId : Str := []
  runId : Str
  source : Str := []
  workflow : Str := []
  job : Str := []
  failedStep : Str
  message : Str
  repository : Str := []
  commitSha : Str := []
  branch : Str := []
  exitCode : Option Int := none
  changedPaths : List Str := []
  logExcerpt : Str := []
  rawLogRef : Str := []
  deriving DecidableEq, Repr

/-- The bounded evidence for one failure that planning reads. -/
structure FailureContext where
  runId : Str
  summary : Str := []
  prioritizedEvidence : List Str := []
  changedPaths : List Str := []
  deriving DecidableEq, Repr

/-- The heuristic classification of a failure; classifiers produce finite confidences. -/
structure FailureClassification where
  runId : Str := []
  category : String
  evidence : List String := []
  confidence : ℚ
  uncertainty : String := ""
  deriving DecidableEq, Repr

/-- A JSON value; an object is its list of entries. -/
inductive Json where
  | null
  | bool (b : Bool)
  | num (q : ℚ)
  | str (s : Str)
  | arr (items : List Json)
  | obj (entries : List (String × Json))

/-- `bool(value)`. -/
def Json.truthy : Json → Bool
  | .null => false
  | .bool b => b
  | .num q => q ≠ 0
  | .str s => !s.isEmpty
  | .arr items => !items.isEmpty
  | .obj entries => !entries.isEmpty

def Json.text (s : String) : Json := .str s.toList

def Json.nat (n : Nat) : Json := .num n

def Json.texts (items : List Str) : Json := .arr (items.map .str)

def Json.optText (s : Option Str) : Json := s.elim .null .str

/-- One tool invocation of a plan. -/
structure PlanStep where
  stepId : Str := []
  action : Str := []
  tool : String
  inputs : List (String × Json) := []
  riskLevel : ToolRiskLevel := .readOnly

structure RepairPlan where
  runId : Str := []
  goal : Str
  assumptions : List Str := []
  steps : List PlanStep := []
  requiredTools : List Str := []
  riskLevel : Str := []
  verificationSteps : List Str := []
  stopConditions : List Str := []

structure ToolCall where
  toolName : String
  riskLevel : ToolRiskLevel
  deriving DecidableEq, Repr

structure ToolResult where
  toolName : String
  success : Bool
  exitCode : Int := 0
  stdout : Str := []
  stderr : Str := []
  deriving DecidableEq, Repr

structure RepairProposal where
  proposalId : Str
  filesChanged : List Str
  patch : Str
  rationale : Str := []
  expectedEffect : Str := []
  deriving DecidableEq, Repr

structure SandboxResult where
  runId : Str := []
  proposalId : Str
  success : Bool
  patchApplied : Bool
  changedFiles : List Str := []
  timeout : Bool := false
  error : Option Str := none
  deriving DecidableEq, Repr

structure EvaluationCheck where
  name : Str
  status : CheckStatus
  detail : Str := []
  deriving DecidableEq, Repr

structure EvaluationResult where
  runId : Str := []
  passed : Bool
  patchApplied : Bool
  targetVerificationPassed : Bool
  forbiddenChangesDetected : Bool
  checks : List EvaluationCheck := []
  deriving DecidableEq, Repr

end FailureOrchestrator
