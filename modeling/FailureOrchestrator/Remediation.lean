import FailureOrchestrator.PyText

namespace FailureOrchestrator

inductive RemediationState where
  | failureReceived
  | failureReproduced
  | repairProposed
  | patchApplied
  | targetedValidationPassed
  | regressionValidationPassed
  | policyApproved
  | ciGreenButUnverified
  | verifiedFixed
  | regressionDetected
  | policyRejected
  | humanReviewRequired
  | notFixed
  deriving DecidableEq, Repr

/-- Outcomes of one verification gate. -/
inductive GateStatus where
  | passed
  | failed
  | failedPreexisting
  | notRun
  | waived
  deriving DecidableEq, Repr

def GateStatus.value : GateStatus → String
  | .passed => "PASSED"
  | .failed => "FAILED"
  | .failedPreexisting => "FAILED_PREEXISTING"
  | .notRun => "NOT_RUN"
  | .waived => "WAIVED"

def GateStatus.satisfied (g : GateStatus) : Bool := g = .passed ∨ g = .waived

/-- A gate that was not run, or that failed before the patch too, cannot vouch for the repair. -/
def GateStatus.silent (g : GateStatus) : Bool := g = .notRun ∨ g = .failedPreexisting

inductive MergeRequirement where
  | automaticVerificationAllowed
  | humanApprovalBeforeMerge
  | humanReviewRequired
  | blocked
  deriving DecidableEq, Repr

def riskLow : Str := "LOW".toList

def riskMedium : Str := "MEDIUM".toList

def riskHigh : Str := "HIGH".toList

/-- Evidence about one repair; `none` and `.notRun` stand for what was not collected. -/
structure VerificationResult where
  repairProposed : Bool := false
  patchApplied : Bool := false
  originalFailureReproduced : Option Bool := none
  originalFailureResolved : Option Bool := none
  targetedTestPassed : Option Bool := none
  targetTestMissing : Bool := false
  affectedTests : GateStatus := .notRun
  regressionSuite : GateStatus := .notRun
  newTestFailures : List Str := []
  testCountDecreased : Option Bool := none
  skippedTestsIncreased : Option Bool := none
  coverage : GateStatus := .notRun
  lint : GateStatus := .notRun
  typecheck : GateStatus := .notRun
  security : GateStatus := .notRun
  build : GateStatus := .notRun
  behavioralInvariants : GateStatus := .notRun
  forbiddenDiffDetected : Bool := false
  forbiddenDiffCodes : List Str := []
  policyOutcome : Option Str := none
  humanApproved : Bool := false
  realCiPassed : Option Bool := none
  riskLevel : Str := riskHigh
  riskReasons : List Str := []
  deriving DecidableEq, Repr

/-- The gates by name, in the order of `_GATES`. -/
def VerificationResult.gates (v : VerificationResult) : List (Str × GateStatus) :=
  [("affected_tests".toList, v.affectedTests), ("regression_suite".toList, v.regressionSuite),
    ("coverage".toList, v.coverage), ("lint".toList, v.lint), ("typecheck".toList, v.typecheck),
    ("security".toList, v.security), ("build".toList, v.build),
    ("behavioral_invariants".toList, v.behavioralInvariants)]

structure RemediationDecision where
  state : RemediationState
  reasons : List Str
  missingEvidence : List Str
  mergeRequirement : MergeRequirement
  trail : List RemediationState := []
  deriving DecidableEq, Repr

def policySatisfied (v : VerificationResult) : Bool :=
  v.policyOutcome = some "APPROVE".toList ∨ v.humanApproved

def riskSatisfied (v : VerificationResult) : Bool :=
  v.riskLevel = riskLow ∨ v.riskLevel = riskMedium ∨ v.humanApproved

/-- Every required piece of evidence is present and passing. -/
def isVerifiedFix (v : VerificationResult) : Bool :=
  v.repairProposed &&
  v.patchApplied &&
  v.originalFailureReproduced = some true &&
  v.originalFailureResolved = some true &&
  v.targetedTestPassed = some true &&
  !v.targetTestMissing &&
  v.affectedTests.satisfied &&
  v.regressionSuite.satisfied &&
  v.newTestFailures.isEmpty &&
  v.testCountDecreased = some false &&
  v.skippedTestsIncreased ≠ some true &&
  v.coverage.satisfied &&
  v.lint.satisfied &&
  v.typecheck.satisfied &&
  v.security.satisfied &&
  v.build.satisfied &&
  v.behavioralInvariants.satisfied &&
  !v.forbiddenDiffDetected &&
  policySatisfied v &&
  riskSatisfied v &&
  v.realCiPassed = some true

/-- `if b: xs.append(text)`. -/
def noteIf (b : Bool) (text : String) : List Str := if b then [text.toList] else []

def missingEvidence (v : VerificationResult) : List Str :=
  noteIf (v.originalFailureReproduced ≠ some true) "original_failure_reproduced" ++
  noteIf (v.originalFailureResolved = none) "original_failure_resolved" ++
  noteIf (v.targetedTestPassed = none) "targeted_test_passed" ++
  noteIf (v.testCountDecreased = none) "test_count_comparison" ++
  (v.gates.filter fun g => g.2.silent).map (fun g => g.1 ++ ":".toList ++ g.2.value.toList) ++
  noteIf (v.realCiPassed = none) "real_ci_passed"

/-- The states the repair went through, ending in `final`. -/
def remediationTrail (v : VerificationResult) (final : RemediationState) : List RemediationState :=
  let reproduced := if v.originalFailureReproduced = some true then [.failureReproduced] else []
  let proposed := if v.repairProposed then [.repairProposed] else []
  let applied := if v.patchApplied then [.patchApplied] else []
  let targeted :=
    if v.targetedTestPassed = some true ∧ v.originalFailureResolved = some true then
      if v.regressionSuite.satisfied ∧ v.affectedTests.satisfied ∧ v.newTestFailures = [] then
        [.targetedValidationPassed, .regressionValidationPassed]
      else [.targetedValidationPassed]
    else []
  let policy := if policySatisfied v ∧ v.forbiddenDiffDetected = false then [.policyApproved] else []
  let trail := RemediationState.failureReceived :: (reproduced ++ proposed ++ applied ++ targeted ++ policy)
  if trail.getLast? = some final then trail else trail ++ [final]

def mergeRequirementForRisk (v : VerificationResult) : MergeRequirement :=
  if v.riskLevel = riskLow ∧ v.humanApproved = false then .automaticVerificationAllowed
  else .humanApprovalBeforeMerge

def rejectedReasons (v : VerificationResult) : List Str :=
  let codes := v.forbiddenDiffCodes.map fun code => "forbidden_diff:".toList ++ code
  codes ++
  noteIf (v.forbiddenDiffDetected && codes.isEmpty) "forbidden_diff" ++
  noteIf v.targetTestMissing "target_test_missing_after_patch" ++
  noteIf (v.testCountDecreased = some true) "test_count_decreased" ++
  noteIf (v.skippedTestsIncreased = some true) "skipped_tests_increased" ++
  noteIf (v.policyOutcome = some "REJECT".toList) "policy_rejected"

def notFixedReasons (v : VerificationResult) : List Str :=
  noteIf (!v.repairProposed || !v.patchApplied) "no_applied_repair" ++
  noteIf (v.targetedTestPassed = some false) "targeted_validation_failed" ++
  noteIf (v.originalFailureResolved = some false) "original_failure_not_resolved"

def regressionReasons (v : VerificationResult) : List Str :=
  v.newTestFailures.map (fun t => "new_test_failure:".toList ++ t) ++
  (v.gates.filter fun g => g.2 = .failed).map fun g => g.1 ++ "_regressed".toList

/-- `(v.policy_outcome or 'missing')`. -/
def policyText (v : VerificationResult) : Str :=
  match v.policyOutcome with
  | none | some [] => "missing".toList
  | some outcome => outcome

section Decision

variable [UnicodeData]

def reviewReasons (v : VerificationResult) : List Str :=
  (if riskSatisfied v then [] else ("risk_".toList ++ UnicodeData.lower v.riskLevel) :: v.riskReasons) ++
  (if policySatisfied v then [] else ["policy_".toList ++ UnicodeData.lower (policyText v)]) ++
  noteIf (v.realCiPassed = some false) "real_ci_failed_after_local_verification"

/-- Precedence: cheating, not fixed, regression, human review, then how much evidence exists. -/
def decideRemediation (v : VerificationResult) : RemediationDecision :=
  let decide (state : RemediationState) (reasons : List Str) (merge : MergeRequirement) :=
    RemediationDecision.mk state reasons (missingEvidence v) merge (remediationTrail v state)
  if rejectedReasons v ≠ [] then decide .policyRejected (rejectedReasons v) .blocked
  else if notFixedReasons v ≠ [] then decide .notFixed (notFixedReasons v) .blocked
  else if regressionReasons v ≠ [] then decide .regressionDetected (regressionReasons v) .blocked
  else if reviewReasons v ≠ [] then decide .humanReviewRequired (reviewReasons v) .humanReviewRequired
  else if v.realCiPassed = none then
    decide .policyApproved ["awaiting_real_ci_verification".toList] (mergeRequirementForRisk v)
  else if isVerifiedFix v = false then
    decide .ciGreenButUnverified ["real_ci_passed_but_evidence_incomplete".toList] .humanReviewRequired
  else decide .verifiedFixed ["all_verification_evidence_passed".toList] (mergeRequirementForRisk v)

end Decision

end FailureOrchestrator
