import FailureOrchestrator.Policy

namespace FailureOrchestrator

/-- `s or "none"`. -/
def orNone (s : String) : String := if s.isEmpty then "none" else s

def pyBool (b : Bool) : String := if b then "True" else "False"

/-- `"\n".join(f"- {x}" for x in xs) or "- (none)"`. -/
def bulletLines (xs : List String) : String :=
  if xs.isEmpty then "- (none)" else String.intercalate "\n" (xs.map ("- " ++ ·))

def joined (fs : List Str) : String := String.intercalate ", " (fs.map String.ofList)

def PolicyContext.evidence (context : PolicyContext) : List String :=
  ["evaluation_passed=" ++ pyBool context.evaluation.passed,
    "files=" ++ toString context.changedFiles.length,
    "scope=" ++ context.changeScope.value,
    "risk=" ++ context.riskLevel.value,
    "categories=" ++ orNone (String.intercalate "," (context.fileCategories.map FileCategory.value)),
    "tools=" ++ orNone (String.intercalate "," context.toolsUsed),
    "attempts=" ++ toString context.attemptCount] ++
  (match context.classification with
    | some c => ["failure_category=" ++ c.category, "classification_confidence=" ++ fixed2 c.confidence]
    | none => ["failure_category=none"]) ++
  (context.changedFiles.take 8).map fun f => "file:" ++ String.ofList f

def IntegrityFinding.integrityLine (f : IntegrityFinding) : String := "integrity:" ++ String.ofList f.describe

/-- `_decision`: the decision with its rendered explanation. -/
def decision (outcome : PolicyOutcome) (matched : List PolicyRule) (violations : List PolicyViolation)
    (reasons : List String) (risk : GovernanceRiskLevel) (evidence : List String) (detail : String) :
    PolicyDecision :=
  let uniq := fromKeys matched
  { outcome, reasons, matchedRules := uniq, violations, riskLevel := risk, evidence
    explanation := "Policy Decision: " ++ outcome.value ++ "\n\nMatched rules:\n" ++
      bulletLines (uniq.map PolicyRule.id) ++ "\n\nEvidence:\n" ++ bulletLines evidence ++
      "\n\nReason:\n- " ++ detail }

def engineFailureDecision (e : PyError) : PolicyDecision where
  outcome := .escalate
  reasons := ["policy_engine_error:" ++ e.typeName]
  matchedRules := [.engineFailure]
  violations := [⟨.engineFailure, "HIGH", "Policy engine failed closed",
    [String.ofList (e.str.toList.take 200)]⟩]
  riskLevel := .high
  evidence := ["fail_closed=true"]
  explanation := "Policy Decision: ESCALATE\n\nMatched rules:\n- POL-013-ENGINE-FAILURE\n\n" ++
    "Reason:\n- Policy engine error; fail-closed escalation."

/-- The rules that matched and the reasons to escalate, as they are collected. -/
structure Escalation where
  matched : List PolicyRule := []
  reasons : List String := []
  deriving DecidableEq, Repr

def Escalation.fire (st : Escalation) (rule : PolicyRule) (reason : String) : Escalation :=
  { matched := st.matched ++ [rule], reasons := st.reasons ++ [reason] }

/-- A rule that fires with one reason under a condition. -/
def Escalation.fireIf (st : Escalation) (cond : Bool) (rule : PolicyRule) (reason : String) : Escalation :=
  if cond then st.fire rule reason else st

def reviewFindingsOf (findings : List IntegrityFinding) : List IntegrityFinding :=
  findings.filter fun f => decide (f.severity = .escalate)

def weakeningOf (findings : List IntegrityFinding) : List IntegrityFinding :=
  findings.filter fun f => decide (f.severity = .reject)

namespace PolicyContext

def hasCategory (context : PolicyContext) (c : FileCategory) : Bool := context.fileCategories.contains c

def verificationReviewRule (findings : List IntegrityFinding) (st : Escalation) : Escalation :=
  let review := reviewFindingsOf findings
  if review.isEmpty then st
  else
    { matched := st.matched ++ [.verificationChangeReview]
      reasons := st.reasons ++ fromKeys (review.map fun f => "verification_change:" ++ f.code.value) }

def classificationRule (context : PolicyContext) (cfg : PolicyConfig) (st : Escalation) : Escalation :=
  match context.classification with
  | none => st.fire .lowConfidence "classification_missing"
  | some c =>
    (st.fireIf (cfg.escalationFailureCategories.contains c.category) .failureCategory
        ("failure_category:" ++ c.category)).fireIf
      (decide (c.confidence < cfg.minClassificationConfidence)) .lowConfidence "low_classification_confidence"

end PolicyContext

variable [UnicodeData]

/-- Whether a file matches a pattern: equal to it, beginning with it or containing it. -/
def pathMatches (patterns : List String) (f : Str) : Bool :=
  let nf := normalizePath f
  patterns.any fun pat =>
    let p := normalizePath pat.toList
    nf == p || startsWith nf p || hasSub nf p

def matchingPaths (files : List Str) (patterns : List String) : List Str := files.filter (pathMatches patterns)

def pathContainsMarkers (files : List Str) (markers : List String) : Bool :=
  files.any fun f => markers.any fun m => hasSub (normalizePath f) (normalizePath m.toList)

namespace PolicyContext

/-- The files whose category, taken from the context, is `c`. -/
def filesOf (context : PolicyContext) (c : FileCategory) : List Str :=
  ((context.changedFiles.zip context.fileCategories).filter fun fc => decide (fc.2 = c)).map Prod.fst

def authRule (context : PolicyContext) (cfg : PolicyConfig) (st : Escalation) : Escalation :=
  if !(context.filesOf .auth).isEmpty then st.fire .authChange "auth_code_modified"
  else st.fireIf (pathContainsMarkers context.changedFiles cfg.securityPathMarkers) .securitySensitive
    "security_sensitive_path"

def securityRule (context : PolicyContext) (st : Escalation) : Escalation :=
  st.fireIf (!(context.filesOf .security).isEmpty && !st.matched.contains .securitySensitive)
    .securitySensitive "security_category_file"

def ciRule (context : PolicyContext) (cfg : PolicyConfig) (st : Escalation) : Escalation :=
  st.fireIf (!(context.filesOf .ci).isEmpty || !(matchingPaths context.changedFiles cfg.ciPathPrefixes).isEmpty)
    .ciWorkflow "ci_workflow_modified"

def dependencyRule (context : PolicyContext) (st : Escalation) : Escalation :=
  st.fireIf (!(context.filesOf .dependency).isEmpty) .dependencyChange "dependency_manifest_or_lockfile"

def infraRule (context : PolicyContext) (st : Escalation) : Escalation :=
  st.fireIf (context.hasCategory .infrastructure || context.hasCategory .migration) .infraOrMigration
    "infra_or_migration"

/-- An escalation path is a reason only when there is no other so far. -/
def escalationPathRule (context : PolicyContext) (cfg : PolicyConfig) (st : Escalation) : Escalation :=
  st.fireIf (!(matchingPaths context.changedFiles cfg.escalationPaths).isEmpty && st.reasons.isEmpty)
    .escalationPath "escalation_path_prefix"

def restrictedToolRule (context : PolicyContext) (cfg : PolicyConfig) (st : Escalation) : Escalation :=
  st.fireIf (cfg.escalateOnRestrictedTools && context.toolRiskLevels.contains .restricted &&
    decide (context.changeScope ≠ .small)) .restrictedTool "restricted_tool_with_non_small_scope"

def broadScopeRule (context : PolicyContext) (st : Escalation) : Escalation :=
  st.fireIf (decide (context.changeScope = .broad)) .broadScope "broad_change_scope"

def attemptCountReached (context : PolicyContext) (cfg : PolicyConfig) : Bool :=
  cfg.escalateWhenAttemptsAtMax && decide (cfg.maxAttemptsForEscalation ≤ context.attemptCount)

def retryCountRule (context : PolicyContext) (cfg : PolicyConfig) (st : Escalation) : Escalation :=
  st.fireIf (context.attemptCountReached cfg) .highRetryCount "high_retry_count"

def unknownRule (context : PolicyContext) (st : Escalation) : Escalation :=
  if context.hasCategory .unknown then
    { matched := if st.matched.contains .defaultEscalation then st.matched
        else st.matched ++ [.defaultEscalation]
      reasons := st.reasons ++ ["unknown_file_category"] }
  else st

/-- The mandatory escalation rules, in the order the engine applies them. -/
def escalationRules (context : PolicyContext) (cfg : PolicyConfig) (findings : List IntegrityFinding) :
    List (Escalation → Escalation) :=
  [verificationReviewRule findings, context.classificationRule cfg, context.authRule cfg, context.securityRule,
    context.ciRule cfg, context.dependencyRule, context.infraRule, context.escalationPathRule cfg,
    context.restrictedToolRule cfg, context.broadScopeRule, context.retryCountRule cfg, context.unknownRule]

def escalation (context : PolicyContext) (cfg : PolicyConfig) (findings : List IntegrityFinding) : Escalation :=
  (context.escalationRules cfg findings).foldl (fun st rule => rule st) {}

def eligibleAutoApprove (context : PolicyContext) (cfg : PolicyConfig) : Bool :=
  cfg.autoApproveRiskLevels.contains context.riskLevel &&
  decide ((context.changedFiles.length : Int) ≤ cfg.autoApproveMaxFiles) &&
  decide (context.changeScope = .small) &&
  !context.fileCategories.isEmpty &&
  context.fileCategories.all cfg.autoApproveCategories.contains

end PolicyContext

/-- An engine holds a configuration that its validator accepted. -/
structure StaticPolicyEngine where
  config : PolicyConfig
  accepted : config.validate = .ok ()

namespace StaticPolicyEngine

def rejectEvaluation (context : PolicyContext) : PolicyDecision :=
  decision .reject [.evaluationMustPass]
    [⟨.evaluationMustPass, "HIGH", "Evaluation did not pass; cannot approve", ["evaluation.passed=False"]⟩]
    ["evaluation_must_pass"] (maxRisk context.riskLevel .high) context.evidence
    "Technical evaluation failed; governance rejects approval."

def rejectEmpty (context : PolicyContext) : PolicyDecision :=
  decision .reject [.invalidProposal] [⟨.invalidProposal, "HIGH", "Malformed or empty proposal", []⟩]
    ["invalid_proposal"] .high context.evidence "Proposal is empty or has no changed files."

def rejectForbidden (context : PolicyContext) (hits : List Str) : PolicyDecision :=
  decision .reject [.forbiddenPath]
    [⟨.forbiddenPath, "HIGH", "Proposal modifies forbidden path", hits.map String.ofList⟩]
    ["forbidden_path"] .critical (context.evidence ++ hits.map fun h => "forbidden:" ++ String.ofList h)
    ("Forbidden path(s): " ++ joined hits ++ ".")

def rejectWeakening (context : PolicyContext) (weakening : List IntegrityFinding) : PolicyDecision :=
  let codes := fromKeys (weakening.map fun f => f.code.value)
  decision .reject [.verificationWeakened]
    (weakening.map fun f => ⟨.verificationWeakened, "HIGH", f.message, [String.ofList f.describe]⟩)
    (codes.map ("verification_weakened:" ++ ·)) .critical
    (context.evidence ++ weakening.map IntegrityFinding.integrityLine)
    ("Patch weakens the checks used to verify it (" ++ String.intercalate ", " codes ++
      "); a passing run is not evidence of a fix.")

/-- Mandatory escalation, explicit allow and default, once nothing rejects. -/
def decideUnrejected (engine : StaticPolicyEngine) (context : PolicyContext) (findings : List IntegrityFinding) :
    PolicyDecision :=
  let cfg := engine.config
  let esc := context.escalation cfg findings
  let evidence := context.evidence ++ (reviewFindingsOf findings).map IntegrityFinding.integrityLine
  if !esc.reasons.isEmpty then
    decision .escalate (fromKeys esc.matched) [] esc.reasons (maxRisk context.riskLevel .high) evidence
      (String.intercalate "; " esc.reasons)
  else if context.eligibleAutoApprove cfg then
    decision .approve (esc.matched ++ [.lowRiskAutoApprove]) [] ["low_risk_auto_approve"] context.riskLevel
      evidence "Low-risk source/test/docs change within auto-approve limits."
  else
    decision cfg.defaultOutcome (esc.matched ++ [.defaultEscalation]) [] ["default_conservative"]
      (maxRisk context.riskLevel .medium) evidence "No explicit allow rule matched; default escalation."

/-- `_evaluate`. -/
def evaluateRules (engine : StaticPolicyEngine) (context : PolicyContext) : Except PyError PolicyDecision :=
  if !context.evaluation.passed then .ok (rejectEvaluation context)
  else if context.changedFiles.isEmpty || (strip context.proposal.patch).isEmpty then .ok (rejectEmpty context)
  else
    let hits := matchingPaths context.changedFiles engine.config.forbiddenPaths
    if !hits.isEmpty then .ok (rejectForbidden context hits)
    else do
      let findings ← analyzePatch context.proposal.patch
      let weakening := weakeningOf findings
      if !weakening.isEmpty then return rejectWeakening context weakening
      return engine.decideUnrejected context findings

/-- An error of the engine escalates. -/
def evaluate (engine : StaticPolicyEngine) (context : PolicyContext) : PolicyDecision :=
  match engine.evaluateRules context with
  | .ok d => d
  | .error e => engineFailureDecision e

end StaticPolicyEngine

end FailureOrchestrator
