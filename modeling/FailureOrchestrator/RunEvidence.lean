import FailureOrchestrator.RunModel
import FailureOrchestrator.Sanitization

namespace FailureOrchestrator

/-! The JSON documents that a run stores as evidence. -/

def strings (xs : List String) : Json := .arr (xs.map .text)

def eventDocument (e : FailureEvent) : Json :=
  .obj [("event_id", .str e.eventId), ("run_id", .str e.runId), ("source", .str e.source),
    ("workflow", .str e.workflow), ("job", .str e.job), ("failed_step", .str e.failedStep),
    ("message", .str e.message), ("repository", .str e.repository), ("commit_sha", .str e.commitSha),
    ("branch", .str e.branch), ("exit_code", e.exitCode.elim .null fun n => .num n),
    ("changed_paths", .texts e.changedPaths), ("log_excerpt", .str e.logExcerpt), ("raw_log_ref", .str e.rawLogRef)]

def classificationDocument (c : FailureClassification) : Json :=
  .obj [("run_id", .str c.runId), ("category", .text c.category), ("confidence", .num c.confidence),
    ("uncertainty", .text c.uncertainty), ("evidence", strings c.evidence)]

def planDocument (p : RepairPlan) : Json :=
  .obj [("run_id", .str p.runId), ("goal", .str p.goal), ("assumptions", .texts p.assumptions),
    ("required_tools", .texts p.requiredTools), ("risk_level", .str p.riskLevel),
    ("verification_steps", .texts p.verificationSteps)]

def toolDocument (tool : String) (r : ToolResult) : Json :=
  .obj [("tool", .text tool), ("success", .bool r.success), ("exit_code", .num r.exitCode),
    ("stdout", .str (r.stdout.take 2000)), ("stderr", .str (r.stderr.take 1000))]

def proposalDocument (p : RepairProposal) : Json :=
  .obj [("proposal_id", .str p.proposalId), ("files_changed", .texts p.filesChanged),
    ("rationale", .str p.rationale), ("expected_effect", .str p.expectedEffect)]

def sandboxDocument (s : SandboxResult) : Json :=
  .obj [("run_id", .str s.runId), ("proposal_id", .str s.proposalId), ("success", .bool s.success),
    ("patch_applied", .bool s.patchApplied), ("timeout", .bool s.timeout), ("error", .optText s.error),
    ("changed_files", .texts s.changedFiles)]

def evaluationDocument (e : EvaluationResult) : Json :=
  .obj [("run_id", .str e.runId), ("passed", .bool e.passed), ("patch_applied", .bool e.patchApplied),
    ("target_verification_passed", .bool e.targetVerificationPassed),
    ("forbidden_changes_detected", .bool e.forbiddenChangesDetected),
    ("checks", .arr (e.checks.map fun c =>
      .obj [("name", .str c.name), ("status", .text c.status.value), ("detail", .str c.detail)]))]

def attemptDocument (a : AttemptRecord) : Json :=
  .obj [("attempt_number", .nat a.attemptNumber), ("proposal_id", .str a.proposalId),
    ("proposal_fingerprint", .str a.proposalFingerprint), ("failure_fingerprint", .str a.failureFingerprint),
    ("evaluation_passed", .bool a.evaluationPassed), ("disposition", .text a.disposition.value),
    ("summary", .str a.summary)]

def retryDocument (d : RetryDecision) : Json :=
  .obj [("should_retry", .bool d.shouldRetry), ("reason", .text d.reason.value), ("next_attempt", .nat d.nextAttempt),
    ("budget_remaining", .num d.budgetRemaining), ("progress_detected", .bool d.progressDetected),
    ("evidence", .texts d.evidence)]

def policyDocument (d : PolicyDecision) : Json :=
  .obj [("outcome", .text d.outcome.value), ("policy_version", .text d.policyVersion), ("reasons", strings d.reasons),
    ("matched_rules", strings (d.matchedRules.map (·.id))), ("risk_level", .text d.riskLevel.value),
    ("evidence", strings d.evidence),
    ("violations", .arr (d.violations.map fun v =>
      .obj [("rule_id", .text v.rule.id), ("severity", .text v.severity), ("message", .text v.message),
        ("evidence", strings v.evidence)]))]

def PolicyDecision.explain (d : PolicyDecision) : String :=
  if d.explanation ≠ "" then d.explanation
  else
    "Policy Decision: " ++ d.outcome.value ++ "\n\nMatched rules:\n" ++
    bulletLines (d.matchedRules.map (·.id)) ++ "\n\nEvidence:\n" ++ bulletLines d.evidence ++
    "\n\nReason:\n" ++ bulletLines d.reasons ++
    if d.violations.isEmpty then ""
    else "\n\nViolations:\n" ++ bulletLines (d.violations.map fun v => v.rule.id ++ ": " ++ v.message)

/-- The first matched rule, or a fallback text, as the reason of a transition. -/
def PolicyDecision.leadRule (d : PolicyDecision) (fallback : String) : Str :=
  (d.matchedRules.head?.elim fallback (·.id)).toList

def attemptTrace (a : AttemptRecord) (passed : Bool) : Str :=
  "Attempt ".toList ++ natStr a.attemptNumber ++ "\nResult: ".toList ++ (if passed then "PASS" else "FAIL").toList ++
  "\nProposal fp: ".toList ++ a.proposalFingerprint.take 12 ++ "\nFailure fp: ".toList ++
  a.failureFingerprint.take 12 ++ "\nProgress: ".toList ++ boolStr a.improved

def decisionTrace (d : RetryDecision) : Str :=
  "Retry decision:\n".toList ++ (if d.shouldRetry then "RETRY" else "STOP").toList ++ "\nWhy: ".toList ++
  d.reason.value.toList ++ ['\n'] ++
  joinWith ['\n'] ((d.evidence.filter fun e => !e.isEmpty).map fun e => "- ".toList ++ e)

/-- `args[key] = value`. -/
def setArg (key : String) (value : Json) : List (String × Json) → List (String × Json)
  | [] => [(key, value)]
  | (k, v) :: rest => if k = key then (k, value) :: rest else (k, v) :: setArg key value rest

/-- `not args.get(key)`. -/
def lacksArg (key : String) (args : List (String × Json)) : Bool := !((args.lookup key).elim false Json.truthy)

def firstNonEmpty (a b : Str) : Str := if a.isEmpty then b else a

/-- The arguments of a step: the log and the path are filled in, and a test run can be forced to fail. -/
def toolArgs (step : PlanStep) (event : FailureEvent) (context : FailureContext) (forceFail : Bool) :
    List (String × Json) :=
  let args := step.inputs
  let args := if step.tool = "log_reader" ∧ lacksArg "excerpt" args then
    setArg "excerpt" (.str (firstNonEmpty event.logExcerpt event.message)) args else args
  let args := match context.changedPaths with
    | path :: _ => if step.tool = "file_reader" ∧ lacksArg "path" args then setArg "path" (.str path) args else args
    | [] => args
  if step.tool = "test_runner" ∧ forceFail then setArg "force_fail" (.bool true) args else args

/-- `FailureEvent.from_dict(event.to_dict(), run_id=run_id)`. -/
def FailureEvent.received (event : FailureEvent) (runId eventId : Str) : FailureEvent :=
  { event with
    runId
    eventId := firstNonEmpty event.eventId eventId
    source := firstNonEmpty event.source "fixture".toList
    workflow := firstNonEmpty event.workflow "ci".toList
    job := firstNonEmpty event.job "test".toList
    failedStep := firstNonEmpty event.failedStep "unknown".toList }

variable [UnicodeData]

/-- `sanitize_text_bounded`. -/
def boundedText (text : Str) (maxChars : Nat) : Str :=
  let cleaned := (sanitizeText text).1
  if maxChars < cleaned.length then cleaned.take (maxChars - 24) ++ "\n...[truncated]".toList else cleaned

def maxMetadataChars : Nat := 8000

/-- The cleaned text is cut. -/
def truncated (text : Str) : Bool := maxMetadataChars < (sanitizeText text).1.length

mutual

/-- `sanitize_value` of a JSON value; a list keeps the tuple that stands for a cut text. -/
def sanitizeValue : Json → Json
  | .str s => .str (boundedText s maxMetadataChars)
  | .arr items => .arr (sanitizeItems items)
  | .obj entries => .obj (sanitizeEntries entries [])
  | v => v

def sanitizeItems : List Json → List Json
  | [] => []
  | .str s :: items =>
    (if truncated s then
      .arr [.str (boundedText s maxMetadataChars), .bool true, .nat s.length, .nat maxMetadataChars]
    else .str (boundedText s maxMetadataChars)) :: sanitizeItems items
  | v :: items => sanitizeValue v :: sanitizeItems items

/-- The entries set so far are kept; a cut text is followed by an entry that says so. -/
def sanitizeEntries : List (String × Json) → List (String × Json) → List (String × Json)
  | [], out => out
  | (key, .str s) :: entries, out =>
    let out := setArg key (.str (boundedText s maxMetadataChars)) out
    sanitizeEntries entries (if truncated s then
      setArg (key ++ "__truncation") (.obj [("truncated", .bool true), ("original_length", .nat s.length),
        ("stored_length", .nat maxMetadataChars)]) out
    else out)
  | (key, v) :: entries, out => sanitizeEntries entries (setArg key (sanitizeValue v) out)

end

end FailureOrchestrator
