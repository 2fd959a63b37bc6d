import FailureOrchestrator.Journal
import FailureOrchestrator.PolicyEngine
import FailureOrchestrator.Retry

namespace FailureOrchestrator

open Exec

/-- The review package of an escalated proposal: its identifier and `to_dict()`. -/
structure HumanEscalation where
  escalationId : Str
  document : Json

structure EscalationArtifacts where
  root : Str
  summaryJson : Str
  summaryMd : Str
  evidenceIndex : Str
  proposedPatch : Str
  evaluationSummary : Str

/-- What a retried attempt tells the planner. -/
structure RetryContext where
  attemptNumber : Nat
  priorAttempts : List AttemptRecord
  failedApproaches : List Str
  latestEvaluation : Option EvaluationResult
  budget : RetryBudget

/-- `AgentExecutionFoundation`: its configuration and its collaborators. What a collaborator answers or raises may
depend on the attempt, so that one with a memory of earlier calls is covered. -/
structure Foundation where
  retryBudget : RetryBudget := {}
  persistence : Bool := true
  policyConfig : PolicyConfig := {}
  forceTargetFail : Bool := false
  forceForbiddenPath : Bool := false
  targetPassSchedule : Option (List Bool) := none
  maxPatchChars : Nat := 50000
  sha256 : Str → Str
  buildContext : Nat → FailureEvent → List Str → Except RunError FailureContext
  classify : FailureEvent → Except RunError FailureClassification
  plan : Nat → FailureContext → FailureClassification → Option RetryContext → Except RunError RepairPlan
  invoke : Nat → Nat → Str → String → List (String × Json) → Except RunError (ToolCall × ToolResult)
  propose : Nat → Str → RepairPlan → FailureClassification → List Str → Bool → Except RunError RepairProposal
  execute : Nat → RepairProposal → List Str → Bool → Except RunError SandboxResult
  evaluate : Nat → RepairProposal → SandboxResult → Except RunError EvaluationResult
  evaluatePolicy : PolicyContext → Except RunError PolicyDecision
  buildEscalation : PolicyDecision → RepairProposal → EvaluationResult → List AttemptRecord →
    FailureClassification → FailureEvent → PolicyContext → Except RunError HumanEscalation
  writeEscalation : HumanEscalation → RepairProposal → EvaluationResult → Except RunError EscalationArtifacts

/-- The in-memory state of a run. -/
structure RunState where
  runId : Str
  status : RunStatus := .received
  event : FailureEvent
  context : Option FailureContext := none
  classification : Option FailureClassification := none
  plan : Option RepairPlan := none
  proposal : Option RepairProposal := none
  sandbox : Option SandboxResult := none
  evaluation : Option EvaluationResult := none
  attempts : List AttemptRecord := []
  stopReason : Option Str := none
  lastRetryDecision : Option RetryDecision := none
  retryTrace : List Str := []
  technicalStatus : Option String := none
  policyDecision : Option PolicyDecision := none
  policyTrace : List Str := []
  escalation : Option HumanEscalation := none
  artifactRefs : List (String × Str) := []
  workflowStatus : Option Str := none

def RunState.attemptCount (s : RunState) : Nat := s.attempts.length

structure FoundationResult where
  run : RunState
  status : RunStatus
  attempts : Nat
  retries : Nat
  stopReason : RetryReason
  duplicateProposalCount : Nat
  duplicateFailureCount : Nat
  noProgressCount : Nat
  decisions : List RetryDecision
  technicalStatus : String
  policyDecision : Option PolicyDecision
  workflowStatus : Str
  escalation : Option HumanEscalation
  artifactRefs : List (String × Str)

def FoundationResult.policyOutcome (r : FoundationResult) : Option PolicyOutcome := r.policyDecision.map (·.outcome)

/-- Everything a run changes. `started` counts the attempts begun and `proposals` keeps what the proposal factory
returned; the run itself reads neither. -/
structure World where
  journal : Journal := {}
  machine : FoundationStateMachine := {}
  state : RunState
  attempts : List AttemptRecord := []
  decisions : List RetryDecision := []
  toolsUsed : List String := []
  toolRisks : List ToolRiskLevel := []
  started : Nat := 0
  proposals : List RepairProposal := []

abbrev Run := Exec World RunError

def onJournal {α : Type} (x : Exec Journal RunError α) : Run α :=
  zoom World.journal (fun j w => { w with journal := j }) x

def modifyState (g : RunState → RunState) : Run Unit := update fun w => { w with state := g w.state }

/-- `sm.transition(...)` followed by `state.status = sm.status`. -/
def moveTo (target : RunStatus) (reason : Str) : Run Unit := do
  let w ← read
  let machine ← lift (w.machine.transition target reason)
  update fun w => { w with machine, state := { w.state with status := machine.status } }

/-- `{n:03d}`. -/
def pad3 (n : Nat) : Str := List.replicate (3 - (natStr n).length) '0' ++ natStr n

/-- `f"{stem}-{n:03d}{suffix}"`. -/
def numbered (stem : String) (n : Nat) (suffix : String) : Str := stem.toList ++ ['-'] ++ pad3 n ++ suffix.toList

/-- The number of values that occur more than once. -/
def duplicateCount (xs : List Str) : Nat := (fromKeys xs).countP fun x => 1 < xs.count x

def EscalationArtifacts.shortRefs (a : EscalationArtifacts) : List (String × Str) :=
  [("root", a.root), ("summary_json", a.summaryJson), ("summary_md", a.summaryMd)]

def EscalationArtifacts.refs (a : EscalationArtifacts) : List (String × Str) :=
  a.shortRefs ++ [("evidence_index", a.evidenceIndex), ("proposed_patch", a.proposedPatch),
    ("evaluation_summary", a.evaluationSummary)]

/-- `_result`. Recording the run's metrics never raises and changes none of this. -/
def result (stopReason : RetryReason) (technicalStatus : String) (policyDecision : Option PolicyDecision := none)
    (escalation : Option HumanEscalation := none) (artifacts : Option EscalationArtifacts := none) :
    Run FoundationResult := do
  let w ← read
  return {
    run := w.state
    status := w.state.status
    attempts := w.attempts.length
    retries := w.attempts.length - 1
    stopReason
    duplicateProposalCount := duplicateCount (w.attempts.map (·.proposalFingerprint))
    duplicateFailureCount := duplicateCount (w.attempts.map (·.failureFingerprint))
    noProgressCount := w.attempts.countP fun a => a.progress.elim false fun p => !p.improved
    decisions := w.decisions
    technicalStatus
    policyDecision
    workflowStatus := match w.state.workflowStatus with
      | none | some [] => w.state.status.value
      | some status => status
    escalation := escalation.or w.state.escalation
    artifactRefs := match artifacts, w.state.artifactRefs with
      | some artifacts, [] => artifacts.shortRefs
      | _, refs => refs }

end FailureOrchestrator
