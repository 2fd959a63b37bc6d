import FailureOrchestrator.RunEvidence

namespace FailureOrchestrator

open Exec RunPersistence

namespace Foundation

variable [UnicodeData] (f : Foundation) (env : Env)

/-- `if journal is not None`. -/
def journaled (x : Exec Journal RunError Unit) : Run Unit := when f.persistence (onJournal x)

/-- `_audit` with the statuses before and after, where they are given. -/
def audit (eventType : AuditEventType) (before after : Option RunStatus) (refs : List DurableEvidenceRef := []) :
    Run Unit :=
  f.journaled (emit env eventType (before.map RunStatus.value) (after.map RunStatus.value) refs)

def targetShouldFail (attemptNumber : Nat) : Except RunError Bool :=
  match f.targetPassSchedule with
  | none => .ok f.forceTargetFail
  | some [] => .error (.other "IndexError" "list index out of range".toList)
  | some (pass :: rest) => .ok !((pass :: rest).getD (min (attemptNumber - 1) rest.length) pass)

/-- A document, the checkpoint that refers to it, and the event of the stage. -/
def record (kind : String) (document : Json) (name : Str) (field : RefField) (eventType : AuditEventType)
    (before : Option RunStatus) (after : RunStatus) : Exec Journal RunError Unit := do
  let ref ← writeJson env kind document name
  checkpoint env { workflowStatus := some after.value, refs := [(field, ref.ref)] }
  emit env eventType (before.map RunStatus.value) (some after.value) [ref]

def buildContextStage (n : Nat) (event : FailureEvent) : Run FailureContext := do
  let w ← read
  let context ← lift (f.buildContext n event
    (retryHistorySummaries w.attempts f.retryBudget.maxRetryHistoryEntries))
  when (n = 1) (do
    moveTo .contextReady "context_built".toList
    f.audit env .contextBuilt (some w.machine.status) (some .contextReady))
  modifyState fun s => { s with context := some context }
  return context

/-- `_resolve_classification` and the evidence of the first attempt. -/
def classifyStage (n : Nat) (event : FailureEvent) : Run FailureClassification := do
  let w ← read
  let classification ← lift (w.state.classification.elim (f.classify event) .ok)
  when (n = 1) (moveTo .classified classification.category.toList)
  modifyState fun s => { s with classification := some classification }
  when (n = 1) (f.journaled (record env "classification" (classificationDocument classification)
    "classification.json".toList .classification .failureClassified none .classified))
  return classification

def startAttempt (n : Nat) : Run Unit := do
  let w ← read
  f.journaled (do
    emit env .attemptStarted none none
    checkpoint env { currentAttempt := some n, workflowStatus := some w.machine.status.value })

def retryContext (n : Nat) (w : World) : Option RetryContext :=
  if 1 < n then
    some {
      attemptNumber := n
      priorAttempts := w.attempts
      failedApproaches := (w.attempts.filter fun a => !a.evaluationPassed).map fun a => a.planGoal.take 120
      latestEvaluation := w.state.evaluation
      budget := f.retryBudget }
  else none

/-- A retry replans from RETRYING; from any other status nothing moves. -/
def enterPlanned (n : Nat) (status : RunStatus) : Run Unit :=
  if n = 1 then moveTo .planned "plan_created".toList
  else when (status = .retrying) (moveTo .planned "replan".toList)

def planStage (n : Nat) (context : FailureContext) (classification : FailureClassification) : Run RepairPlan := do
  let w ← read
  let plan ← lift (f.plan n context classification (f.retryContext n w))
  enterPlanned n w.machine.status
  modifyState fun s => { s with plan := some plan }
  let w' ← read
  f.journaled (record env "plan" (planDocument plan) (numbered "plan" n ".json") .currentPlan .planCreated
    (some w.machine.status) w'.machine.status)
  return plan

def toolStep (n index : Nat) (event : FailureEvent) (context : FailureContext) (step : PlanStep) : Run Unit := do
  let forceFail ← lift (if step.tool = "test_runner" then f.targetShouldFail n else .ok false)
  f.audit env .toolCalled none none
  let (call, result) ← lift (f.invoke n index event.runId step.tool (toolArgs step event context forceFail))
  update fun w => { w with
    toolsUsed := w.toolsUsed ++ [step.tool]
    toolRisks := w.toolRisks ++ [call.riskLevel] }
  f.journaled (do
    let ref ← writeJson env "tool" (toolDocument step.tool result)
      (numbered "tool" n "-" ++ step.tool.toList ++ ".json".toList)
    emit env .toolCompleted none none [ref])

def toolSteps (n : Nat) (event : FailureEvent) (context : FailureContext) : Nat → List PlanStep → Run Unit
  | _, [] => pure ()
  | index, step :: rest => do
    f.toolStep env n index event context step
    toolSteps n event context (index + 1) rest

def proposeStage (n : Nat) (event : FailureEvent) (context : FailureContext) (plan : RepairPlan)
    (classification : FailureClassification) : Run RepairProposal := do
  let paths := if context.changedPaths.isEmpty then ["src/module.py".toList] else context.changedPaths
  let proposal ← lift (f.propose n event.runId plan classification paths f.forceForbiddenPath)
  update fun w => { w with proposals := w.proposals ++ [proposal] }
  let w ← read
  moveTo .proposalReady "proposal_created".toList
  modifyState fun s => { s with proposal := some proposal }
  f.journaled (do
    let ref ← writeJson env "proposal" (proposalDocument proposal) (numbered "proposal" n ".json")
    let patchRef ← writeText env "patch" proposal.patch (numbered "proposal" n ".patch") f.maxPatchChars
    checkpoint env { workflowStatus := some RunStatus.proposalReady.value, refs := [(.currentProposal, ref.ref)] }
    emit env .proposalCreated (some w.machine.status.value) (some RunStatus.proposalReady.value) [ref, patchRef])
  return proposal

def sandboxStage (n : Nat) (plan : RepairPlan) (proposal : RepairProposal) : Run SandboxResult := do
  let w ← read
  moveTo .sandboxRunning "sandbox".toList
  f.audit env .sandboxStarted (some w.machine.status) (some .sandboxRunning)
  let targetFails ← lift (f.targetShouldFail n)
  let sandbox ← lift (f.execute n proposal plan.verificationSteps (!targetFails))
  modifyState fun s => { s with sandbox := some sandbox }
  f.journaled (do
    let ref ← writeJson env "sandbox" (sandboxDocument sandbox) (numbered "sandbox" n ".json")
    emit env .sandboxCompleted none none [ref])
  return sandbox

def evaluateStage (n : Nat) (proposal : RepairProposal) (sandbox : SandboxResult) : Run EvaluationResult := do
  moveTo .evaluating "evaluate".toList
  let evaluation ← lift (f.evaluate n proposal sandbox)
  moveTo .evaluated "evaluated".toList
  modifyState fun s => { s with evaluation := some evaluation }
  f.journaled (record env "evaluation" (evaluationDocument evaluation) (numbered "evaluation" n ".json")
    .latestEvaluation .evaluationCompleted (some .evaluating) .evaluated)
  return evaluation

/-- Records the attempt against the previous one. -/
def recordStage (n : Nat) (event : FailureEvent) (classification : FailureClassification) (plan : RepairPlan)
    (proposal : RepairProposal) (sandbox : SandboxResult) (evaluation : EvaluationResult) : Run Unit := do
  let w ← read
  let attempt := buildAttemptRecord f.sha256 n plan.goal proposal evaluation sandbox event classification
    w.attempts.getLast?
  update fun w => { w with
    attempts := w.attempts ++ [attempt]
    state := { w.state with attempts := w.attempts ++ [attempt] } }
  f.journaled (do
    let _ ← writeJson env "attempt" (attemptDocument attempt) (numbered "attempt" n ".json"))
  modifyState fun s => { s with retryTrace := s.retryTrace ++ [attemptTrace attempt evaluation.passed] }

end Foundation

end FailureOrchestrator
