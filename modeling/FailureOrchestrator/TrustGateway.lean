import FailureOrchestrator.Exec
import FailureOrchestrator.TrustPolicy

namespace FailureOrchestrator

namespace TrustGateway

inductive GatewayState where
  | received
  | proposed
  | contextReady
  | policyEvaluated
  | approvalPending
  | denied
  | sandboxReady
  | executing
  | evaluating
  | verifying
  | retryableFailure
  | budgetExhausted
  | humanEscalation
  | success
  deriving DecidableEq

/-- The successors of a state. -/
def GatewayState.transitions : GatewayState → List GatewayState
  | received => [proposed]
  | proposed => [contextReady, humanEscalation]
  | contextReady => [policyEvaluated]
  | policyEvaluated => [approvalPending, budgetExhausted, denied, sandboxReady]
  | sandboxReady => [executing]
  | executing => [evaluating]
  | evaluating => [verifying, retryableFailure]
  | verifying => [success, retryableFailure]
  | retryableFailure => [proposed, budgetExhausted]
  | budgetExhausted => [humanEscalation]
  | approvalPending | denied | humanEscalation | success => []

structure GatewayStateMachine where
  state : GatewayState := .received
  history : List GatewayState := [.received]

/-- What ends a run with an exception. -/
inductive GatewayError where
  | invalidTransition (source target : GatewayState)
  | raised (e : TrustError)

structure RepairProposal (F : Type) where
  proposalId : Str
  problem : Str
  tool : Str
  operation : Str
  arguments : JsonDict F
  expectedEffect : Str
  riskLevel : Str
  rollback : Str
  verification : List (JsonDict F)
  provider : Str
  dataClassification : Option Str
  destinationHost : Option Str := none
  destructive : Bool := false
  packageName : Option Str := none
  estimatedCost : ℚ := 0
  reasonForRetry : Option Str := none
  changedAssumption : Option Str := none

structure ToolExecutionResult (F : Type) where
  commandSuccess : Bool
  changedFiles : List Str
  stdout : Str := []
  stderr : Str := []
  metadata : JsonDict F := ⟨[], JsonDict.nil_ordered⟩

/-- A `KeyError`, an `OSError` or a `ValueError` of the executor: the name of its class, and its text. -/
structure ExecutorFailure where
  typeName : Str
  text : Str

/-- What an executor raises: an exception that the gateway catches, or another one. -/
inductive ExecutorRaise where
  | caught (e : ExecutorFailure)
  | escapes (e : TrustError)

structure EvaluationResult where
  success : Bool
  score : ℚ
  checks : List (Str × Bool)
  failureReason : Option Str := none

theorem nothing_spent : (0 : ℚ) ≤ 0 := le_rfl

/-- A budget counts what it has granted. -/
structure RetryBudget where
  maxAttempts : Int := 3
  maxTotalCost : ℚ := 1
  maxWallTime : ℚ := 60
  attempts : Nat := 0
  totalCost : ℚ := 0
  startedAt : ℚ
  cost_nonneg : 0 ≤ totalCost := by exact nothing_spent

structure RemainingBudget where
  attempts : Int
  cost : ℚ
  wallTime : ℚ

namespace RetryBudget

def consume (b : RetryBudget) (cost now : ℚ) : Except TrustError (Bool × RetryBudget) :=
  if h : cost < 0 then .error (.valueError "estimated cost must be non-negative".toList)
  else if b.maxAttempts ≤ b.attempts ∨ b.maxTotalCost < b.totalCost + cost then .ok (false, b)
  else if b.maxWallTime < now - b.startedAt then .ok (false, b)
  else
    .ok (true, { b with
      attempts := b.attempts + 1
      totalCost := b.totalCost + cost
      cost_nonneg := add_nonneg b.cost_nonneg (not_lt.mp h) })

/-- A granted attempt is paid for within the limits. -/
theorem consume_ok {b b' : RetryBudget} {cost now : ℚ} {paid : Bool} (h : b.consume cost now = .ok (paid, b')) :
    (paid = false ∧ b' = b) ∨
      (paid = true ∧ b'.maxAttempts = b.maxAttempts ∧ b'.maxTotalCost = b.maxTotalCost ∧
        b'.attempts = b.attempts + 1 ∧ b'.totalCost = b.totalCost + cost ∧
        (b'.attempts : Int) ≤ b.maxAttempts ∧ b'.totalCost ≤ b.maxTotalCost) := by
  unfold consume at h
  split at h
  next => cases h
  next hcost =>
    split at h
    next =>
      cases h
      exact .inl ⟨rfl, rfl⟩
    next hlimits =>
      split at h
      next =>
        cases h
        exact .inl ⟨rfl, rfl⟩
      next =>
        cases h
        obtain ⟨hattempts, htotal⟩ := not_or.mp hlimits
        refine .inr ⟨rfl, rfl, rfl, rfl, rfl, ?_, not_lt.mp htotal⟩
        show ((b.attempts + 1 : Nat) : Int) ≤ b.maxAttempts
        omega

theorem consume_error {b : RetryBudget} {cost now : ℚ} {e : TrustError} (h : b.consume cost now = .error e) : cost < 0 := by
  unfold consume at h
  split at h
  next hcost => exact hcost
  next =>
    split at h
    next => cases h
    next => split at h <;> cases h

theorem consume_nonneg {b : RetryBudget} {cost now : ℚ} {r : Bool × RetryBudget} (h : b.consume cost now = .ok r) :
    0 ≤ cost := by
  unfold consume at h
  split at h
  next => cases h
  next hcost => exact not_lt.mp hcost

def remaining (b : RetryBudget) (now : ℚ) : RemainingBudget where
  attempts := max (b.maxAttempts - b.attempts) 0
  cost := max (b.maxTotalCost - b.totalCost) 0
  wallTime := max (b.maxWallTime - (now - b.startedAt)) 0

/-- The proposals that the budget can still let through. -/
def rounds (b : RetryBudget) : Nat := (b.maxAttempts - b.attempts).toNat

end RetryBudget

structure AttemptRecord (F : Type) where
  attemptNumber : Nat
  proposal : RepairProposal F
  reasonForRetry : Option Str
  changedAssumption : Option Str
  policy : Option PolicyResult
  evaluation : EvaluationResult
  verification : Option EvaluationResult
  remainingBudget : RemainingBudget

structure Escalation (F : Type) where
  reason : Str
  proposedAction : RepairProposal F
  policyDecision : Option PolicyResult
  attempts : List (AttemptRecord F)
  evidence : List String := ["correlated append-only audit trail"]
  recommendedNextActions : List String := ["Review the failed checks and changed assumption",
    "Approve a materially different bounded proposal or stop the workflow"]
  approvalEffect : String := "Approval permits only the identified proposal to enter sandbox execution; " ++
    "verification remains mandatory."

inductive GatewayStatus where
  | verifiedSuccess
  | denied
  | approvalRequired
  | humanReviewRequired
  deriving DecidableEq

structure GatewayResult (F : Type) where
  status : GatewayStatus
  correlationId : Str
  policyDecision : Option PolicyResult
  attempts : List (AttemptRecord F)
  stateHistory : List GatewayState
  escalation : Option (Escalation F)

/-- An event of the audit log. -/
inductive GatewayEvent (F : Type) where
  | requestReceived
  | llmProposal (proposal : RepairProposal F)
  | humanEscalation (packet : Escalation F)
  | contextCreated (context : TrustContext F)
  | networkProbe (capabilities : JsonDict F)
  | policyDecision (result : PolicyResult)
  | approvalRequested (proposalId : Str) (policy : PolicyResult)
  | approvalReceived (proposalId : Str)
  | retryBudgetExhausted (remaining : RemainingBudget)
  | sandboxExecution (execution : ToolExecutionResult F)
  | evaluationResult (evaluation : EvaluationResult)
  | verificationResult (verification : EvaluationResult)
  | workflowCompleted
  | retryScheduled (attemptNumber : Nat) (failureReason : Option Str) (remaining : RemainingBudget)

/-- What a run does outside, in order: it appends to the audit log, and calls the executor with the `n`-th proposal. -/
inductive GatewayAct (F : Type) where
  | event (e : GatewayEvent F)
  | execute (n : Nat) (proposal : RepairProposal F)

/-- The collaborators of a gateway. Whatever depends on the moment of a call sees which proposal it is about, and what appending
an event raises depends on what the run has done before. -/
structure Gateway (F : Type) where
  sha256 : Str → Str
  proposals : Nat → RepairProposal F
  contextBuilder : TrustContextBuilder F
  policy : Nat → TrustContext F → Except TrustError PolicyResult
  clock : Nat → Nat → ℚ
  sandbox : Nat → Except TrustError Unit
  removal : Nat → Except TrustError Unit
  audit : List (GatewayAct F) → GatewayEvent F → Option TrustError
  executor : Nat → RepairProposal F → Except ExecutorRaise (ToolExecutionResult F)
  evaluator : Nat → RepairProposal F → ToolExecutionResult F → EvaluationResult
  verifier : Nat → RepairProposal F → EvaluationResult

/-- The budget and the place in the stream, which runs share, the locals of a run, and what it has done. -/
structure GatewayRun (F : Type) where
  budget : RetryBudget
  requested : Nat
  correlationId : Str
  machine : GatewayStateMachine := {}
  attempts : List (AttemptRecord F) := []
  fingerprints : List Str := []
  previousEvaluation : Option EvaluationResult := none
  lastPolicy : Option PolicyResult := none
  log : List (GatewayAct F) := []

section Model

variable {F : Type} [PyFloat F] [UnicodeCase]

/-- The fingerprint of the action; `none` is the `ValueError` of an integer that is too long to be written. -/
def RepairProposal.fingerprint (sha256 : Str → Str) (p : RepairProposal F) : Option Str :=
  (JsonValue.dumps plainStyle (.obj [("arguments".toList, .obj p.arguments.entries),
    ("operation".toList, .str p.operation), ("tool".toList, .str p.tool)])).map sha256

def RepairProposal.contextRequest (p : RepairProposal F) (humanApproved : Bool) : ContextRequest where
  provider := p.provider
  tool := p.tool
  operation := p.operation
  dataClassification := p.dataClassification
  destinationHost := p.destinationHost
  destructive := p.destructive
  packageName := p.packageName
  humanApproved := humanApproved

/-- `not proposal.reason_for_retry or not proposal.changed_assumption`. -/
def RepairProposal.lacksRationale (p : RepairProposal F) : Bool :=
  p.reasonForRetry.getD [] = [] || p.changedAssumption.getD [] = []

namespace GatewayRun

def move (w : GatewayRun F) (target : GatewayState) : GatewayRun F :=
  { w with machine := ⟨target, w.machine.history ++ [target]⟩ }

def record (w : GatewayRun F) (e : GatewayEvent F) : GatewayRun F := { w with log := w.log ++ [.event e] }

def escalation (w : GatewayRun F) (reason : Str) (p : RepairProposal F) : Escalation F where
  reason
  proposedAction := p
  policyDecision := w.lastPolicy
  attempts := w.attempts

def result (w : GatewayRun F) (status : GatewayStatus) (packet : Option (Escalation F)) : GatewayResult F where
  status
  correlationId := w.correlationId
  policyDecision := w.lastPolicy
  attempts := w.attempts
  stateHistory := w.machine.history
  escalation := packet

end GatewayRun

abbrev GatewayExec (F α : Type) := Exec (GatewayRun F) GatewayError α

/-- The result of a step that ends the run; `none` goes on. -/
abbrev Ending (F : Type) := Option (GatewayResult F)

open Exec

def moveTo (target : GatewayState) : GatewayExec F Unit := fun w =>
  if target ∈ w.machine.state.transitions then (.ok (), w.move target)
  else (.error (.invalidTransition w.machine.state target), w)

def event (g : Gateway F) (e : GatewayEvent F) : GatewayExec F Unit := fun w =>
  match g.audit w.log e with
  | none => (.ok (), w.record e)
  | some error => (.error (.raised error), w)

def outside {α : Type} (r : Except TrustError α) : GatewayExec F α :=
  Exec.lift (r.mapError GatewayError.raised)

def finish (status : GatewayStatus) : GatewayExec F (Ending F) := do return some ((← Exec.read).result status none)

/-- The run ends with a packet for a human. -/
def escalate (g : Gateway F) (reason : Str) (p : RepairProposal F) : GatewayExec F (Ending F) := do
  let packet := (← Exec.read).escalation reason p
  event g (.humanEscalation packet)
  return some ((← Exec.read).result .humanReviewRequired (some packet))

/-- The run goes on unless a step has ended it. -/
def andThen (x y : GatewayExec F (Ending F)) : GatewayExec F (Ending F) := do
  match ← x with
  | some result => return some result
  | none => y

/-- A retry names its reason, and no action is proposed twice in a run. -/
def screen (g : Gateway F) (attemptNumber : Nat) (p : RepairProposal F) : GatewayExec F (Ending F) := do
  if attemptNumber > 1 ∧ p.lacksRationale = true then
    moveTo .humanEscalation
    escalate g "retry proposal lacks failure rationale or changed assumption".toList p
  else
    match p.fingerprint g.sha256 with
    | none => Exec.raise (.raised (TrustError.valueError ("Exceeds the limit (4300 digits) for integer string conversion; ".toList ++
      "use sys.set_int_max_str_digits() to increase the limit".toList)))
    | some fingerprint =>
      if fingerprint ∈ (← Exec.read).fingerprints then
        moveTo .humanEscalation
        escalate g "identical failing action proposed without new evidence".toList p
      else
        Exec.update fun w => { w with fingerprints := w.fingerprints ++ [fingerprint] }
        return none

/-- The policy decides on the proposal. -/
def authorize (g : Gateway F) (humanApproved : Bool) (n : Nat) (p : RepairProposal F) : GatewayExec F (Ending F) := do
  let context ← outside (g.contextBuilder.build n (p.contextRequest humanApproved))
  moveTo .contextReady
  event g (.contextCreated context)
  event g (.networkProbe context.networkCapabilities)
  let policy ← outside (g.policy n context)
  Exec.update fun w => { w with lastPolicy := some policy }
  moveTo .policyEvaluated
  event g (.policyDecision policy)
  match policy.decision with
  | .deny =>
    moveTo .denied
    finish .denied
  | .requireApproval =>
    moveTo .approvalPending
    event g (.approvalRequested p.proposalId policy)
    finish .approvalRequired
  | .allow =>
    if humanApproved = true ∧ endsWith policy.ruleId "_APPROVED".toList = true then
      event g (.approvalReceived p.proposalId)
    return none

/-- The budget pays for the attempt. -/
def spend (g : Gateway F) (n : Nat) (p : RepairProposal F) : GatewayExec F (Ending F) := do
  let (paid, budget) ← outside ((← Exec.read).budget.consume p.estimatedCost (g.clock n 0))
  Exec.update fun w => { w with budget }
  if paid then return none
  moveTo .budgetExhausted
  moveTo .humanEscalation
  let packet := (← Exec.read).escalation "retry budget exhausted before execution".toList p
  event g (.retryBudgetExhausted (budget.remaining (g.clock n 1)))
  event g (.humanEscalation packet)
  return some ((← Exec.read).result .humanReviewRequired (some packet))

/-- The result of the executor, also of one that raised what the gateway catches. -/
def Gateway.execution (g : Gateway F) (n : Nat) (p : RepairProposal F) : Except TrustError (ToolExecutionResult F) :=
  match g.executor n p with
  | .ok execution => .ok execution
  | .error (.caught e) =>
    .ok { commandSuccess := false, changedFiles := [], stderr := e.typeName ++ ": ".toList ++ e.text }
  | .error (.escapes e) => .error e

def record (g : Gateway F) (n attemptNumber : Nat) (p : RepairProposal F) (evaluation : EvaluationResult)
    (verification : Option EvaluationResult) : GatewayExec F Unit :=
  Exec.update fun w =>
    { w with attempts := w.attempts ++ [⟨attemptNumber, p, p.reasonForRetry, p.changedAssumption, w.lastPolicy,
        evaluation, verification, w.budget.remaining (g.clock n 1)⟩] }

/-- The attempt has failed. -/
def fail (g : Gateway F) (n attemptNumber : Nat) (p : RepairProposal F) (evaluation : EvaluationResult)
    (verification : Option EvaluationResult) : GatewayExec F (Ending F) := do
  Exec.update fun w => { w with previousEvaluation := some (verification.getD evaluation) }
  moveTo .retryableFailure
  record g n attemptNumber p evaluation verification
  return none

/-- The executor is called, and its result judged. -/
def attempt (g : Gateway F) (n attemptNumber : Nat) (p : RepairProposal F) : GatewayExec F (Ending F) := do
  moveTo .executing
  Exec.update fun w => { w with log := w.log ++ [.execute n p] }
  let execution ← outside (g.execution n p)
  event g (.sandboxExecution execution)
  moveTo .evaluating
  let evaluation := g.evaluator n p execution
  event g (.evaluationResult evaluation)
  if evaluation.success then
    moveTo .verifying
    let verification := g.verifier n p
    event g (.verificationResult verification)
    if verification.success then
      moveTo .success
      record g n attemptNumber p evaluation (some verification)
      event g .workflowCompleted
      finish .verifiedSuccess
    else fail g n attemptNumber p evaluation (some verification)
  else fail g n attemptNumber p evaluation none

/-- The attempt in the sandbox, which is removed however the attempt ends. -/
def perform (g : Gateway F) (n attemptNumber : Nat) (p : RepairProposal F) : GatewayExec F (Ending F) := do
  moveTo .sandboxReady
  outside (g.sandbox n)
  Exec.always (attempt g n attemptNumber p) (outside (g.removal n))

/-- The next attempt, unless this one was the last. -/
def reschedule (g : Gateway F) (n attemptNumber : Nat) (p : RepairProposal F) : GatewayExec F (Ending F) := do
  let w ← Exec.read
  let failure := w.previousEvaluation.bind (·.failureReason)
  if w.budget.maxAttempts ≤ w.budget.attempts then
    moveTo .budgetExhausted
    moveTo .humanEscalation
    let packet := (← Exec.read).escalation
      (match failure with
        | none | some [] => "verification failed".toList
        | some reason => reason) p
    event g (.retryBudgetExhausted (w.budget.remaining (g.clock n 2)))
    event g (.humanEscalation packet)
    return some ((← Exec.read).result .humanReviewRequired (some packet))
  else
    event g (.retryScheduled (attemptNumber + 1) failure (w.budget.remaining (g.clock n 2)))
    return none

/-- One pass of the loop. -/
def turn (g : Gateway F) (humanApproved : Bool) : GatewayExec F (Ending F) := do
  let w ← Exec.read
  let n := w.requested
  let attemptNumber := w.budget.attempts + 1
  let p := g.proposals n
  Exec.update fun w => { w with requested := n + 1 }
  moveTo .proposed
  event g (.llmProposal p)
  andThen (screen g attemptNumber p) <|
    andThen (authorize g humanApproved n p) <|
      andThen (spend g n p) <|
        andThen (perform g n attemptNumber p) <|
          reschedule g n attemptNumber p

/-- `fuel` passes of the loop; `none` has run out of them. -/
def loop (g : Gateway F) (humanApproved : Bool) : Nat → GatewayExec F (Ending F)
  | 0 => return none
  | fuel + 1 => andThen (turn g humanApproved) (loop g humanApproved fuel)

end Model

end TrustGateway

end FailureOrchestrator
