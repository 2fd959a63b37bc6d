import FailureOrchestrator.Journal

namespace FailureOrchestrator

open Exec

inductive RecoveryStatus where
  | resumable
  | terminal
  | requiresReview
  | inconsistent
  deriving DecidableEq, Repr

structure RecoveryDecision where
  status : RecoveryStatus
  runId : Str
  workflowStatus : Str
  message : Str
  lastSequence : Nat
  deriving DecidableEq, Repr

structure ConsistencyIssue where
  code : String
  message : Str
  deriving DecidableEq, Repr

def terminalStatuses : List Str :=
  [RunStatus.approved, .rejected, .awaitingHuman, .escalationError, .failed, .succeeded].map RunStatus.value ++
    ["PERSISTENCE_ERROR".toList]

def resumableStatuses : List Str :=
  [RunStatus.received, .contextReady, .classified, .planned, .proposalReady, .evaluated, .retryDecision, .retrying,
    .policyReview].map RunStatus.value

def unsafeStatuses : List Str :=
  [RunStatus.executing, .sandboxRunning, .evaluating, .escalationBuilding, .escalated].map RunStatus.value

def awaitingHumanHint : Str :=
  (" Use foundation-decide with an explicit reviewer action to " ++
    "leave AWAITING_HUMAN (APPROVE still does not mutate the primary workspace).").toList

/-- Classifies a run by its stored workflow status alone. -/
def assessRecovery (d : DurableRunState) : RecoveryDecision :=
  let decision := fun status message => ⟨status, d.runId, d.workflowStatus, message, d.lastEventSequence⟩
  if d.workflowStatus ∈ terminalStatuses then
    decision .terminal ("Automated execution is complete for this workflow status.".toList ++
      if d.workflowStatus = RunStatus.awaitingHuman.value then awaitingHumanHint else [])
  else if d.workflowStatus ∈ unsafeStatuses then
    decision .requiresReview "Interrupted during a side-effecting or ambiguous step; do not auto-resume.".toList
  else if d.workflowStatus ∈ resumableStatuses then
    decision .resumable "Safe to resume from last durable checkpoint (no automatic side effects).".toList
  else
    decision .requiresReview ("Unknown workflow status '".toList ++ d.workflowStatus ++ "' requires review.".toList)

/-- The first event out of sequence. -/
def sequenceGap : Nat → List AuditEvent → List ConsistencyIssue
  | _, [] => []
  | expected, e :: events =>
    if e.sequence = expected then sequenceGap (expected + 1) events
    else [⟨"SEQUENCE_GAP", "expected sequence ".toList ++ natStr expected ++ ", found ".toList ++ natStr e.sequence⟩]

def sequenceMismatch (d : DurableRunState) (events : List AuditEvent) : List ConsistencyIssue :=
  match events.getLast? with
  | none => []
  | some last =>
    if d.lastEventSequence ≠ 0 ∧ d.lastEventSequence ≠ last.sequence then
      [⟨"STATE_EVENT_SEQUENCE_MISMATCH", "state.last_event_sequence=".toList ++ natStr d.lastEventSequence ++
        " != last event sequence=".toList ++ natStr last.sequence⟩]
    else []

def RunStore.isFile (s : RunStore) (ref : Str) : Bool := s.files.any fun file => file.1 = ref

/-- `_check_ref`; an empty reference is no reference. -/
def checkRef (s : RunStore) (d : DurableRunState) (label : String) (field : RefField) : List ConsistencyIssue :=
  match d.ref field with
  | none | some [] => []
  | some ref => if s.isFile ref then [] else [⟨"MISSING_ARTIFACT", label.toList ++ " missing: ".toList ++ ref⟩]

def checkedRefs : List (String × RefField) :=
  [("failure_event", .failureEvent), ("classification", .classification), ("plan", .currentPlan),
    ("proposal", .currentProposal), ("evaluation", .latestEvaluation), ("policy", .latestPolicyDecision),
    ("retry", .latestRetryDecision), ("escalation", .escalation), ("reviewer_decision", .reviewerDecision)]

def missingEscalation (s : RunStore) (d : DurableRunState) : List ConsistencyIssue :=
  if d.workflowStatus = RunStatus.awaitingHuman.value ∧ s.isFile "escalation/summary.json".toList = false ∧
      (d.ref .escalation).getD [] = [] then
    [⟨"MISSING_ESCALATION", "AWAITING_HUMAN but escalation summary artifact missing".toList⟩]
  else []

def evaluatedStatuses : List Str :=
  [RunStatus.evaluated, .policyReview, .approved, .rejected, .awaitingHuman].map RunStatus.value

def missingEvaluation (d : DurableRunState) (events : List AuditEvent) : List ConsistencyIssue :=
  if d.workflowStatus ∈ evaluatedStatuses ∧ ∀ e ∈ events, e.eventType ≠ AuditEventType.evaluationCompleted.value then
    [⟨"MISSING_EVAL_EVENT", "state=".toList ++ d.workflowStatus ++ " but no EVALUATION_COMPLETED event".toList⟩]
  else []

/-- `verify_run_consistency` for a loaded state and a log of whole records, in which reading finds neither a corrupt record
nor a corrupt trailing one. -/
def verifyRunConsistency (s : RunStore) (d : DurableRunState) : List ConsistencyIssue :=
  sequenceGap 1 s.events ++ sequenceMismatch d s.events ++
    checkedRefs.flatMap (fun (label, field) => checkRef s d label field) ++
    missingEscalation s d ++ missingEvaluation d s.events

/-- `verify_run_consistency` where a failing append may have left something at the end of the log. -/
def LogEnd.verify (s : RunStore) (d : DurableRunState) : LogEnd → List ConsistencyIssue
  | .whole => verifyRunConsistency s d
  | .part =>
    ⟨"TRAILING_CORRUPT_EVENT", "events.jsonl has a malformed trailing record".toList⟩ :: verifyRunConsistency s d
  | .record event => verifyRunConsistency (s.apply (.append event)) d

def loadRun (s : RunStore) (runId : Str) : Except RunError DurableRunState :=
  s.state.elim (.error (.other "FileNotFoundError" ("run not found: ".toList ++ runId))) .ok

/-- The decision of `resume_run` on a loaded state. -/
def recoveryDecision (s : RunStore) (runId : Str) (d : DurableRunState) : RecoveryDecision :=
  match verifyRunConsistency s d with
  | [] => assessRecovery d
  | issues =>
    { status := .inconsistent
      runId
      workflowStatus := d.workflowStatus
      message := joinWith "; ".toList (issues.map (·.message))
      lastSequence := d.lastEventSequence }

/-- The marker of a resumed run: an audit event and its sequence number in the run state. -/
def markResumed (env : Env) (runId : Str) (d : DurableRunState) : Exec Journal RunError Unit := do
  let j ← read
  perform env (.append {
    eventId := env.newId "evt" j.trace.length
    runId
    sequence := (j.store env).latestSequence + 1
    eventType := AuditEventType.runResumed.value
    component := "persistence".toList
    stateBefore := some d.workflowStatus
    stateAfter := some d.workflowStatus })
  perform env (.saveRun { d with lastEventSequence := (j.store env).latestSequence + 1 })

/-- `resume_run` on the directory that a crash left. -/
def resumeRun (env : Env) (runId : Str) : Exec Journal RunError RecoveryDecision := do
  let j ← read
  let d ← lift (loadRun (j.store env) runId)
  let decision := recoveryDecision (j.store env) runId d
  when (decision.status = .resumable) (markResumed env runId d)
  return decision

theorem loadRun_state {s : RunStore} {runId : Str} {d : DurableRunState} (h : loadRun s runId = .ok d) :
    s.state = some d := by
  unfold loadRun at h
  cases hs : s.state with
  | none =>
    rw [hs] at h
    cases h
  | some stored =>
    rw [hs] at h
    exact congrArg some (Except.ok.inj h)

theorem resumeRun_decision {env : Env} {runId : Str} {decision : RecoveryDecision}
    (h : (resumeRun env runId {}).1 = .ok decision) :
    ∃ d, env.store.state = some d ∧ decision = recoveryDecision env.store runId d := by
  have htriple : Triple (fun j => j = {}) (resumeRun env runId)
      (fun decision _ => ∃ d, env.store.state = some d ∧ decision = recoveryDecision env.store runId d)
      (fun _ _ => True) := by
    apply Triple.read_bind
    rintro j rfl
    apply Triple.bind (Q := fun d _ => env.store.state = some d)
    · refine Triple.lift ?_ fun _ _ _ _ => trivial
      exact fun d hd _ _ => loadRun_state hd
    intro d
    apply Triple.bind (Q := fun _ _ => env.store.state = some d)
    · intro j hd
      exact Triple.of_forall (P := fun _ => True) (fun _ _ => hd) (fun _ _ => trivial) j trivial
    intro _
    exact Triple.ret fun _ hd => ⟨d, hd, rfl⟩
  exact htriple.ok rfl h

/-- A run is resumed only when its log and its state agree and its status is resumable. -/
theorem recoveryDecision_resumable {s : RunStore} {runId : Str} {d : DurableRunState}
    (h : (recoveryDecision s runId d).status = .resumable) :
    sequenceMismatch d s.events = [] ∧ d.workflowStatus ∈ resumableStatuses := by
  unfold recoveryDecision at h
  split at h
  next hnone =>
    refine ⟨?_, ?_⟩
    · unfold verifyRunConsistency at hnone
      simp only [List.append_eq_nil_iff] at hnone
      exact hnone.1.1.1.2
    · unfold assessRecovery at h
      split at h
      · cases h
      split at h
      · cases h
      split at h
      next hmem => exact hmem
      next => cases h
  next => cases h

theorem eq_sequence_of_sequenceMismatch {d : DurableRunState} {events : List AuditEvent} {last : AuditEvent}
    (h : sequenceMismatch d events = []) (hlast : events.getLast? = some last) (hd : d.lastEventSequence ≠ 0) :
    d.lastEventSequence = last.sequence := by
  unfold sequenceMismatch at h
  rw [hlast] at h
  by_contra hne
  simp [hd, hne] at h

end FailureOrchestrator
