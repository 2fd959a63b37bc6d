import FailureOrchestrator.Recovery
import FailureOrchestrator.RunEvidence

namespace FailureOrchestrator

open Exec

/-- What reviewer decisions read off the interpreter: `str.upper`, the text of a value that is no string, and `json.loads`
of a file that was not written as JSON. -/
class PyReview extends UnicodeCase where
  str : Json → Str
  loads : Str → Except Str Json

inductive ReviewerAction where
  | approve
  | reject
  | requestChanges
  | defer
  deriving DecidableEq, Repr

def ReviewerAction.all : List ReviewerAction := [.approve, .reject, .requestChanges, .defer]

def ReviewerAction.name : ReviewerAction → String
  | .approve => "APPROVE"
  | .reject => "REJECT"
  | .requestChanges => "REQUEST_CHANGES"
  | .defer => "DEFER"

def ReviewerAction.value (a : ReviewerAction) : Str := a.name.toList

inductive HumanDecisionStatus where
  | applied
  | recorded
  | blocked
  | inconsistent
  deriving DecidableEq, Repr

structure HumanDecisionResult where
  status : HumanDecisionStatus
  runId : Str
  workflowStatusBefore : Str
  workflowStatusAfter : Str
  action : Str
  message : Str
  lastSequence : Nat := 0
  primaryWorkspaceMutated : Bool := false
  deriving DecidableEq, Repr

/-- The next status, the event of a terminal decision, the outcome and its message. -/
structure ReviewTransition where
  next : RunStatus
  event : Option AuditEventType
  outcome : HumanDecisionStatus
  message : String

def ReviewerAction.transition : ReviewerAction → ReviewTransition
  | .approve =>
    ⟨.approved, some .humanApproved, .applied,
      "Human APPROVE recorded; workflow APPROVED. Primary workspace was not mutated."⟩
  | .reject => ⟨.rejected, some .humanRejected, .applied, "Human REJECT recorded; workflow REJECTED."⟩
  | .requestChanges =>
    ⟨.awaitingHuman, none, .recorded,
      "Human REQUEST_CHANGES recorded; still AWAITING_HUMAN (no workflow terminal transition)."⟩
  | .defer =>
    ⟨.awaitingHuman, none, .recorded, "Human DEFER recorded; still AWAITING_HUMAN (no workflow terminal transition)."⟩

def ReviewerAction.stopReason : ReviewerAction → Option Str
  | .approve => some "human_approve".toList
  | .reject => some "human_reject".toList
  | .requestChanges | .defer => none

/-- The arguments of `apply_reviewer_decision`, and the time it stamps on the decision. -/
structure ReviewCall where
  runId : Str
  action : Str
  reviewerId : Str := []
  comment : Str := []
  escalationId : Option Str := none
  now : Str := []

def reviewerDecisionRef : DurableEvidenceRef :=
  { kind := "reviewer", ref := evidencePath "reviewer" "decision.json".toList }

section Summary

variable [PyReview]

def Json.typeName : Json → String
  | .null => "NoneType"
  | .bool _ => "bool"
  | .num q => if q.isInt then "int" else "float"
  | .str _ => "str"
  | .arr _ => "list"
  | .obj _ => "dict"

/-- `str(payload.get("escalation_id") or "")`. -/
def payloadId : Json → Except RunError Str
  | .obj entries =>
    match entries.lookup "escalation_id" with
    | some (.str s) => .ok s
    | some v => .ok (if v.truthy then PyReview.str v else [])
    | none => .ok []
  | v => .error (.other "AttributeError" ("'" ++ v.typeName ++ "' object has no attribute 'get'").toList)

/-- What `json.loads` reads from an evidence file. -/
def loadDocument : Document → Except Str Json
  | .json v => .ok (sanitizeValue v)
  | .text content maxChars => PyReview.loads (boundedText content maxChars)

end Summary

namespace ReviewCall

variable [PyReview] (c : ReviewCall)

/-- A result that leaves the run as it is. -/
def refuse (d : DurableRunState) (status : HumanDecisionStatus) (message : Str) : HumanDecisionResult :=
  { status
    runId := c.runId
    workflowStatusBefore := d.workflowStatus
    workflowStatusAfter := d.workflowStatus
    action := c.action
    message
    lastSequence := d.lastEventSequence }

def reviewed : Option ReviewerAction := ReviewerAction.all.find? fun a => a.value = UnicodeCase.upper (strip c.action)

/-- The checks on the loaded run state and what the consistency check found. -/
def judge (d : DurableRunState) (issues : List ConsistencyIssue) : Except HumanDecisionResult ReviewerAction :=
  match issues with
  | [] =>
    if d.workflowStatus ≠ RunStatus.awaitingHuman.value then
      .error (c.refuse d .blocked ("reviewer decisions require AWAITING_HUMAN, found ".toList ++ d.workflowStatus))
    else
      match c.reviewed with
      | some action => .ok action
      | none => .error (c.refuse d .blocked ("invalid reviewer action '".toList ++ c.action ++ "'; use ['".toList ++
          joinWith "', '".toList (ReviewerAction.all.map ReviewerAction.value) ++ "']".toList))
  | issues => .error (c.refuse d .inconsistent (joinWith "; ".toList (issues.map (·.message))))

/-- The answer when the run cannot be loaded. -/
def unloaded (e : RunError) : HumanDecisionResult :=
  { status := .blocked
    runId := c.runId
    workflowStatusBefore := []
    workflowStatusAfter := []
    action := c.action
    message := "cannot load run: ".toList ++ e.message }

def missingEscalationId (d : DurableRunState) : HumanDecisionResult :=
  c.refuse d .blocked "escalation_id required (or escalation/summary.json must define it)".toList

/-- The identifier of the escalation, from the call or a stored package that does not name another one. -/
def resolveWith (d : DurableRunState) (payload : Json) : Except RunError (Except HumanDecisionResult Str) := do
  let resolved ← given payload
  let packaged ← packaged payload
  return if resolved = [] then .error (c.missingEscalationId d)
    else if packaged ≠ [] ∧ packaged ≠ resolved then
      .error (c.refuse d .blocked "escalation_id does not match escalation package".toList)
    else .ok resolved
where
  given (payload : Json) : Except RunError Str :=
    if c.escalationId.getD [] = [] then payloadId payload else .ok (c.escalationId.getD [])
  packaged (payload : Json) : Except RunError Str := if payload.truthy then payloadId payload else .ok []

/-- The identifier of the escalation that the decision is about. -/
def resolve (s : RunStore) (d : DurableRunState) : Except RunError (Except HumanDecisionResult Str) :=
  match s.files.lookup "escalation/summary.json".toList with
  | none =>
    .ok (if c.escalationId.getD [] = [] then .error (c.missingEscalationId d) else .ok (c.escalationId.getD []))
  | some document =>
    match loadDocument document with
    | .error e => .ok (.error (c.refuse d .inconsistent ("escalation summary unreadable: ".toList ++ e)))
    | .ok payload => c.resolveWith d payload

/-- `ReviewerDecision.to_dict()`. -/
def document (action : ReviewerAction) (escalationId : Str) : Document :=
  .json (.obj [("escalation_id", .str escalationId), ("action", .text action.name), ("reviewer_id", .str c.reviewerId),
    ("comment", .str c.comment), ("timestamp", .str c.now), ("primary_workspace_mutated", .bool false)])

/-- An audit event of the decision. -/
def event (eventId : Str) (sequence : Nat) (eventType : AuditEventType) (d : DurableRunState) (action : ReviewerAction) :
    AuditEvent :=
  { eventId
    runId := c.runId
    sequence
    eventType := eventType.value
    actor := firstNonEmpty c.reviewerId "human".toList
    component := "human_decision".toList
    stateBefore := some d.workflowStatus
    stateAfter := some action.transition.next.value
    evidenceRefs := [reviewerDecisionRef] }

/-- The run state that counts the recorded decision. -/
def decided (d : DurableRunState) (action : ReviewerAction) (sequence : Nat) : DurableRunState :=
  { d with
    lastEventSequence := sequence
    refs := (.reviewerDecision, reviewerDecisionRef.ref) :: d.refs
    workflowStatus := action.transition.next.value
    stopReason := action.stopReason.or d.stopReason }

def accept (d : DurableRunState) (action : ReviewerAction) (sequence : Nat) : HumanDecisionResult :=
  { status := action.transition.outcome
    runId := c.runId
    workflowStatusBefore := d.workflowStatus
    workflowStatusAfter := action.transition.next.value
    action := action.value
    message := action.transition.message.toList
    lastSequence := sequence }

end ReviewCall

section

variable (env : Env)

/-- Appends an event under the number after the latest one. -/
def appendNext (event : Str → Nat → AuditEvent) : Exec Journal RunError Nat := do
  let j ← read
  let sequence := (j.store env).latestSequence + 1
  perform env (.append (event (env.newId "evt" j.trace.length) sequence))
  return sequence

variable [PyReview]

/-- The part of `apply_reviewer_decision` that writes. -/
def recordDecision (c : ReviewCall) (d : DurableRunState) (action : ReviewerAction) (escalationId : Str) :
    Exec Journal RunError HumanDecisionResult := do
  perform env (.write reviewerDecisionRef.ref (c.document action escalationId))
  match humanTransition action with
  | .error e => return c.refuse d .blocked e.message
  | .ok _ =>
    let sequence ← appendNext env fun id n => c.event id n .humanDecisionRecorded d action
    perform env (.saveRun (ReviewCall.decided d action sequence))
    match action.transition.event with
    | none => return c.accept d action sequence
    | some terminal =>
      let last ← appendNext env fun id n => c.event id n terminal d action
      perform env (.saveRun { ReviewCall.decided d action sequence with lastEventSequence := last })
      return c.accept d action last
where
  /-- The state machine's check of a terminal decision. -/
  humanTransition (action : ReviewerAction) : Except RunError Unit :=
    if action.transition.next = .awaitingHuman then .ok ()
    else (FoundationStateMachine.transition { status := .awaitingHuman } action.transition.next
      ("human:".toList ++ action.value)).map fun _ => ()

def applyReviewerDecision (c : ReviewCall) : Exec Journal RunError HumanDecisionResult := do
  let j ← read
  match loadRun (j.store env) c.runId with
  | .error e => return c.unloaded e
  | .ok d =>
    match c.judge d (verifyRunConsistency (j.store env) d) with
    | .error r => return r
    | .ok action =>
      match ← lift (c.resolve (j.store env) d) with
      | .error r => return r
      | .ok escalationId => recordDecision env c d action escalationId

end

/-- The arguments of `append_operator_event`. -/
structure OperatorCall where
  runId : Str
  eventType : AuditEventType
  actor : Str
  component : Str
  evidenceRefs : List DurableEvidenceRef := []

def OperatorCall.event (c : OperatorCall) (d : DurableRunState) (eventId : Str) (sequence : Nat) : AuditEvent :=
  { eventId
    runId := c.runId
    sequence
    eventType := c.eventType.value
    actor := firstNonEmpty c.actor "operator".toList
    component := c.component
    stateBefore := some d.workflowStatus
    stateAfter := some d.workflowStatus
    evidenceRefs := c.evidenceRefs }

def appendOperatorEvent (env : Env) (c : OperatorCall) : Exec Journal RunError Nat := do
  let j ← read
  let d ← lift (loadRun (j.store env) c.runId)
  let sequence ← appendNext env (c.event d)
  perform env (.saveRun { d with lastEventSequence := sequence })
  return sequence

end FailureOrchestrator
