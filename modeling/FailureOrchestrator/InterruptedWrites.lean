import FailureOrchestrator.SessionRuns

namespace FailureOrchestrator

open Exec

/-- The last event that moved the run to another status. -/
def lastChange (events : List AuditEvent) : Option AuditEvent :=
  (events.filter fun e => e.stateBefore ≠ e.stateAfter).getLast?

/-- The run state has the status that the log last moved the run to. -/
def Remembers (d : DurableRunState) (events : List AuditEvent) : Prop :=
  ∀ e, lastChange events = some e → e.stateAfter = some d.workflowStatus

/-- The consistency check reports that the log and the run state count differently. -/
def MismatchReported (s : RunStore) (d : DurableRunState) : Prop :=
  ∃ issue ∈ verifyRunConsistency s d, issue.code = "STATE_EVENT_SEQUENCE_MISMATCH"

instance (s : RunStore) (d : DurableRunState) : Decidable (MismatchReported s d) := List.decidableBEx _ _

/-- The findings about a run that an event of the operator does not remove. -/
def lastingIssues (c : OperatorCall) (s : RunStore) (d : DurableRunState) : List ConsistencyIssue :=
  sequenceGap 1 s.events ++ checkedRefs.flatMap (fun (label, field) => checkRef s d label field) ++
    missingEscalation s d ++ if c.eventType = .evaluationCompleted then [] else missingEvaluation d s.events

section Findings

variable {s : RunStore} {d : DurableRunState} {events : List AuditEvent} {e : AuditEvent}

theorem sequenceGap_concat {k : Nat} :
    sequenceGap k (events ++ [e]) = [] ↔ sequenceGap k events = [] ∧ e.sequence = k + events.length := by
  induction events generalizing k with
  | nil =>
    show (if e.sequence = k then sequenceGap (k + 1) [] else _) = [] ↔ _
    split
    next hsame => exact ⟨fun _ => ⟨rfl, hsame⟩, fun _ => rfl⟩
    next hother => exact ⟨nofun, fun h => absurd h.2 hother⟩
  | cons first rest ih =>
    show (if first.sequence = k then sequenceGap (k + 1) (rest ++ [e]) else _) = [] ↔
      (if first.sequence = k then sequenceGap (k + 1) rest else _) = [] ∧ _
    split
    next =>
      rw [ih, List.length_cons, show k + 1 + rest.length = k + (rest.length + 1) by omega]
    next => exact ⟨nofun, fun h => nomatch h.1⟩

/-- An event under the next number leaves the gaps of the log as they are. -/
theorem sequenceGap_append (he : e.sequence = s.latestSequence + 1) :
    sequenceGap 1 (s.events ++ [e]) = [] ↔ sequenceGap 1 s.events = [] := by
  rw [sequenceGap_concat]
  refine ⟨fun h => h.1, fun h => ⟨h, ?_⟩⟩
  unfold RunStore.latestSequence at he
  cases hlast : s.events.getLast? with
  | none =>
    rw [hlast] at he
    rw [List.getLast?_eq_none_iff.mp hlast]
    exact he
  | some last =>
    rw [hlast] at he
    obtain ⟨init, hinit⟩ := List.getLast?_eq_some_iff.mp hlast
    rw [hinit] at h ⊢
    have hnumber := (sequenceGap_concat.mp h).2
    have hnext : e.sequence = last.sequence + 1 := he
    rw [List.length_append, List.length_singleton]
    omega

/-- An event that moves the run nowhere is no change of its status. -/
theorem lastChange_append (h : e.stateBefore = e.stateAfter) : lastChange (events ++ [e]) = lastChange events := by
  unfold lastChange
  rw [List.filter_append]
  simp [h]

/-- The run after an operator's event. -/
def marked (s : RunStore) (d : DurableRunState) (e : AuditEvent) : RunStore :=
  { s with state := some { d with lastEventSequence := e.sequence }, events := s.events ++ [e] }

theorem missingEvaluation_eq_nil : missingEvaluation d events = [] ↔
    (d.workflowStatus ∈ evaluatedStatuses → ∃ e ∈ events, e.eventType = AuditEventType.evaluationCompleted.value) := by
  unfold missingEvaluation
  split
  next h => exact ⟨nofun, fun hall => absurd (hall h.1) (by push Not; exact h.2)⟩
  next h =>
    refine ⟨fun _ hstatus => ?_, fun _ => rfl⟩
    by_contra hnone
    push Not at hnone
    exact h ⟨hstatus, hnone⟩

theorem missingEvaluation_append : missingEvaluation d (events ++ [e]) = [] ↔
    e.eventType = AuditEventType.evaluationCompleted.value ∨ missingEvaluation d events = [] := by
  simp only [missingEvaluation_eq_nil, List.mem_append, List.mem_singleton, or_and_right, exists_or, exists_eq_left]
  constructor
  · intro h
    by_cases he : e.eventType = AuditEventType.evaluationCompleted.value
    · exact .inl he
    · exact .inr fun hstatus => (h hstatus).resolve_right he
  · rintro (he | h) hstatus
    · exact .inr he
    · exact .inl (h hstatus)

theorem AuditEventType.value_evaluationCompleted (t : AuditEventType) :
    t.value = AuditEventType.evaluationCompleted.value ↔ t = .evaluationCompleted := by
  cases t <;> decide

theorem sequenceMismatch_marked : sequenceMismatch { d with lastEventSequence := e.sequence } (events ++ [e]) = [] := by
  unfold sequenceMismatch
  rw [List.getLast?_concat]
  simp

/-- After an operator's event the check finds what the event does not remove. -/
theorem verify_marked {c : OperatorCall} {id : Str} (he : e = c.event d id (s.latestSequence + 1)) :
    verifyRunConsistency (marked s d e) { d with lastEventSequence := e.sequence } = [] ↔ lastingIssues c s d = [] := by
  have hsequence : e.sequence = s.latestSequence + 1 := by rw [he]; rfl
  have htype : e.eventType = c.eventType.value := by rw [he]; rfl
  have hgap : sequenceGap 1 (marked s d e).events = [] ↔ sequenceGap 1 s.events = [] := sequenceGap_append hsequence
  have hmismatch : sequenceMismatch { d with lastEventSequence := e.sequence } (marked s d e).events = [] :=
    sequenceMismatch_marked
  have hevaluation : missingEvaluation { d with lastEventSequence := e.sequence } (marked s d e).events = [] ↔
      (if c.eventType = .evaluationCompleted then [] else missingEvaluation d s.events) = [] := by
    rw [show (marked s d e).events = s.events ++ [e] from rfl, missingEvaluation_append, htype,
      AuditEventType.value_evaluationCompleted]
    split
    next h => exact ⟨fun _ => rfl, fun _ => .inl h⟩
    next h => exact ⟨fun hor => hor.resolve_left h, .inr⟩
  unfold verifyRunConsistency lastingIssues
  simp only [List.append_eq_nil_iff, hgap, hmismatch, hevaluation, and_true]
  rfl

end Findings

section Calls

variable {env : Env} {d : DurableRunState} {c : OperatorCall}

theorem appendOperatorEvent_ok {n : Nat} (hd : env.store.state = some d) (hn : (appendOperatorEvent env c {}).1 = .ok n) :
    ∃ id, (appendOperatorEvent env c {}).2.store env =
      marked env.store d (c.event d id (env.store.latestSequence + 1)) := by
  have htriple : Triple (fun j => j = {}) (appendOperatorEvent env c)
      (fun _ j => ∃ id, j.store env = marked env.store d (c.event d id (env.store.latestSequence + 1)))
      (fun _ _ => True) := by
    apply Triple.read_bind
    rintro j rfl
    rw [show loadRun (Journal.store env {}) c.runId = .ok d from loadRun_stored hd]
    apply Triple.bind (Q := fun d' j => d' = d ∧ j = {})
    · exact Triple.lift (fun d' hr j hj => ⟨(Except.ok.inj hr).symm, hj⟩) fun e hr => nomatch hr
    intro d'
    apply Triple.given
    rintro rfl
    apply Triple.bind (Q := fun n j => n = env.store.latestSequence + 1 ∧
      ∃ id, j.store env = env.store.apply (.append (c.event d' id (env.store.latestSequence + 1))))
    · apply appendNext_triple
      · rintro j id rfl -
        exact ⟨rfl, id, store_call_true⟩
      · exact fun _ _ _ _ => trivial
    intro n
    apply Triple.given
    rintro rfl
    apply Triple.bind (Q := fun _ j => ∃ id, j.store env =
      marked env.store d' (c.event d' id (env.store.latestSequence + 1)))
    · apply perform_triple
      · rintro j ⟨id, hj⟩ -
        refine ⟨id, ?_⟩
        rw [store_call_true, hj]
        rfl
      · exact fun _ _ _ => trivial
    intro _
    exact Triple.ret fun _ h => h
  exact htriple.ok rfl hn

/-- An operator's event hides an interrupted write exactly when the check finds nothing else about the run, and the run
state does not remember the status that the log last moved the run to. -/
theorem operatorEvent_hides_iff {n : Nat} (hd : env.store.state = some d)
    (hn : (appendOperatorEvent env c {}).1 = .ok n) :
    (∀ d', ((appendOperatorEvent env c {}).2.store env).state = some d' →
      verifyRunConsistency ((appendOperatorEvent env c {}).2.store env) d' ≠ [] ∨
        Remembers d' ((appendOperatorEvent env c {}).2.store env).events) ↔
      lastingIssues c env.store d ≠ [] ∨ Remembers d env.store.events := by
  obtain ⟨id, hs⟩ := appendOperatorEvent_ok hd hn
  rw [hs]
  have hchange : lastChange (marked env.store d (c.event d id (env.store.latestSequence + 1))).events =
      lastChange env.store.events := lastChange_append rfl
  constructor
  · intro h
    rcases h _ rfl with hissues | hstatus
    · left
      rwa [ne_eq, verify_marked rfl] at hissues
    · right
      intro e he
      exact hstatus e (hchange.trans he)
  · rintro h d' ⟨⟩
    rcases h with hissues | hstatus
    · left
      rwa [ne_eq, verify_marked rfl]
    · right
      intro e he
      exact hstatus e (hchange.symm.trans he)

end Calls

def branchPushed : OperatorCall :=
  { runId := "run-1".toList, eventType := .targetBranchPushed, actor := "alice".toList, component := "apply".toList }

/-- A run whose resume marker was appended and not counted. -/
@[reducible] def interruptedResume : DurableRunState :=
  { runId := "run-1".toList, workflowStatus := RunStatus.received.value, lastEventSequence := 1 }

def interruptedResumeEnv : Env where
  store := {
    state := some interruptedResume
    events := [
      { eventId := "evt-1".toList, runId := "run-1".toList, sequence := 1, eventType := AuditEventType.runCreated.value,
        stateBefore := some RunStatus.received.value, stateAfter := some RunStatus.received.value },
      { eventId := "evt-2".toList, runId := "run-1".toList, sequence := 2, eventType := AuditEventType.runResumed.value,
        component := "persistence".toList, stateBefore := some RunStatus.received.value,
        stateAfter := some RunStatus.received.value }] }
  newId _ _ := "evt-3".toList

/-- The marker lost no status, so an event that covers it hides nothing. -/
theorem interruptedResume_kept :
    (appendOperatorEvent interruptedResumeEnv branchPushed {}).1 = .ok 3 ∧
    ∀ d', ((appendOperatorEvent interruptedResumeEnv branchPushed {}).2.store interruptedResumeEnv).state = some d' →
      verifyRunConsistency
          ((appendOperatorEvent interruptedResumeEnv branchPushed {}).2.store interruptedResumeEnv) d' ≠ [] ∨
        Remembers d' ((appendOperatorEvent interruptedResumeEnv branchPushed {}).2.store interruptedResumeEnv).events := by
  have hd : interruptedResumeEnv.store.state = some interruptedResume := rfl
  have hn : (appendOperatorEvent interruptedResumeEnv branchPushed {}).1 = .ok 3 := by decide +kernel
  refine ⟨hn, (operatorEvent_hides_iff hd hn).mpr (.inr ?_)⟩
  have hnone : lastChange interruptedResumeEnv.store.events = none := by decide +kernel
  intro e he
  rw [hnone] at he
  cases he

/-- A run whose reviewer rejected it: the decision was appended, and the writer stopped before its save. -/
@[reducible] def interruptedReject : DurableRunState :=
  { runId := "run-1".toList, workflowStatus := RunStatus.awaitingHuman.value, lastEventSequence := 1 }

@[reducible] def recordedReject : AuditEvent :=
  { eventId := "evt-2".toList, runId := "run-1".toList, sequence := 2,
    eventType := AuditEventType.humanDecisionRecorded.value, actor := "human".toList,
    component := "human_decision".toList, stateBefore := some RunStatus.awaitingHuman.value,
    stateAfter := some RunStatus.rejected.value, evidenceRefs := [reviewerDecisionRef] }

def interruptedRejectEnv : Env where
  store := {
    state := some interruptedReject
    events := [
      { eventId := "evt-1".toList, runId := "run-1".toList, sequence := 1,
        eventType := AuditEventType.evaluationCompleted.value, stateBefore := some RunStatus.evaluating.value,
        stateAfter := some RunStatus.evaluated.value }, recordedReject]
    files := [(reviewerDecisionRef.ref, .json .null), (escalationSummary, .json .null)] }
  newId _ _ := "evt-3".toList

/-- The event that records a pushed branch makes the run look consistent, and the rejection is forgotten. -/
theorem rejection_hidden :
    ¬ ∀ (env : Env) (d : DurableRunState) (c : OperatorCall) (n : Nat), env.store.state = some d →
      MismatchReported env.store d → (appendOperatorEvent env c {}).1 = .ok n →
      ∀ d', ((appendOperatorEvent env c {}).2.store env).state = some d' →
        verifyRunConsistency ((appendOperatorEvent env c {}).2.store env) d' ≠ [] ∨
          Remembers d' ((appendOperatorEvent env c {}).2.store env).events := by
  intro h
  have hmismatch : MismatchReported interruptedRejectEnv.store interruptedReject := by decide +kernel
  have hn : (appendOperatorEvent interruptedRejectEnv branchPushed {}).1 = .ok 3 := by decide +kernel
  have hafter : ((appendOperatorEvent interruptedRejectEnv branchPushed {}).2.store interruptedRejectEnv).state =
      some { interruptedReject with lastEventSequence := 3 } := by decide +kernel
  have hverified : verifyRunConsistency
      ((appendOperatorEvent interruptedRejectEnv branchPushed {}).2.store interruptedRejectEnv)
      { interruptedReject with lastEventSequence := 3 } = [] := by decide +kernel
  have hchange : lastChange ((appendOperatorEvent interruptedRejectEnv branchPushed {}).2.store
      interruptedRejectEnv).events = some recordedReject := by decide +kernel
  rcases h _ _ _ _ rfl hmismatch hn _ hafter with hissues | hstatus
  · exact hissues hverified
  · exact absurd (hstatus _ hchange) (by decide)

end FailureOrchestrator
