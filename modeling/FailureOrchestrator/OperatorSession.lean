import FailureOrchestrator.HumanDecision
import FailureOrchestrator.SyncedEnd

namespace FailureOrchestrator

open Exec

/-- A call that an operator makes on a stored run. -/
inductive OperatorStep where
  | resume (runId : Str)
  | decide (call : ReviewCall)
  | append (call : OperatorCall)

inductive Reply where
  | recovery (decision : RecoveryDecision)
  | review (result : HumanDecisionResult)
  | sequence (n : Nat)

/-- The call answered that it did nothing. -/
def Reply.refused : Reply → Bool
  | .recovery decision => decision.status = .inconsistent
  | .review result => result.status = .blocked ∨ result.status = .inconsistent
  | .sequence _ => false

/-- A call that counts an event it appended leaves the store in step. -/
theorem InSync.counted {s : RunStore} {d d' : DurableRunState} {event : AuditEvent} (h : InSync s d)
    (hrefusal : s.refusal (.append event) = none) (hlast : d'.lastEventSequence = s.latestSequence + 1)
    (hrefs : ∀ r ∈ d'.refs, s.isFile r.2 = true) (hfits : Fits s d'.workflowStatus) :
    InSync (s.apply (.append event)) d' := by
  refine { h.toCounted.append hrefusal ?_ hrefs with status := hfits.apply _ }
  rw [hlast, latestSequence_range' h.sequence, h.last]

section Calls

variable {env : Env} {P : Journal → Prop} {E : RunError → Journal → Prop}

theorem appendNext_triple {event : Str → Nat → AuditEvent} {Q : Nat → Journal → Prop}
    (hdone : ∀ j id, P j → (j.store env).refusal (.append (event id ((j.store env).latestSequence + 1))) = none →
      Q ((j.store env).latestSequence + 1) (j.call (.append (event id ((j.store env).latestSequence + 1))) true))
    (hfail : ∀ j e message, P j → E (.persistence message) (j.call (.append e) false)) :
    Triple P (appendNext env event) Q E := by
  apply Triple.read_bind
  intro j hj
  let sequence := (j.store env).latestSequence + 1
  apply Triple.bind (Q := fun _ j' => Q sequence j')
  · apply perform_triple
    · rintro j' rfl hrefusal
      exact hdone _ _ hj hrefusal
    · rintro j' message rfl
      exact hfail _ _ _ hj
  intro _
  exact Triple.ret fun _ h => h

/-- The run state is stored and in step with the log. -/
def Saved (env : Env) (d : DurableRunState) (j : Journal) : Prop :=
  (j.store env).state = some d ∧ InSync (j.store env) d

theorem Saved.consistent {d : DurableRunState} {j : Journal} (h : Saved env d j) : (j.store env).Consistent := ⟨d, h.1, h.2⟩

end Calls

section Session

variable {env : Env} {d : DurableRunState} {runId : Str}

/-- What a call that refuses leaves. -/
abbrev Untouched (env : Env) (j : Journal) : Prop := j.store env = env.store

/-- The marker of a resumed run is an event under the next number. -/
theorem markResumed_eq : markResumed env runId d =
    appendNext env (fun eventId sequence => {
      eventId
      runId
      sequence
      eventType := AuditEventType.runResumed.value
      component := "persistence".toList
      stateBefore := some d.workflowStatus
      stateAfter := some d.workflowStatus }) >>= fun n =>
    perform env (.saveRun { d with lastEventSequence := n }) >>= fun _ => pure () := by
  simp [markResumed, appendNext]

theorem loadRun_stored {s : RunStore} (h : s.state = some d) : loadRun s runId = .ok d := by
  unfold loadRun
  rw [h]
  rfl

theorem humanTransition_ok (action : ReviewerAction) : recordDecision.humanTransition action = .ok () := by
  cases action <;> rfl

/-- The outcomes that report a recorded decision. -/
def HumanDecisionStatus.done : HumanDecisionStatus → Bool
  | .applied | .recorded => true
  | .blocked | .inconsistent => false

section Review

variable [PyReview] {c : ReviewCall} {action : ReviewerAction}

theorem judge_ok {issues : List ConsistencyIssue} (h : c.judge d issues = .ok action) :
    issues = [] ∧ d.workflowStatus = RunStatus.awaitingHuman.value := by
  unfold ReviewCall.judge at h
  split at h
  · split at h
    · cases h
    next hstatus => exact ⟨rfl, not_not.mp hstatus⟩
  · cases h

end Review

end Session

end FailureOrchestrator
