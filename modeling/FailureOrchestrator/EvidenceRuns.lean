import FailureOrchestrator.EvidenceStages

namespace FailureOrchestrator

open Exec RunPersistence EvidenceName

section Gates

variable {f : Foundation} {env : Env} {A : EvidenceName → Prop} {n : Nat} {event : FailureEvent}

/-- The policy decision is stored, and no event refers to it yet. -/
def PolicyStored (env : Env) (n : Nat) (refs : List DurableEvidenceRef) (j : Journal) : Prop :=
  (∀ r ∈ refs, j.Holds env r.ref) ∧ Filed env.store [] (Before n 8) j

theorem Known.stored {refs : List DurableEvidenceRef} {w : World} (h : Known (PolicyStored env n refs) (fun _ => True) w) :
    Evidence env OfRun w := ⟨h.1.2.mono Before.ofRun, trivial⟩

theorem evidence_storePolicy {decision : PolicyDecision} :
    Triple (Evidence env (Before n 8)) (f.storePolicy env decision)
      (fun refs w => (∀ r ∈ refs, r.ref = EvidenceName.policy.ref) ∧ Known (PolicyStored env n refs) (fun _ => True) w)
      (fun _ => Evidence env OfRun) := by
  apply Triple.cond
  · intro _
    have hjournal : Triple (Filed env.store [] (Before n 8)) (do
        let ref ← writeJson env "policy" (policyDocument decision) "policy-decision.json".toList
        checkpoint env {
          workflowStatus := some RunStatus.policyReview.value
          technicalStatus := some "PASS"
          policyOutcome := some decision.outcome.value
          refs := [(.latestPolicyDecision, ref.ref)] }
        return [ref])
        (fun refs j => (∀ r ∈ refs, r.ref = EvidenceName.policy.ref) ∧ PolicyStored env n refs j)
        (fun _ => Filed env.store [] OfRun) := by
      apply Triple.bind (filed_file (b := .policy) rfl trivial (by rintro ⟨m, hm, -⟩; cases hm) nofun Before.ofRun)
      intro r
      apply Triple.given
      intro hr
      apply Triple.bind (filed_checkpointed rfl lasting_holds Before.ofRun)
      intro _
      refine Triple.ret fun j h => ⟨fun r' hr' => ?_, fun r' hr' => ?_, h.2⟩
      · rw [List.mem_singleton.mp hr', hr]
      · rw [List.mem_singleton.mp hr', hr]
        exact h.1
    refine (onJournal_triple hjournal).mono (fun _ h => h.1) ?_ fun _ _ h => ⟨h, trivial⟩
    exact fun _ w h => ⟨h.1, h.2, trivial⟩
  · exact fun _ => Triple.ret fun w h => ⟨fun _ hr => absurd hr List.not_mem_nil, ⟨fun _ hr => absurd hr List.not_mem_nil, h.1⟩, trivial⟩

theorem stored_quiet {α : Type} {x : Run α} {refs : List DurableEvidenceRef}
    (hx : Keeps (Known (PolicyStored env n refs) fun _ => True) x) :
    Triple (Known (PolicyStored env n refs) fun _ => True) x (fun _ => Known (PolicyStored env n refs) fun _ => True)
      (fun _ => Evidence env OfRun) :=
  hx.triple.mono (fun _ h => h) (fun _ _ h => h) fun _ _ h => h.stored

/-- The event of the policy's outcome. -/
theorem evidence_outcome {refs : List DurableEvidenceRef} (hrefs : ∀ r ∈ refs, r.ref = EvidenceName.policy.ref)
    {t : AuditEventType} {before after : Option RunStatus} :
    Triple (Known (PolicyStored env n refs) fun _ => True) (f.audit env t before after refs)
      (fun _ => Evidence env (Gated n)) (fun _ => Evidence env OfRun) := by
  apply Triple.cond
  · intro _
    refine (onJournal_triple (@filed_emit env env.store [] _ (Gated n) rfl _ _ _ _ fun _ => .inl)).mono ?_ ?_ ?_
    · rintro w ⟨⟨hholds, hfiled⟩, -⟩
      refine ⟨fun r hr => ⟨hholds r hr, .policy, .inr rfl, trivial, (hrefs r hr).symm⟩, hfiled⟩
    · exact fun _ _ h => ⟨h, trivial⟩
    · exact fun _ _ h => ⟨Filed.mono h Gated.ofRun, trivial⟩
  · exact fun _ => Triple.ret fun w h => ⟨h.1.2.mono fun _ => .inl, trivial⟩

theorem stored_modify {refs : List DurableEvidenceRef} {g : RunState → RunState} :
    Keeps (Known (PolicyStored env n refs) fun _ => True) (modifyState g) := Keeps.update fun _ h => ⟨h.1, trivial⟩

theorem evidence_gated {α : Type} {x : Run α} (hx : Keeps (Evidence env (Gated n)) x) :
    Triple (Evidence env (Gated n)) x (fun _ => Evidence env (Gated n)) (fun _ => Evidence env OfRun) :=
  evidence_quiet Gated.ofRun hx

theorem evidence_result {stopReason : RetryReason} {technicalStatus : String} {policyDecision : Option PolicyDecision}
    {escalation : Option HumanEscalation} {artifacts : Option EscalationArtifacts} :
    Keeps (Evidence env A) (result stopReason technicalStatus policyDecision escalation artifacts) :=
  Keeps.read_bind fun _ _ => Keeps.ret

theorem evidence_approve {decision : PolicyDecision} {refs : List DurableEvidenceRef}
    (hrefs : ∀ r ∈ refs, r.ref = EvidenceName.policy.ref) :
    Triple (Known (PolicyStored env n refs) fun _ => True) (f.approveBranch env decision refs)
      (fun _ => Evidence env OfRun) (fun _ => Evidence env OfRun) := by
  apply Triple.bind (stored_quiet known_moveTo)
  intro _
  apply Triple.bind (stored_quiet stored_modify)
  intro _
  apply Triple.bind (evidence_outcome hrefs)
  intro _
  apply Triple.bind (evidence_gated evidence_audit)
  intro _
  apply Triple.bind (evidence_gated evidence_checkpoint)
  intro _
  exact (evidence_gated evidence_result).mono (fun _ h => h) (fun _ _ h => h.evidence Gated.ofRun) fun _ _ h => h

theorem evidence_reject {decision : PolicyDecision} {refs : List DurableEvidenceRef}
    (hrefs : ∀ r ∈ refs, r.ref = EvidenceName.policy.ref) :
    Triple (Known (PolicyStored env n refs) fun _ => True) (f.rejectBranch env decision refs)
      (fun _ => Evidence env OfRun) (fun _ => Evidence env OfRun) := by
  apply Triple.bind (stored_quiet known_moveTo)
  intro _
  apply Triple.bind (stored_quiet stored_modify)
  intro _
  apply Triple.bind (evidence_outcome hrefs)
  intro _
  apply Triple.bind (evidence_gated evidence_checkpoint)
  intro _
  exact (evidence_gated evidence_result).mono (fun _ h => h) (fun _ _ h => h.evidence Gated.ofRun) fun _ _ h => h

theorem evidence_escalate {decision : PolicyDecision} {context : PolicyContext} {classification : FailureClassification}
    {proposal : RepairProposal} {evaluation : EvaluationResult} :
    Triple (Evidence env (Gated n)) (f.escalate env decision context classification proposal evaluation)
      (fun _ => Evidence env OfRun) (fun _ => Evidence env OfRun) := by
  apply Triple.bind (evidence_gated known_moveTo)
  intro _
  apply Triple.bind (evidence_gated evidence_checkpoint)
  intro _
  apply Triple.read_keep
  intro w _
  apply Triple.bind (evidence_gated Keeps.lift)
  intro escalation
  apply Triple.bind (evidence_gated Keeps.lift)
  intro artifacts
  apply Triple.bind (evidence_gated known_moveTo)
  intro _
  apply Triple.bind (evidence_gated evidence_modify)
  intro _
  apply Triple.bind (Q := fun _ => Evidence env OfRun)
  · apply evidence_journaled Gated.ofRun fun _ h => h
    have hfresh : ¬ Gated n .escalation := by
      rintro (⟨m, hm, -⟩ | h)
      · cases hm
      · cases h
    apply Triple.bind (filed_file (b := .escalation) rfl trivial hfresh nofun Gated.ofRun)
    intro r
    apply Triple.given
    intro hr
    apply Triple.bind (filed_checkpointed rfl lasting_holds Gated.ofRun)
    intro _
    apply Triple.bind (filed_cite (b := .escalation) (B := OfRun) rfl trivial nofun Gated.ofRun hr)
    intro _
    exact (filed_mark rfl).triple
  intro _
  exact evidence_quiet (fun _ h => h) evidence_result

theorem evidence_escalationFailed {decision : PolicyDecision} {e : RunError} :
    Keeps (Evidence env A) (f.escalationFailed env decision e) := by
  refine Keeps.read_bind fun w _ => ?_
  refine Keeps.bind (keeps_when known_moveTo) fun _ => ?_
  refine Keeps.bind evidence_modify fun _ => ?_
  refine Keeps.bind evidence_checkpoint fun _ => ?_
  exact evidence_result

theorem evidence_escalateBranch {decision : PolicyDecision} {refs : List DurableEvidenceRef} {context : PolicyContext}
    {classification : FailureClassification} {proposal : RepairProposal} {evaluation : EvaluationResult}
    (hrefs : ∀ r ∈ refs, r.ref = EvidenceName.policy.ref) :
    Triple (Known (PolicyStored env n refs) fun _ => True)
      (f.escalateBranch env decision refs context classification proposal evaluation)
      (fun _ => Evidence env OfRun) (fun _ => Evidence env OfRun) := by
  apply Triple.bind (stored_quiet known_moveTo)
  intro _
  apply Triple.bind (evidence_outcome hrefs)
  intro _
  apply Triple.handle evidence_escalate
  exact fun _ => evidence_escalationFailed.triple

theorem evidence_gate [UnicodeData] {classification : FailureClassification} {proposal : RepairProposal} {evaluation : EvaluationResult} :
    Triple (Evidence env (Before n 8)) (f.runPolicyGate env classification proposal evaluation)
      (fun _ => Evidence env OfRun) (fun _ => Evidence env OfRun) := by
  apply Triple.read_keep
  intro w _
  apply Triple.bind (evidence_before known_moveTo)
  intro _
  apply Triple.bind (evidence_before evidence_modify)
  intro _
  apply Triple.bind (evidence_before evidence_audit)
  intro _
  apply Triple.bind (evidence_before Keeps.lift)
  intro decision
  apply Triple.bind (evidence_before evidence_modify)
  intro _
  apply Triple.bind evidence_storePolicy
  intro refs
  apply Triple.given
  intro hrefs
  cases decision.outcome with
  | approve => exact evidence_approve hrefs
  | reject => exact evidence_reject hrefs
  | escalate => exact evidence_escalateBranch hrefs

theorem evidence_stopRun {decision : RetryDecision} : Keeps (Evidence env A) (f.stopRun env decision) := by
  refine Keeps.bind known_moveTo fun _ => ?_
  refine Keeps.bind evidence_modify fun _ => ?_
  refine Keeps.bind evidence_audit fun _ => ?_
  refine Keeps.bind evidence_audit fun _ => ?_
  refine Keeps.bind evidence_checkpoint fun _ => ?_
  exact evidence_result

theorem evidence_exhausted : Keeps (Evidence env A) (f.exhausted env) := by
  refine Keeps.read_bind fun w _ => ?_
  refine Keeps.bind (keeps_when known_moveTo) fun _ => ?_
  refine Keeps.bind evidence_modify fun _ => ?_
  refine Keeps.bind evidence_audit fun _ => ?_
  refine Keeps.bind evidence_checkpoint fun _ => ?_
  exact evidence_result

theorem evidence_runFailed {e : RunError} : Keeps (Evidence env A) (f.runFailed env e) := by
  refine Keeps.read_bind fun w _ => ?_
  refine Keeps.bind (keeps_when known_moveTo) fun _ => ?_
  refine Keeps.bind evidence_modify fun _ => ?_
  refine Keeps.bind (Keeps.handle ?_ fun _ => Keeps.ret) fun _ => ?_
  · refine Keeps.bind evidence_audit fun _ => ?_
    exact evidence_checkpoint
  exact evidence_result

theorem evidence_persistenceFailed {e : RunError} : Keeps (Evidence env A) (Foundation.persistenceFailed e) := by
  refine Keeps.bind evidence_modify fun _ => ?_
  exact evidence_result

/-- Every plan that the planner makes has one step for each of its tools. -/
def Foundation.PlansOneEach (f : Foundation) : Prop :=
  ∀ n context classification retry plan, f.plan n context classification retry = .ok plan → plan.OneEach

theorem evidence_attempt [UnicodeData] (hplans : f.PlansOneEach) :
    Triple (Evidence env (Before n 0)) (f.attempt env event n)
      (fun outcome w => outcome.elim (Evidence env (Before (n + 1) 0) w) fun _ => Evidence env OfRun w)
      (fun _ => Evidence env OfRun) := by
  apply Triple.bind (Q := fun _ => Evidence env (Before n 0))
  · exact Triple.update fun _ h => h
  intro _
  apply Triple.bind (evidence_before evidence_buildContext)
  intro context
  refine Triple.mono (P := Evidence env (Before n 1)) ?_ (fun _ h => h.evidence (Before.mono (by omega))) (fun _ _ h => h)
    fun _ _ h => h
  apply Triple.bind evidence_classify
  intro classification
  apply Triple.bind (evidence_before evidence_startAttempt)
  intro _
  apply Triple.bind evidence_plan
  intro plan
  apply Triple.given
  rintro ⟨retry, hplan⟩
  obtain ⟨hnodup, hplain⟩ := hplans _ _ _ _ _ hplan
  apply Triple.bind (evidence_before known_moveTo)
  intro _
  apply Triple.bind (Q := fun _ => Evidence env (Before n 4))
  · refine (@evidence_toolSteps _ _ _ _ _ _ [] 0 hplain hnodup).mono (fun _ h => h.evidence fun _ => .inl) (fun _ _ h => h)
      fun _ _ h => h
  intro _
  apply Triple.bind evidence_propose
  intro proposal
  apply Triple.bind evidence_sandbox
  intro sandbox
  apply Triple.bind evidence_evaluate
  intro evaluation
  apply Triple.bind evidence_record
  intro _
  apply Triple.cond
  · intro _
    apply Triple.map
    exact evidence_gate
  · intro _
    apply Triple.bind evidence_decide
    intro decision
    apply Triple.cond
    · intro _
      apply Triple.bind (evidence_before evidence_startRetry)
      intro _
      exact Triple.ret fun _ h => h.evidence Before.next
    · intro _
      apply Triple.map
      exact (evidence_before evidence_stopRun).mono (fun _ h => h) (fun _ _ h => h.evidence Before.ofRun) fun _ _ h => h

theorem evidence_attempts [UnicodeData] (hplans : f.PlansOneEach) (count n : Nat) :
    Triple (Evidence env (Before n 0)) (f.attempts env event n count) (fun _ => Evidence env OfRun)
      (fun _ => Evidence env OfRun) := by
  induction count generalizing n with
  | zero => exact Triple.ret fun _ h => h.evidence Before.ofRun
  | succ count ih =>
    apply Triple.bind (evidence_attempt hplans)
    intro outcome
    cases outcome with
    | some r => exact Triple.ret fun _ h => h
    | none => exact ih (n + 1)

theorem evidence_openRun :
    Triple (Evidence env fun _ => False) (f.openRun env event) (fun _ => Evidence env (Before 1 0))
      (fun _ => Evidence env OfRun) := by
  have hnone : ∀ a : EvidenceName, False → a.Before 1 0 := fun _ h => h.elim
  apply evidence_journaled hnone Before.ofRun
  apply Triple.bind (Q := fun _ => Filed env.store [] fun _ => False)
  · apply Triple.mono (h := Keeps.triple ?_) (fun _ h => h) (fun _ _ h => h) fun _ _ h => h.mono hnone
    refine Keeps.bind (filed_create rfl) fun _ => ?_
    refine Keeps.bind (Keeps.update fun _ h => h.hold _) fun _ => ?_
    exact filed_mark rfl
  intro _
  apply Triple.bind (filed_file (b := .input) rfl trivial (fun h => h) nofun hnone)
  intro r
  exact (filed_checkpoint rfl).triple.mono (fun _ h => h.2.2.mono hnone) (fun _ _ h => h) fun _ _ h => h

/-- A run whose plans have one step for each tool preserves the evidence that its log refers to. -/
theorem evidence_run [UnicodeData] (hplans : f.PlansOneEach) : Evidence env OfRun (f.run env event).2 := by
  have htriple : Triple (Evidence env fun _ => False)
      (handle (f.runBody env (Foundation.receivedEvent env event))
        fun e => if e.isPersistence then Foundation.persistenceFailed e else f.runFailed env e)
      (fun _ => Evidence env OfRun) (fun _ => Evidence env OfRun) := by
    apply Triple.handle (D := fun _ => Evidence env OfRun)
    · apply Triple.bind (Q := fun _ => Evidence env OfRun)
      · apply Triple.bind evidence_openRun
        intro _
        exact evidence_attempts hplans _ 1
      intro outcome
      cases outcome with
      | some r => exact Triple.ret fun _ h => h
      | none => exact evidence_exhausted.triple
    · exact fun e => (Keeps.cond evidence_persistenceFailed evidence_runFailed).triple
  refine htriple.after (s := Foundation.initialWorld env event) ⟨⟨?_, ?_⟩, trivial⟩
  · intro before e after hsplit
    cases before <;> cases hsplit
  · rintro ref ⟨e, hmem, -⟩
    exact absurd hmem List.not_mem_nil

end Gates

end FailureOrchestrator
