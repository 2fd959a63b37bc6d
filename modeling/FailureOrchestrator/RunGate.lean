import FailureOrchestrator.RunStages

namespace FailureOrchestrator

open Exec RunPersistence

/-- How a run ends: the invariant, and a result that shows the status of the state. -/
def Ended (I : World → Prop) (r : FoundationResult) (w : World) : Prop := I w ∧ r.status = w.state.status

/-- The attempt that `recordStage` adds. -/
def World.addAttempt (w : World) (a : AttemptRecord) : World :=
  { w with attempts := w.attempts ++ [a], state := { w.state with attempts := w.attempts ++ [a] } }

/-- The decision that `decideStage` adds. -/
def World.addDecision (w : World) (d : RetryDecision) : World :=
  { w with
    decisions := w.decisions ++ [d]
    state := { w.state with
      lastRetryDecision := some d
      retryTrace := w.state.retryTrace ++ [decisionTrace d] } }

namespace Upkeep

variable {f : Foundation} {env : Env} {allowed : RunStatus → Prop} {I : World → Prop} {E : RunError → World → Prop}
  (hd : Upkeep env allowed I E)

include hd

theorem recordStage [UnicodeData] {P : World → Prop} {n : Nat} {event : FailureEvent}
    {classification : FailureClassification} {plan : RepairPlan} {proposal : RepairProposal} {sandbox : SandboxResult}
    {evaluation : EvaluationResult}
    (hadd : ∀ w, P w → I (w.addAttempt (buildAttemptRecord f.sha256 n plan.goal proposal evaluation sandbox event
      classification w.attempts.getLast?))) :
    Triple P (f.recordStage env n event classification plan proposal sandbox evaluation) (fun _ => I) E := by
  apply Triple.read_bind
  intro w hw
  apply Triple.bind (Q := fun _ => I)
  · apply Triple.update
    rintro w' rfl
    exact hadd w' hw
  intro _
  apply Triple.bind (Q := fun _ => I)
  · apply journaled_keeps
    apply onJournal_bind hd.writeJson
    intro _
    exact onJournal_ret fun _ hw => hw.2
  intro _
  exact hd.modifyState fun _ => ⟨.inl rfl, rfl⟩

/-- The decision is made on the attempts of the history and added to it between `P` and `Q`. -/
theorem decideStage {Q : RetryDecision → World → Prop} {n : Nat} {evaluation : EvaluationResult}
    (hQ : ∀ d, Upkeep env allowed (Q d) E)
    (hadd : ∀ w, I w → Q (RetryDecisionEngine.decide f.retryBudget w.attempts evaluation)
      (w.addDecision (RetryDecisionEngine.decide f.retryBudget w.attempts evaluation))) :
    Triple I (f.decideStage env n evaluation) Q E := by
  apply Triple.bind (hd.moveTo (hd.usual _ rfl))
  intro _
  apply Triple.read_bind
  intro w hw
  apply Triple.bind (Q := fun _ => Q (RetryDecisionEngine.decide f.retryBudget w.attempts evaluation))
  · apply Triple.update
    rintro w' rfl
    exact hadd w' hw
  intro _
  apply Triple.bind
  · exact journaled_keeps ((hQ _).record rfl (hd.usual _ rfl))
  intro _
  exact Triple.ret fun _ hw => hw

theorem startRetry {decision : RetryDecision} : Triple I (f.startRetry env decision) (fun _ => I) E := by
  apply Triple.bind (hd.moveTo (hd.usual _ rfl))
  intro _
  apply Triple.bind (hd.auditTo rfl (hd.usual _ rfl))
  intro _
  exact journaled_keeps (hd.save (hd.usual .retrying rfl) rfl rfl)

theorem stopRun {decision : RetryDecision} : Triple I (f.stopRun env decision) (Ended I) E := by
  apply Triple.bind (hd.moveTo (hd.usual _ rfl))
  intro _
  apply Triple.bind
  · exact hd.modifyState fun _ => ⟨.inl rfl, rfl⟩
  intro _
  apply Triple.bind (hd.auditTo rfl (hd.usual _ rfl))
  intro _
  apply Triple.bind (hd.auditTo rfl (hd.usual _ rfl))
  intro _
  apply Triple.bind
  · exact journaled_keeps (hd.save (hd.usual .failed rfl) rfl rfl)
  intro _
  exact result_status

theorem exhausted : Triple I (f.exhausted env) (Ended I) E := by
  apply Triple.read_keep
  intro w _
  apply Triple.bind (when_keeps (hd.moveTo (hd.usual _ rfl)))
  intro _
  apply Triple.bind
  · exact hd.modifyState fun _ => ⟨.inr (hd.usual .failed rfl), rfl⟩
  intro _
  apply Triple.bind (hd.auditTo rfl (hd.usual _ rfl))
  intro _
  apply Triple.bind
  · exact journaled_keeps (hd.save (hd.usual .failed rfl) rfl rfl)
  intro _
  exact result_status

theorem approveBranch {decision : PolicyDecision} {refs : List DurableEvidenceRef} (ha : allowed .approved) :
    Triple I (f.approveBranch env decision refs) (Ended I) E := by
  apply Triple.bind (hd.moveTo ha)
  intro _
  apply Triple.bind
  · exact hd.modifyState fun _ => ⟨.inl rfl, rfl⟩
  intro _
  apply Triple.bind (hd.auditTo rfl ha)
  intro _
  apply Triple.bind (hd.auditTo rfl ha)
  intro _
  apply Triple.bind
  · exact journaled_keeps (hd.save ha rfl rfl)
  intro _
  exact result_status

theorem rejectBranch {decision : PolicyDecision} {refs : List DurableEvidenceRef} (hr : allowed .rejected) :
    Triple I (f.rejectBranch env decision refs) (Ended I) E := by
  apply Triple.bind (hd.moveTo hr)
  intro _
  apply Triple.bind
  · exact hd.modifyState fun _ => ⟨.inl rfl, rfl⟩
  intro _
  apply Triple.bind (hd.auditTo rfl hr)
  intro _
  apply Triple.bind
  · exact journaled_keeps (hd.save hr rfl rfl)
  intro _
  exact result_status

theorem storePolicy {decision : PolicyDecision} (hreview : allowed .policyReview) : Triple I (f.storePolicy env decision) (fun _ => I) E := by
  apply Triple.cond
  · intro _
    apply onJournal_bind hd.writeJson
    intro ref
    apply onJournal_bind
    · exact hd.saveRef hreview rfl rfl
    intro _
    exact onJournal_ret fun _ hw => hw
  · intro _
    exact Triple.ret fun _ hw => hw

/-- The policy gate, given what its branches do. -/
theorem runPolicyGate [UnicodeData] {F : RunError → World → Prop} {Q : FoundationResult → World → Prop}
    {classification : FailureClassification} {proposal : RepairProposal} {evaluation : EvaluationResult}
    (hreview : allowed .policyReview) (hF : ∀ e w, E e w → F e w)
    (happrove : ∀ context decision refs, context.evaluation = evaluation → f.evaluatePolicy context = .ok decision →
      decision.outcome = .approve → Triple I (f.approveBranch env decision refs) Q F)
    (hreject : ∀ decision refs, Triple I (f.rejectBranch env decision refs) Q F)
    (hescalate : ∀ decision refs context,
      Triple I (f.escalateBranch env decision refs context classification proposal evaluation) Q F) :
    Triple I (f.runPolicyGate env classification proposal evaluation) Q F := by
  have weaken : ∀ {α : Type} {x : Run α} {R : α → World → Prop}, Triple I x R E → Triple I x R F :=
    fun hx => hx.mono (fun _ h => h) (fun _ _ h => h) hF
  apply Triple.read_keep
  intro w _
  apply Triple.bind (weaken (hd.moveTo hreview))
  intro _
  apply Triple.bind
  · exact weaken (hd.modifyState fun _ => ⟨.inl rfl, rfl⟩)
  intro _
  apply Triple.bind (weaken (hd.auditTo rfl hreview))
  intro _
  apply Triple.bind (Q := fun decision w' => I w' ∧ f.evaluatePolicy (buildPolicyContext proposal evaluation
    (some classification) w.toolsUsed w.toolRisks w.attempts.length f.policyConfig) = .ok decision)
  · exact Triple.lift (fun decision hr w hw => ⟨hw, hr⟩) fun e _ w hw => hF e w (hd.raised e w hw)
  intro decision
  by_cases hdecision : f.evaluatePolicy (buildPolicyContext proposal evaluation (some classification) w.toolsUsed
    w.toolRisks w.attempts.length f.policyConfig) = .ok decision
  · refine Triple.mono (P := I) ?_ (fun _ h => h.1) (fun _ _ h => h) fun _ _ h => h
    apply Triple.bind
    · exact weaken (hd.modifyState fun _ => ⟨.inl rfl, rfl⟩)
    intro _
    apply Triple.bind (weaken (hd.storePolicy hreview))
    intro refs
    cases ho : decision.outcome with
    | approve => exact happrove _ decision refs rfl hdecision ho
    | reject => exact hreject _ _
    | escalate => exact hescalate _ _ _
  · exact fun _ h => absurd h.2 hdecision

theorem escalate (hawaiting : allowed .awaitingHuman) {decision : PolicyDecision} {context : PolicyContext}
    {classification : FailureClassification} {proposal : RepairProposal} {evaluation : EvaluationResult} :
    Triple I (f.escalate env decision context classification proposal evaluation) (Ended I) E := by
  apply Triple.bind (hd.moveTo (hd.usual _ rfl))
  intro _
  apply Triple.bind
  · exact journaled_keeps (hd.save (hd.usual .escalationBuilding rfl) rfl rfl)
  intro _
  apply Triple.read_keep
  intro w _
  apply Triple.bind hd.collaborator
  intro escalation
  apply Triple.bind hd.collaborator
  intro artifacts
  apply Triple.bind (hd.moveTo hawaiting)
  intro _
  apply Triple.bind
  · exact hd.modifyState fun _ => ⟨.inl rfl, rfl⟩
  intro _
  apply Triple.bind (Q := fun _ => I)
  · apply journaled_keeps
    apply onJournal_bind hd.writeJson
    intro ref
    apply onJournal_bind
    · exact hd.saveRef hawaiting rfl rfl
    intro _
    apply onJournal_bind
    · exact hd.emit _ _ none _ rfl fun _ h => nomatch h
    intro _
    apply hd.emit _ _ (some .awaitingHuman) _ rfl
    rintro s ⟨⟩
    exact hawaiting
  intro _
  exact result_status

theorem escalationFailed {decision : PolicyDecision} {e : RunError} :
    Triple I (f.escalationFailed env decision e) (Ended I) E := by
  apply Triple.read_keep
  intro w _
  apply Triple.bind (when_keeps (hd.moveTo (hd.usual _ rfl)))
  intro _
  apply Triple.bind
  · exact hd.modifyState fun _ => ⟨.inr (hd.usual .escalationError rfl), rfl⟩
  intro _
  apply Triple.bind
  · exact journaled_keeps (hd.save (hd.usual .escalationError rfl) rfl rfl)
  intro _
  exact result_status

/-- The escalation is tried under an invariant that an exception leaves intact. -/
theorem escalateBranch (hawaiting : allowed .awaitingHuman) {decision : PolicyDecision} {refs : List DurableEvidenceRef}
    {context : PolicyContext} {classification : FailureClassification} {proposal : RepairProposal}
    {evaluation : EvaluationResult} (hE : ∀ e w, E e w → I w) :
    Triple I (f.escalateBranch env decision refs context classification proposal evaluation) (Ended I) E := by
  apply Triple.bind (hd.moveTo (hd.usual _ rfl))
  intro _
  apply Triple.bind (hd.auditTo rfl (hd.usual _ rfl))
  intro _
  apply Triple.handle (hd.escalate hawaiting)
  intro e
  exact hd.escalationFailed.mono (hE e) (fun _ _ h => h) fun _ _ h => h

theorem persistenceFailed {e : RunError} : Triple I (Foundation.persistenceFailed e) (Ended I) E := by
  apply Triple.bind
  · exact hd.modifyState fun _ => ⟨.inr (hd.usual .failed rfl), rfl⟩
  intro _
  exact result_status

theorem runFailed {e : RunError} (hE : ∀ e w, E e w → I w) : Triple I (f.runFailed env e) (Ended I) E := by
  apply Triple.read_keep
  intro w _
  apply Triple.bind (when_keeps (hd.moveTo (hd.usual _ rfl)))
  intro _
  apply Triple.bind
  · exact hd.modifyState fun _ => ⟨.inr (hd.usual .failed rfl), rfl⟩
  intro _
  apply Triple.bind (Q := fun _ => I)
  · refine Triple.handle (Triple.bind (hd.auditTo rfl (hd.usual _ rfl)) fun _ => ?_) fun e' => ?_
    · exact journaled_keeps (hd.save (hd.usual .failed rfl) rfl rfl)
    · exact Triple.ret fun w hw => hE e' w hw
  intro _
  exact result_status

end Upkeep

namespace Discipline

variable {f : Foundation} {env : Env} {allowed : RunStatus → Prop} {I : World → Prop} {E : RunError → World → Prop}
  (hd : Discipline env allowed I E)

include hd

/-- The policy gate, given what its approving branch does. -/
theorem runPolicyGate [UnicodeData] {F : RunError → World → Prop} {Q : FoundationResult → World → Prop}
    {classification : FailureClassification} {proposal : RepairProposal} {evaluation : EvaluationResult}
    (hE : ∀ e w, E e w → I w) (hF : ∀ e w, E e w → F e w)
    (happrove : ∀ context decision refs, context.evaluation = evaluation → f.evaluatePolicy context = .ok decision →
      decision.outcome = .approve → Triple I (f.approveBranch env decision refs) Q F)
    (hQ : ∀ r w, Ended I r w → Q r w) :
    Triple I (f.runPolicyGate env classification proposal evaluation) Q F :=
  hd.upkeep.runPolicyGate (hd.usual _ (by decide)) hF happrove
    (fun _ _ => (hd.upkeep.rejectBranch (hd.usual _ (by decide))).mono (fun _ h => h) hQ hF)
    fun _ _ _ => (hd.upkeep.escalateBranch (hd.usual _ (by decide)) hE).mono (fun _ h => h) hQ hF

end Discipline

/-- `I` looks at the journal and the statuses only. -/
def IgnoresHistory (I : World → Prop) : Prop :=
  ∀ w w' : World, w'.journal = w.journal → w'.machine = w.machine → w'.state.status = w.state.status → I w → I w'

namespace Upkeep

variable [UnicodeData] {f : Foundation} {env : Env} {allowed : RunStatus → Prop} {I : World → Prop}
  {E E' : RunError → World → Prop} {Q : FoundationResult → World → Prop} {event : FailureEvent}
  (hd : Upkeep env allowed I E) (hevaluated : allowed .evaluated) (hI : IgnoresHistory I) (hE : ∀ e w, E e w → E' e w)
  (hended : ∀ r w, Ended I r w → Q r w)
  (htools : ∀ n context steps, Triple I (f.toolSteps env n event context 0 steps) (fun _ => I) E')
  (hsandbox : ∀ n plan proposal, Triple I (f.sandboxStage env n plan proposal) (fun _ => I) E')
  (hgate : ∀ n classification proposal sandbox evaluation, f.evaluate n proposal sandbox = .ok evaluation →
    evaluation.passed = true → Triple (fun w => w.state.evaluation = some evaluation ∧ I w)
      (f.runPolicyGate env classification proposal evaluation) Q E')

include hd hevaluated hI hE hended htools hsandbox hgate

/-- One pass of the loop, from its tool, sandbox and policy steps. -/
theorem attempt (n : Nat) :
    Triple I (f.attempt env event n) (fun outcome w => outcome.elim (I w) fun r => Q r w) E' := by
  have weaken : ∀ {α : Type} {x : Run α} {R : α → World → Prop}, Triple I x R E → Triple I x R E' :=
    fun hx => hx.mono (fun _ h => h) (fun _ _ h => h) hE
  apply Triple.bind (Q := fun _ => I)
  · exact Triple.update fun w hw => hI w _ rfl rfl rfl hw
  intro _
  apply Triple.bind (weaken hd.buildContextStage)
  intro context
  apply Triple.bind (weaken hd.classifyStage)
  intro classification
  apply Triple.bind (weaken hd.startAttempt)
  intro _
  apply Triple.bind (weaken hd.planStage)
  intro plan
  apply Triple.bind (weaken (hd.moveTo (hd.usual _ rfl)))
  intro _
  apply Triple.bind (htools n context plan.steps)
  intro _
  apply Triple.bind
  · exact weaken (Upkeep.proposeStage (fun _ => hd) hd.raised fun w _ hw => hI w _ rfl rfl rfl hw)
  intro proposal
  apply Triple.bind (hsandbox n plan proposal)
  intro sandbox
  apply Triple.bind (weaken (hd.evaluateStage hevaluated fun w _ hw => hI w _ rfl rfl rfl hw))
  intro evaluation
  have hs := (hd.framed (some evaluation)).side (f.evaluate n proposal sandbox = .ok evaluation)
  apply Triple.bind (Q := fun _ w => f.evaluate n proposal sandbox = .ok evaluation ∧
    w.state.evaluation = some evaluation ∧ I w)
  · refine (hs.recordStage ?_).mono (fun _ h => h) (fun _ _ h => h) fun e w h => hE e w h.2
    exact fun w hw => ⟨hw.1, hw.2.1, hI w _ rfl rfl rfl hw.2.2⟩
  intro _
  apply Triple.cond
  · intro hpassed
    apply Triple.map
    intro w hw
    exact hgate n classification proposal sandbox evaluation hw.1 hpassed w hw.2
  · intro _
    refine Triple.mono (P := I) ?_ (fun _ h => h.2.2) (fun _ _ h => h) fun _ _ h => h
    apply Triple.bind
    · exact weaken (hd.decideStage (fun _ => hd) fun w hw => hI w _ rfl rfl rfl hw)
    intro decision
    apply Triple.cond
    · intro _
      apply Triple.bind (weaken hd.startRetry)
      intro _
      exact Triple.ret fun _ hw => hw
    · intro _
      apply Triple.map
      exact hd.stopRun.mono (fun _ h => h) hended hE

theorem attempts (count n : Nat) :
    Triple I (f.attempts env event n count) (fun outcome w => outcome.elim (I w) fun r => Q r w) E' := by
  induction count generalizing n with
  | zero => exact Triple.ret fun _ hw => hw
  | succ count ih =>
    apply Triple.bind (hd.attempt hevaluated hI hE hended htools hsandbox hgate n)
    intro outcome
    cases outcome with
    | some r => exact Triple.ret fun _ hw => hw
    | none => exact ih (n + 1)

theorem runBody {P : World → Prop} (hopen : Triple P (f.openRun env event) (fun _ => I) E') :
    Triple P (f.runBody env event) Q E' := by
  apply Triple.bind (Q := fun outcome w => outcome.elim (I w) fun r => Q r w)
  · apply Triple.bind hopen
    intro _
    exact hd.attempts hevaluated hI hE hended htools hsandbox hgate _ 1
  intro outcome
  cases outcome with
  | some r => exact Triple.ret fun _ hw => hw
  | none => exact hd.exhausted.mono (fun _ h => h) hended hE

end Upkeep

end FailureOrchestrator
