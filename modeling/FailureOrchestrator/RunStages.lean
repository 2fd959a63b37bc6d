import FailureOrchestrator.RunRules

namespace FailureOrchestrator

open Exec RunPersistence

namespace Upkeep

variable {f : Foundation} {env : Env} {allowed : RunStatus → Prop} {I : World → Prop} {E : RunError → World → Prop}
  (hd : Upkeep env allowed I E)

include hd

theorem buildContextStage {n : Nat} {event : FailureEvent} :
    Triple I (f.buildContextStage env n event) (fun _ => I) E := by
  apply Triple.read_keep
  intro w hw
  apply Triple.bind hd.collaborator
  intro context
  apply Triple.bind
  · apply when_keeps
    apply Triple.bind (hd.moveTo (hd.usual _ rfl))
    intro _
    exact hd.auditTo rfl (hd.usual _ rfl)
  intro _
  apply Triple.bind
  · exact hd.modifyState fun _ => ⟨.inl rfl, rfl⟩
  intro _
  exact Triple.ret fun _ hw => hw

theorem classifyStage {n : Nat} {event : FailureEvent} :
    Triple I (f.classifyStage env n event) (fun _ => I) E := by
  apply Triple.read_keep
  intro w hw
  apply Triple.bind hd.collaborator
  intro classification
  apply Triple.bind (when_keeps (hd.moveTo (hd.usual _ rfl)))
  intro _
  apply Triple.bind
  · exact hd.modifyState fun _ => ⟨.inl rfl, rfl⟩
  intro _
  apply Triple.bind (when_keeps (journaled_keeps (hd.record rfl (hd.usual _ rfl))))
  intro _
  exact Triple.ret fun _ hw => hw

theorem startAttempt {n : Nat} : Triple I (f.startAttempt env n) (fun _ => I) E := by
  apply Triple.read_keep
  intro w hw
  apply journaled_keeps
  apply onJournal_bind
  · exact hd.emit _ _ none _ rfl fun _ h => nomatch h
  intro _
  exact hd.save (hd.live w hw).1 rfl rfl

theorem planStage {n : Nat} {context : FailureContext} {classification : FailureClassification} :
    Triple I (f.planStage env n context classification) (fun _ => I) E := by
  apply Triple.read_keep
  intro w hw
  apply Triple.bind hd.collaborator
  intro plan
  apply Triple.bind
  · exact Triple.cond (fun _ => hd.moveTo (hd.usual _ rfl))
      fun _ => when_keeps (hd.moveTo (hd.usual _ rfl))
  intro _
  apply Triple.bind
  · exact hd.modifyState fun _ => ⟨.inl rfl, rfl⟩
  intro _
  apply Triple.read_keep
  intro w' hw'
  apply Triple.bind (journaled_keeps (hd.record rfl (hd.live w' hw').1))
  intro _
  exact Triple.ret fun _ hw => hw

/-- A tool step, where the call it opens is part of the discipline. -/
theorem toolStep {n index : Nat} {event : FailureEvent} {context : FailureContext} {step : PlanStep}
    (hcalled : Triple I (f.audit env .toolCalled none none) (fun _ => I) E) :
    Triple I (f.toolStep env n index event context step) (fun _ => I) E := by
  apply Triple.bind hd.collaborator
  intro forceFail
  apply Triple.bind hcalled
  intro _
  apply Triple.bind hd.collaborator
  intro call
  apply Triple.bind (Q := fun _ => I)
  · exact Triple.update fun w hw => hd.tools w _ _ hw
  intro _
  apply journaled_keeps
  apply onJournal_bind hd.writeJson
  intro ref
  exact (hd.emit _ _ none _ rfl fun _ h => nomatch h).mono (fun _ hw => hw.2) (fun _ _ h => h) fun _ _ h => h

theorem toolSteps {n : Nat} {event : FailureEvent} {context : FailureContext} {steps : List PlanStep}
    (hcalled : Triple I (f.audit env .toolCalled none none) (fun _ => I) E) (index : Nat) :
    Triple I (f.toolSteps env n event context index steps) (fun _ => I) E := by
  induction steps generalizing index with
  | nil => exact Triple.ret fun _ hw => hw
  | cons step rest ih =>
    apply Triple.bind (hd.toolStep hcalled)
    intro _
    exact ih (index + 1)

/-- A sandbox run, where the call it opens is part of the discipline. -/
theorem sandboxStage {n : Nat} {plan : RepairPlan} {proposal : RepairProposal}
    (hstarted : ∀ before, Triple I (f.audit env .sandboxStarted before (some .sandboxRunning)) (fun _ => I) E) :
    Triple I (f.sandboxStage env n plan proposal) (fun _ => I) E := by
  apply Triple.read_keep
  intro w hw
  apply Triple.bind (hd.moveTo (hd.usual _ rfl))
  intro _
  apply Triple.bind (hstarted _)
  intro _
  apply Triple.bind hd.collaborator
  intro targetFails
  apply Triple.bind hd.collaborator
  intro sandbox
  apply Triple.bind
  · exact hd.modifyState fun _ => ⟨.inl rfl, rfl⟩
  intro _
  apply Triple.bind (Q := fun _ => I)
  · apply journaled_keeps
    apply onJournal_bind hd.writeJson
    intro ref
    exact (hd.emit _ _ none _ rfl fun _ h => nomatch h).mono (fun _ hw => hw.2) (fun _ _ h => h) fun _ _ h => h
  intro _
  exact Triple.ret fun _ hw => hw

omit hd

/-- The proposal is added to the history between `P` and `J`. -/
theorem proposeStage {P : World → Prop} {J : RepairProposal → World → Prop} {n : Nat} {event : FailureEvent}
    {context : FailureContext} {plan : RepairPlan} {classification : FailureClassification}
    (hJ : ∀ proposal, Upkeep env allowed (J proposal) E) (hraised : ∀ e w, P w → E e w)
    (hproposed : ∀ w proposal, P w → J proposal { w with proposals := w.proposals ++ [proposal] }) :
    Triple P (f.proposeStage env n event context plan classification) J E := by
  apply Triple.bind (Q := fun _ => P)
  · exact Triple.lift (fun _ _ _ hw => hw) fun e _ w hw => hraised e w hw
  intro proposal
  have hd := hJ proposal
  apply Triple.bind (Q := fun _ => J proposal)
  · exact Triple.update fun w hw => hproposed w proposal hw
  intro _
  apply Triple.read_keep
  intro w hw
  apply Triple.bind (hd.moveTo (hd.usual _ rfl))
  intro _
  apply Triple.bind
  · exact hd.modifyState fun _ => ⟨.inl rfl, rfl⟩
  intro _
  apply Triple.bind (Q := fun _ => J proposal)
  · apply journaled_keeps
    apply onJournal_bind hd.writeJson
    intro ref
    apply onJournal_bind (hd.holding ref.ref).writeText
    intro patchRef
    apply onJournal_bind
    · exact (hd.saveRef (hd.usual .proposalReady rfl) rfl rfl).mono (fun _ hw => hw.2) (fun _ _ h => h) fun _ _ h => h
    intro _
    apply hd.emit _ _ (some .proposalReady) _ rfl
    rintro s ⟨⟩
    exact hd.usual _ rfl
  intro _
  exact Triple.ret fun _ hw => hw

/-- The evaluation that is returned is one the evaluator made, and the state keeps it. -/
theorem evaluateStage (hd : Upkeep env allowed I E) (hevaluated : allowed .evaluated) {n : Nat}
    {proposal : RepairProposal} {sandbox : SandboxResult}
    (hset : ∀ w evaluation, I w → I { w with state := { w.state with evaluation := some evaluation } }) :
    Triple I (f.evaluateStage env n proposal sandbox)
      (fun evaluation w => f.evaluate n proposal sandbox = .ok evaluation ∧ w.state.evaluation = some evaluation ∧ I w)
      E := by
  apply Triple.bind (hd.moveTo (hd.usual _ rfl))
  intro _
  apply Triple.bind
  · exact Triple.lift (Q := fun evaluation w => f.evaluate n proposal sandbox = .ok evaluation ∧ I w)
      (fun _ hr _ hw => ⟨hr, hw⟩) fun e _ w hw => hd.raised e w hw
  intro evaluation
  have hs := hd.side (f.evaluate n proposal sandbox = .ok evaluation)
  apply Triple.bind (hs.moveTo hevaluated)
  intro _
  have hkept := (hd.framed (some evaluation)).side (f.evaluate n proposal sandbox = .ok evaluation)
  apply Triple.bind (Q := fun _ w => f.evaluate n proposal sandbox = .ok evaluation ∧
    w.state.evaluation = some evaluation ∧ I w)
  · exact Triple.update fun w hw => ⟨hw.1, rfl, hset w evaluation hw.2⟩
  intro _
  apply Triple.bind
  · exact (journaled_keeps (hkept.record rfl hevaluated)).mono (fun _ h => h) (fun _ _ h => h) fun _ _ h => h.2
  intro _
  exact Triple.ret fun _ hw => hw

end Upkeep

end FailureOrchestrator
