import FailureOrchestrator.RunRules

namespace FailureOrchestrator

open Exec RunPersistence

/-- A property of a journal that no store call and no new run state ends. -/
structure Lasting (P : Journal → Prop) : Prop where
  call : ∀ j op done, P j → P (j.call op done)
  hold : ∀ j d, P j → P (j.hold d)

def Journal.Live (j : Journal) : Prop := j.durable.isSome = true

/-- A store call has failed. -/
def Journal.Refused (j : Journal) : Prop := ∃ call ∈ j.trace, call.done = false

theorem lasting_live : Lasting Journal.Live where
  call _ _ _ h := h
  hold _ _ _ := rfl

theorem lasting_refused : Lasting Journal.Refused where
  call j op done h := by
    obtain ⟨call, hmem, hfailed⟩ := h
    exact ⟨call, List.mem_append_left _ hmem, hfailed⟩
  hold _ _ h := h

theorem Journal.refused_call (j : Journal) (op : StoreOp) : (j.call op false).Refused :=
  ⟨⟨op, false⟩, List.mem_append_right _ (List.mem_singleton_self _), rfl⟩

section Journals

variable {env : Env} {P : Journal → Prop} (h : Lasting P)

include h

theorem Lasting.perform (op : StoreOp) : Keeps P (perform env op) := by
  intro j hj
  unfold FailureOrchestrator.perform
  cases ((j.store env).refusal op).or (env.fails j.trace.length) with
  | some message => exact h.call j op false hj
  | none => exact h.call j op true hj

theorem Lasting.holds (d : DurableRunState) :
    Keeps P (update fun j => { j with durable := some d } : Exec Journal RunError Unit) :=
  fun j hj => h.hold j d hj

omit h in
theorem keeps_durable : Keeps P durable := Keeps.read_bind fun _ _ => Keeps.lift

theorem Lasting.emit {t : AuditEventType} {before after : Option Str} {refs : List DurableEvidenceRef} :
    Keeps P (emit env t before after refs) := by
  refine Keeps.bind keeps_durable fun d => ?_
  refine Keeps.read_bind fun j _ => ?_
  refine Keeps.bind (h.perform _) fun _ => ?_
  refine Keeps.bind (h.holds _) fun _ => ?_
  exact h.perform _

theorem Lasting.checkpoint {c : Checkpoint} : Keeps P (checkpoint env c) := by
  refine Keeps.bind keeps_durable fun d => ?_
  refine Keeps.bind (h.holds _) fun _ => ?_
  exact h.perform _

theorem Lasting.writeJson {kind : String} {value : Json} {name : Str} : Keeps P (writeJson env kind value name) := by
  refine Keeps.bind keeps_durable fun _ => ?_
  refine Keeps.bind (h.perform _) fun _ => ?_
  exact Keeps.ret

theorem Lasting.writeText {kind : String} {content name : Str} {maxChars : Nat} :
    Keeps P (writeText env kind content name maxChars) := by
  refine Keeps.bind keeps_durable fun _ => ?_
  refine Keeps.bind (h.perform _) fun _ => ?_
  exact Keeps.ret

theorem Lasting.record {kind : String} {document : Json} {name : Str} {field : RefField} {t : AuditEventType}
    {before : Option RunStatus} {after : RunStatus} :
    Keeps P (Foundation.record env kind document name field t before after) := by
  refine Keeps.bind h.writeJson fun _ => ?_
  refine Keeps.bind h.checkpoint fun _ => ?_
  exact h.emit

end Journals

/-- What the policy gate is asked about, as the run's state has it. -/
structure RunCore where
  event : FailureEvent
  classification : Option FailureClassification
  proposal : Option RepairProposal
  evaluation : Option EvaluationResult
  policyDecision : Option PolicyDecision

def RunState.core (s : RunState) : RunCore := ⟨s.event, s.classification, s.proposal, s.evaluation, s.policyDecision⟩

/-- A property of the journal, and one of what the gate is asked about. -/
def Known (P : Journal → Prop) (K : RunCore → Prop) (w : World) : Prop := P w.journal ∧ K w.state.core

section Steps

variable {f : Foundation} {env : Env} {P : Journal → Prop} {K : RunCore → Prop}

theorem known_onJournal {α : Type} {x : Exec Journal RunError α} (hx : Keeps P x) : Keeps (Known P K) (onJournal x) :=
  fun w hw => ⟨hx w.journal hw.1, hw.2⟩

theorem keeps_when {I : World → Prop} {c : Prop} [Decidable c] {x : Run Unit} (hx : Keeps I x) : Keeps I (when c x) :=
  Keeps.cond hx Keeps.ret

theorem known_journaled {x : Exec Journal RunError Unit} (hx : Keeps P x) : Keeps (Known P K) (f.journaled x) :=
  keeps_when (known_onJournal hx)

theorem known_audit (hP : Lasting P) {t : AuditEventType} {before after : Option RunStatus}
    {refs : List DurableEvidenceRef} : Keeps (Known P K) (f.audit env t before after refs) :=
  known_journaled hP.emit

theorem known_moveTo {target : RunStatus} {reason : Str} : Keeps (Known P K) (moveTo target reason) := by
  refine Keeps.read_bind fun w _ => ?_
  refine Keeps.bind Keeps.lift fun machine => ?_
  exact Keeps.update fun w hw => hw

theorem known_modify {g : RunState → RunState} (hg : ∀ s, (g s).core = s.core) : Keeps (Known P K) (modifyState g) :=
  Keeps.update fun w hw => ⟨hw.1, (hg w.state).symm ▸ hw.2⟩

/-- A step that keeps what is known keeps that the gate has not decided. -/
theorem Known.undecided {α : Type} {x : Run α} (hx : Keeps (Known P fun k => K k ∧ k.policyDecision = none) x) :
    Triple (Known P fun k => K k ∧ k.policyDecision = none) x (fun _ => Known P fun k => K k ∧ k.policyDecision = none)
      (fun _ => Known P fun k => k.policyDecision = none) :=
  hx.triple.mono (fun _ h => h) (fun _ _ h => h) fun _ _ h => ⟨h.1, h.2.2⟩

end Steps

section Stages

variable {f : Foundation} {env : Env} {P : Journal → Prop} {K : RunCore → Prop} {n : Nat} {event : FailureEvent}

theorem known_buildContext (hP : Lasting P) : Keeps (Known P K) (f.buildContextStage env n event) := by
  refine Keeps.read_bind fun w _ => ?_
  refine Keeps.bind Keeps.lift fun context => ?_
  refine Keeps.bind ?_ fun _ => ?_
  · apply keeps_when
    refine Keeps.bind known_moveTo fun _ => ?_
    exact known_audit hP
  refine Keeps.bind (known_modify fun _ => rfl) fun _ => ?_
  exact Keeps.ret

/-- The run keeps the classification that it goes on with. -/
theorem known_classify (hP : Lasting P) :
    Triple (Known P fun k => k.policyDecision = none) (f.classifyStage env n event)
      (fun c => Known P fun k => k.classification = some c ∧ k.policyDecision = none)
      (fun _ => Known P fun k => k.policyDecision = none) := by
  apply Triple.read_keep
  intro w _
  apply Triple.bind Keeps.lift.triple
  intro classification
  apply Triple.bind (keeps_when known_moveTo).triple
  intro _
  apply Triple.bind (Q := fun _ => Known P fun k => k.classification = some classification ∧ k.policyDecision = none)
  · exact Triple.update fun w hw => ⟨hw.1, rfl, hw.2⟩
  intro _
  apply Triple.bind (Known.undecided (keeps_when (known_journaled hP.record)))
  intro _
  exact Triple.ret fun _ hw => hw

theorem known_startAttempt (hP : Lasting P) : Keeps (Known P K) (f.startAttempt env n) := by
  refine Keeps.read_bind fun w _ => ?_
  apply known_journaled
  refine Keeps.bind hP.emit fun _ => ?_
  exact hP.checkpoint

theorem known_plan (hP : Lasting P) {context : FailureContext} {classification : FailureClassification} :
    Keeps (Known P K) (f.planStage env n context classification) := by
  refine Keeps.read_bind fun w _ => ?_
  refine Keeps.bind Keeps.lift fun plan => ?_
  refine Keeps.bind ?_ fun _ => ?_
  · exact Keeps.cond known_moveTo (keeps_when known_moveTo)
  refine Keeps.bind (known_modify fun _ => rfl) fun _ => ?_
  refine Keeps.read_bind fun w' _ => ?_
  refine Keeps.bind (known_journaled hP.record) fun _ => ?_
  exact Keeps.ret

theorem known_toolSteps (hP : Lasting P) {context : FailureContext} {steps : List PlanStep} (index : Nat) :
    Keeps (Known P K) (f.toolSteps env n event context index steps) := by
  induction steps generalizing index with
  | nil => exact Keeps.ret
  | cons step rest ih =>
    refine Keeps.bind ?_ fun _ => ?_
    · refine Keeps.bind Keeps.lift fun forceFail => ?_
      refine Keeps.bind (known_audit hP) fun _ => ?_
      refine Keeps.bind Keeps.lift fun call => ?_
      refine Keeps.bind (Keeps.update fun w hw => hw) fun _ => ?_
      apply known_journaled
      refine Keeps.bind hP.writeJson fun _ => ?_
      exact hP.emit
    exact ih (index + 1)

/-- The run keeps the proposal that it goes on with. -/
theorem known_propose (hP : Lasting P) {context : FailureContext} {plan : RepairPlan} {c : FailureClassification} :
    Triple (Known P fun k => k.classification = some c ∧ k.policyDecision = none)
      (f.proposeStage env n event context plan c)
      (fun p => Known P fun k => (k.classification = some c ∧ k.proposal = some p) ∧ k.policyDecision = none)
      (fun _ => Known P fun k => k.policyDecision = none) := by
  apply Triple.bind (Known.undecided Keeps.lift)
  intro proposal
  apply Triple.bind (Q := fun _ => Known P fun k => k.classification = some c ∧ k.policyDecision = none)
  · exact Triple.update fun w hw => hw
  intro _
  apply Triple.read_keep
  intro w _
  apply Triple.bind (Known.undecided known_moveTo)
  intro _
  apply Triple.bind (Q := fun _ => Known P fun k =>
    (k.classification = some c ∧ k.proposal = some proposal) ∧ k.policyDecision = none)
  · exact Triple.update fun w hw => ⟨hw.1, ⟨hw.2.1, rfl⟩, hw.2.2⟩
  intro _
  apply Triple.bind (Q := fun _ => Known P fun k =>
    (k.classification = some c ∧ k.proposal = some proposal) ∧ k.policyDecision = none)
  · apply Known.undecided
    apply known_journaled
    refine Keeps.bind hP.writeJson fun _ => ?_
    refine Keeps.bind hP.writeText fun _ => ?_
    refine Keeps.bind hP.checkpoint fun _ => ?_
    exact hP.emit
  intro _
  exact Triple.ret fun _ hw => hw

theorem known_sandbox (hP : Lasting P) {plan : RepairPlan} {proposal : RepairProposal} :
    Keeps (Known P K) (f.sandboxStage env n plan proposal) := by
  refine Keeps.read_bind fun w _ => ?_
  refine Keeps.bind known_moveTo fun _ => ?_
  refine Keeps.bind (known_audit hP) fun _ => ?_
  refine Keeps.bind Keeps.lift fun targetFails => ?_
  refine Keeps.bind Keeps.lift fun sandbox => ?_
  refine Keeps.bind (known_modify fun _ => rfl) fun _ => ?_
  refine Keeps.bind ?_ fun _ => ?_
  · apply known_journaled
    refine Keeps.bind hP.writeJson fun _ => ?_
    exact hP.emit
  exact Keeps.ret

/-- The run keeps the evaluation that it goes on with. -/
theorem known_evaluate (hP : Lasting P) {c : FailureClassification} {p : RepairProposal} {sandbox : SandboxResult} :
    Triple (Known P fun k => (k.classification = some c ∧ k.proposal = some p) ∧ k.policyDecision = none)
      (f.evaluateStage env n p sandbox)
      (fun e => Known P fun k => (k.classification = some c ∧ k.proposal = some p ∧ k.evaluation = some e) ∧
        k.policyDecision = none)
      (fun _ => Known P fun k => k.policyDecision = none) := by
  apply Triple.bind (Known.undecided known_moveTo)
  intro _
  apply Triple.bind (Known.undecided Keeps.lift)
  intro evaluation
  apply Triple.bind (Known.undecided known_moveTo)
  intro _
  apply Triple.bind (Q := fun _ => Known P fun k =>
    (k.classification = some c ∧ k.proposal = some p ∧ k.evaluation = some evaluation) ∧ k.policyDecision = none)
  · exact Triple.update fun w hw => ⟨hw.1, ⟨hw.2.1.1, hw.2.1.2, rfl⟩, hw.2.2⟩
  intro _
  apply Triple.bind (Known.undecided (known_journaled hP.record))
  intro _
  exact Triple.ret fun _ hw => hw

theorem known_record [UnicodeData] (hP : Lasting P) {classification : FailureClassification} {plan : RepairPlan}
    {proposal : RepairProposal} {sandbox : SandboxResult} {evaluation : EvaluationResult} :
    Keeps (Known P K) (f.recordStage env n event classification plan proposal sandbox evaluation) := by
  refine Keeps.read_bind fun w _ => ?_
  refine Keeps.bind (Keeps.update fun w' hw => hw) fun _ => ?_
  refine Keeps.bind ?_ fun _ => ?_
  · apply known_journaled
    refine Keeps.bind hP.writeJson fun _ => ?_
    exact Keeps.ret
  exact known_modify fun _ => rfl

theorem known_decide (hP : Lasting P) {evaluation : EvaluationResult} : Keeps (Known P K) (f.decideStage env n evaluation) := by
  refine Keeps.bind known_moveTo fun _ => ?_
  refine Keeps.read_bind fun w _ => ?_
  refine Keeps.bind (Keeps.update fun w' hw => hw) fun _ => ?_
  refine Keeps.bind (known_journaled hP.record) fun _ => ?_
  exact Keeps.ret

theorem known_startRetry (hP : Lasting P) {decision : RetryDecision} : Keeps (Known P K) (f.startRetry env decision) := by
  refine Keeps.bind known_moveTo fun _ => ?_
  refine Keeps.bind (known_audit hP) fun _ => ?_
  exact known_journaled hP.checkpoint

end Stages

end FailureOrchestrator
