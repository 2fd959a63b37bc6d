import FailureOrchestrator.RunAccount
import FailureOrchestrator.SyncedEnd

namespace FailureOrchestrator

open Exec RunPersistence

section Gates

variable [UnicodeData] {f : Foundation} {env : Env} {k : RunCore} {past : RunPast} {status : RunStatus}

/-- A run that was told its status and has no escalated decision is settled. -/
theorem settled_of_told {P : Journal → Prop} {w : World} {text : Str} (hw : AtGate P k status past w)
    (htold : Told env text w.journal) (hk : ∀ d, k.policyDecision = some d → d.outcome ≠ .escalate) : f.Settled env w := by
  refine .inr ⟨fun _ d hd hescalate => absurd hescalate (hk d ?_), fun _ => htold.explained⟩
  rw [← hw.core]
  exact hd

theorem refused_accounted {w : World} (h : w.journal.Refused) : f.Settled env w := .inl h

theorem approve_accounted (hp : f.persistence = true) {decision : PolicyDecision} {refs : List DurableEvidenceRef}
    (hk : k.policyDecision = some decision) (ho : decision.outcome ≠ .escalate) :
    Triple (AtGate Journal.Live k .policyReview past) (f.approveBranch env decision refs) (fun _ => f.Settled env)
      (fun _ w => w.journal.Refused) := by
  apply Triple.bind (gate_moveTo (by decide))
  intro _
  apply Triple.bind
  · exact gate_modify fun _ h => h
  intro _
  apply Triple.bind (gate_journaled hp emit_told)
  intro _
  apply Triple.bind (gate_journaled hp (emit_told.mono (fun _ => told_live) (fun _ _ h => h) fun _ _ h => h))
  intro _
  apply Triple.bind (gate_journaled hp (checkpoint_told rfl))
  intro _
  refine result_keeps.mono (fun _ h => h) (fun _ w hw => ?_) fun _ _ h => h
  refine settled_of_told hw hw.journal fun d hd => ?_
  cases hk.symm.trans hd
  exact ho

theorem reject_accounted (hp : f.persistence = true) {decision : PolicyDecision} {refs : List DurableEvidenceRef}
    (hk : k.policyDecision = some decision) (ho : decision.outcome ≠ .escalate) :
    Triple (AtGate Journal.Live k .policyReview past) (f.rejectBranch env decision refs) (fun _ => f.Settled env)
      (fun _ w => w.journal.Refused) := by
  apply Triple.bind (gate_moveTo (by decide))
  intro _
  apply Triple.bind
  · exact gate_modify fun _ h => h
  intro _
  apply Triple.bind (gate_journaled hp emit_told)
  intro _
  apply Triple.bind (gate_journaled hp (checkpoint_told rfl))
  intro _
  refine result_keeps.mono (fun _ h => h) (fun _ w hw => ?_) fun _ _ h => h
  refine settled_of_told hw hw.journal fun d hd => ?_
  cases hk.symm.trans hd
  exact ho

section Escalation

variable {decision : PolicyDecision} {classification : FailureClassification} {proposal : RepairProposal}
  {evaluation : EvaluationResult}

/-- What the package of a run needs. -/
def Foundation.Packs (f : Foundation) (decision : PolicyDecision) (classification : FailureClassification)
    (proposal : RepairProposal) (evaluation : EvaluationResult) (event : FailureEvent) (past : RunPast) : Prop :=
  ∃ escalation artifacts, f.buildEscalation decision proposal evaluation past.attempts classification event
      (buildPolicyContext proposal evaluation (some classification) past.toolsUsed past.toolRisks past.attempts.length
        f.policyConfig) = .ok escalation ∧
    f.writeEscalation escalation proposal evaluation = .ok artifacts

theorem packaged_iff {P : Journal → Prop} {event : FailureEvent} {w : World}
    (hw : AtGate P ⟨event, some classification, some proposal, some evaluation, some decision⟩ status past w)
    (ho : decision.outcome = .escalate) :
    f.Packaged w ↔ f.Packs decision classification proposal evaluation event past := by
  have hevent : w.state.event = event := congrArg RunCore.event hw.core
  have hclassification : w.state.classification = some classification := congrArg RunCore.classification hw.core
  have hproposal : w.state.proposal = some proposal := congrArg RunCore.proposal hw.core
  have hevaluation : w.state.evaluation = some evaluation := congrArg RunCore.evaluation hw.core
  have hdecision : w.state.policyDecision = some decision := congrArg RunCore.policyDecision hw.core
  have hattempts : w.attempts = past.attempts := congrArg RunPast.attempts hw.past
  have hused : w.toolsUsed = past.toolsUsed := congrArg RunPast.toolsUsed hw.past
  have hrisks : w.toolRisks = past.toolRisks := congrArg RunPast.toolRisks hw.past
  constructor
  · intro h
    obtain ⟨c, p, e, escalation, artifacts, hc, hpr, he, hbuild, hwrite⟩ := h decision hdecision ho
    cases hclassification.symm.trans hc
    cases hproposal.symm.trans hpr
    cases hevaluation.symm.trans he
    rw [hevent, hattempts, hused, hrisks] at hbuild
    exact ⟨escalation, artifacts, hbuild, hwrite⟩
  · rintro ⟨escalation, artifacts, hbuild, hwrite⟩ d hd -
    cases hdecision.symm.trans hd
    refine ⟨classification, proposal, evaluation, escalation, artifacts, hclassification, hproposal, hevaluation, ?_, hwrite⟩
    rw [hevent, hattempts, hused, hrisks]
    exact hbuild

/-- The package is made, or nothing but the missing package stands in the way. -/
theorem escalate_accounted (hp : f.persistence = true) {event : FailureEvent} (ho : decision.outcome = .escalate) :
    Triple (AtGate (Last env RunStatus.escalated.value)
        ⟨event, some classification, some proposal, some evaluation, some decision⟩ .escalated past)
      (f.escalate env decision (buildPolicyContext proposal evaluation (some classification) past.toolsUsed past.toolRisks
        past.attempts.length f.policyConfig) classification proposal evaluation)
      (fun _ => f.Settled env)
      (fun _ w => w.journal.Refused ∨
        AtGate (Last env RunStatus.escalated.value)
          ⟨event, some classification, some proposal, some evaluation, some decision⟩ .escalationBuilding past w ∧
        ¬ f.Packs decision classification proposal evaluation event past) := by
  have weaken : ∀ {α : Type} {x : Run α} {I : World → Prop} {R : α → World → Prop} {D : RunError → World → Prop},
      Triple I x R (fun _ w => w.journal.Refused) → Triple I x R fun e w => w.journal.Refused ∨ D e w :=
    fun hx => hx.mono (fun _ h => h) (fun _ _ h => h) fun _ _ h => .inl h
  apply Triple.bind (gate_moveTo (by decide))
  intro _
  apply Triple.bind
  · exact weaken (gate_journaled hp ((checkpoint_last rfl).mono (fun _ h => h) (fun _ _ h => h.1) fun _ _ h => h))
  intro _
  apply Triple.read_bind
  intro w hw
  have hattempts : w.attempts = past.attempts := congrArg RunPast.attempts hw.past
  have hevent : w.state.event = event := congrArg RunCore.event hw.core
  rw [hattempts, hevent]
  refine Triple.mono (P := AtGate (Last env RunStatus.escalated.value)
    ⟨event, some classification, some proposal, some evaluation, some decision⟩ .escalationBuilding past) ?_
    (fun w' hw' => hw' ▸ hw) (fun _ _ h => h) fun _ _ h => h
  cases hbuild : f.buildEscalation decision proposal evaluation past.attempts classification event
    (buildPolicyContext proposal evaluation (some classification) past.toolsUsed past.toolRisks past.attempts.length
      f.policyConfig) with
  | error e =>
    apply Triple.bind (Q := fun _ _ => False)
    · refine Triple.lift (fun _ hr => nomatch hr) fun _ _ w hw => .inr ⟨hw, ?_⟩
      rintro ⟨escalation, artifacts, hbuilt, -⟩
      cases hbuild.symm.trans hbuilt
    · exact fun _ _ hfalse => hfalse.elim
  | ok escalation =>
    apply Triple.bind (Q := fun a w => a = escalation ∧ AtGate (Last env RunStatus.escalated.value)
      ⟨event, some classification, some proposal, some evaluation, some decision⟩ .escalationBuilding past w)
    · refine Triple.lift (fun a hr w hw => ⟨(Except.ok.inj hr).symm, hw⟩) fun _ hr => nomatch hr
    intro a
    apply Triple.given
    rintro rfl
    cases hwrite : f.writeEscalation a proposal evaluation with
    | error e =>
      apply Triple.bind (Q := fun _ _ => False)
      · refine Triple.lift (fun _ hr => nomatch hr) fun _ _ w hw => .inr ⟨hw, ?_⟩
        rintro ⟨escalation, artifacts, hbuilt, hwritten⟩
        cases hbuild.symm.trans hbuilt
        cases hwrite.symm.trans hwritten
      · exact fun _ _ hfalse => hfalse.elim
    | ok artifacts =>
      apply Triple.bind (Q := fun _ => AtGate (Last env RunStatus.escalated.value)
        ⟨event, some classification, some proposal, some evaluation, some decision⟩ .escalationBuilding past)
      · exact Triple.lift (fun _ _ w hw => hw) fun _ hr => nomatch hr
      intro written
      apply Triple.bind (gate_moveTo (by decide))
      intro _
      apply Triple.bind
      · exact gate_modify fun _ h => h
      intro _
      apply Triple.bind (Q := fun _ => AtGate (Told env RunStatus.awaitingHuman.value)
        ⟨event, some classification, some proposal, some evaluation, some decision⟩ .awaitingHuman past)
      · apply weaken
        apply gate_journaled hp
        apply Triple.bind writeJson_last
        intro ref
        apply Triple.bind ((checkpoint_last rfl).mono (fun _ h => h) (fun _ _ h => h.1.1) fun _ _ h => h)
        intro _
        apply Triple.bind emit_live
        intro _
        exact emit_told
      intro _
      refine result_keeps.mono (fun _ h => h) (fun _ w hw => ?_) fun _ _ h => h
      refine .inr ⟨fun _ => (packaged_iff hw ho).mpr ⟨a, artifacts, hbuild, hwrite⟩, fun _ => hw.journal.explained⟩

/-- Without the package the run has a status that no event leaves. -/
theorem escalationFailed_accounted (hp : f.persistence = true) {event : FailureEvent} (ho : decision.outcome = .escalate)
    (hpacks : ¬ f.Packs decision classification proposal evaluation event past) {e : RunError} :
    Triple (AtGate (Last env RunStatus.escalated.value)
        ⟨event, some classification, some proposal, some evaluation, some decision⟩ .escalationBuilding past)
      (f.escalationFailed env decision e) (fun _ => f.Settled env) (fun _ w => w.journal.Refused) := by
  apply Triple.read_keep
  intro w hw
  apply Triple.bind (Q := fun _ => AtGate (Last env RunStatus.escalated.value)
    ⟨event, some classification, some proposal, some evaluation, some decision⟩ .escalationError past)
  · refine Triple.cond (fun _ => gate_moveTo (by decide)) fun hnot => absurd ?_ hnot
    rw [hw.machine]
    decide
  intro _
  apply Triple.bind
  · exact gate_modify fun _ h => h
  intro _
  apply Triple.bind (gate_journaled hp (checkpoint_last rfl))
  intro _
  refine result_keeps.mono (fun _ h => h) (fun _ w hw => ?_) fun _ _ h => h
  have hunexplained := not_explained hw.journal.1 hw.journal.2 (by decide)
  exact .inr ⟨fun h => absurd h hunexplained, fun h => absurd ((packaged_iff hw ho).mp h) hpacks⟩

omit [UnicodeData] in
theorem refused_escalationFailed {e : RunError} :
    Triple (fun w => w.journal.Refused) (f.escalationFailed env decision e) (fun _ w => w.journal.Refused)
      (fun _ w => w.journal.Refused) := by
  have hkeeps : Keeps (Known Journal.Refused fun _ => True) (f.escalationFailed env decision e) := by
    refine Keeps.read_bind fun w _ => ?_
    refine Keeps.bind (keeps_when known_moveTo) fun _ => ?_
    refine Keeps.bind (Keeps.update fun w hw => hw) fun _ => ?_
    refine Keeps.bind (known_journaled lasting_refused.checkpoint) fun _ => ?_
    exact Keeps.read_bind fun _ _ => Keeps.ret
  exact hkeeps.triple.mono (fun _ hw => ⟨hw, trivial⟩) (fun _ _ h => h.1) fun _ _ h => h.1

theorem escalateBranch_accounted (hp : f.persistence = true) {event : FailureEvent} {refs : List DurableEvidenceRef}
    (ho : decision.outcome = .escalate) :
    Triple (AtGate Journal.Live ⟨event, some classification, some proposal, some evaluation, some decision⟩ .policyReview past)
      (f.escalateBranch env decision refs (buildPolicyContext proposal evaluation (some classification) past.toolsUsed
        past.toolRisks past.attempts.length f.policyConfig) classification proposal evaluation)
      (fun _ => f.Settled env) (fun _ w => w.journal.Refused) := by
  apply Triple.bind (gate_moveTo (by decide))
  intro _
  apply Triple.bind (gate_journaled hp (emit_told.mono (fun _ h => h) (fun _ _ h => h.1) fun _ _ h => h))
  intro _
  apply Triple.handle (escalate_accounted hp ho)
  intro e w hw
  rcases hw with hrefused | ⟨hgate, hpacks⟩
  · exact (refused_escalationFailed.mono (fun _ h => h) (fun _ _ h => refused_accounted h) fun _ _ h => h) w hrefused
  · exact escalationFailed_accounted hp ho hpacks w hgate

end Escalation

/-- The run is stored, and its gate has not decided. -/
def Open (w : World) : Prop := Known Journal.Live (fun k => k.policyDecision = none) w

/-- What an exception leaves: nothing decided, or a store call that failed. -/
def Excused (w : World) : Prop := Open w ∨ w.journal.Refused

omit [UnicodeData] in
theorem excused_of_refused {α : Type} {x : Run α} {I : World → Prop} {R : α → World → Prop}
    (hx : Triple I x R fun _ w => w.journal.Refused) : Triple I x R fun _ => Excused :=
  hx.mono (fun _ h => h) (fun _ _ h => h) fun _ _ h => .inr h

omit [UnicodeData] in
theorem excused_of_open {α : Type} {x : Run α} (hx : Keeps Open x) : Triple Open x (fun _ => Open) fun _ => Excused :=
  hx.triple.mono (fun _ h => h) (fun _ _ h => h) fun _ _ h => .inl h

omit [UnicodeData] in
theorem storePolicy_live (hp : f.persistence = true) {decision : PolicyDecision} :
    Triple (AtGate Journal.Live k status past) (f.storePolicy env decision) (fun _ => AtGate Journal.Live k status past)
      (fun _ w => w.journal.Refused) := by
  refine Triple.cond (fun _ => gate_onJournal ?_) fun hnot => absurd hp hnot
  apply Triple.bind writeJson_live
  intro ref
  apply Triple.bind checkpoint_live
  intro _
  exact Triple.ret fun _ hj => hj

theorem gate_accounted (hp : f.persistence = true) {classification : FailureClassification} {proposal : RepairProposal}
    {evaluation : EvaluationResult} :
    Triple (Known Journal.Live fun k => (k.classification = some classification ∧ k.proposal = some proposal ∧
        k.evaluation = some evaluation) ∧ k.policyDecision = none)
      (f.runPolicyGate env classification proposal evaluation) (fun _ => f.Settled env) (fun _ => Excused) := by
  apply Triple.read_bind
  intro w hw
  obtain ⟨hlive, ⟨hclassification, hproposal, hevaluation⟩, hnone⟩ := hw
  have hcore : w.state.core = ⟨w.state.event, some classification, some proposal, some evaluation, none⟩ := by
    rw [← hclassification, ← hproposal, ← hevaluation, ← hnone]
    rfl
  apply Triple.bind (Q := fun _ => AtGate Journal.Live
    ⟨w.state.event, some classification, some proposal, some evaluation, none⟩ .policyReview w.past)
  · apply moveTo_triple
    · rintro w' machine rfl hm
      exact ⟨hlive, hcore, hm, rfl⟩
    · rintro e w' rfl -
      exact .inl ⟨hlive, hnone⟩
  intro _
  apply Triple.bind
  · exact gate_modify fun _ h => h
  intro _
  apply Triple.bind (excused_of_refused (gate_journaled hp emit_live))
  intro _
  apply Triple.bind (Q := fun _ => AtGate Journal.Live
    ⟨w.state.event, some classification, some proposal, some evaluation, none⟩ .policyReview w.past)
  · refine Triple.lift (fun _ _ w' hw' => hw') fun _ _ w' hw' => .inl ⟨hw'.journal, ?_⟩
    rw [hw'.core]
  intro decision
  apply Triple.bind (Q := fun _ => AtGate Journal.Live
    ⟨w.state.event, some classification, some proposal, some evaluation, some decision⟩ .policyReview w.past)
  · refine gate_modify fun s hs => ?_
    show { s.core with policyDecision := some decision } = _
    rw [hs]
  intro _
  apply Triple.bind (excused_of_refused (storePolicy_live hp))
  intro refs
  cases ho : decision.outcome with
  | approve => exact excused_of_refused (approve_accounted hp rfl (by rw [ho]; decide))
  | reject => exact excused_of_refused (reject_accounted hp rfl (by rw [ho]; decide))
  | escalate => exact excused_of_refused (escalateBranch_accounted hp ho)

omit [UnicodeData] in
theorem known_told (hp : f.persistence = true) {K : RunCore → Prop} {P : Journal → Prop} (hP : ∀ j, P j → j.Live)
    {t : AuditEventType} {before : Option RunStatus} {after : RunStatus} {refs : List DurableEvidenceRef} :
    Triple (Known P K) (f.audit env t before (some after) refs) (fun _ => Known (Told env after.value) K)
      (fun _ w => w.journal.Refused) := by
  refine Triple.cond (fun _ => ?_) fun hnot => absurd hp hnot
  refine (onJournal_lift (R := fun w => K w.state.core) (emit_told.mono hP (fun _ _ h => h) fun _ _ h => h)
    fun _ _ hw => hw).mono ?_ ?_ fun _ _ h => h.2
  · exact fun w hw => ⟨hw.2, hw.1⟩
  · exact fun _ w hw => ⟨hw.2, hw.1⟩

omit [UnicodeData] in
theorem known_saved (hp : f.persistence = true) {K : RunCore → Prop} {c : Checkpoint} {text : Str}
    (hc : c.workflowStatus = some text) :
    Triple (Known (Told env text) K) (f.journaled (checkpoint env c)) (fun _ => Known (Told env text) K)
      (fun _ w => w.journal.Refused) := by
  refine Triple.cond (fun _ => ?_) fun hnot => absurd hp hnot
  refine (onJournal_lift (R := fun w => K w.state.core) (checkpoint_told hc) fun _ _ hw => hw).mono ?_ ?_ fun _ _ h => h.2
  · exact fun w hw => ⟨hw.2, hw.1⟩
  · exact fun _ w hw => ⟨hw.2, hw.1⟩

theorem settled_of_open {w : World} {text : Str} (h : Known (Told env text) (fun k => k.policyDecision = none) w) :
    f.Settled env w := by
  refine .inr ⟨fun _ d hd _ => ?_, fun _ => h.1.explained⟩
  cases hd.symm.trans (show w.state.policyDecision = none from h.2)

theorem stopRun_accounted (hp : f.persistence = true) {decision : RetryDecision} :
    Triple Open (f.stopRun env decision) (fun _ => f.Settled env) (fun _ => Excused) := by
  apply Triple.bind (excused_of_open known_moveTo)
  intro _
  apply Triple.bind
  · exact excused_of_open (known_modify fun _ => rfl)
  intro _
  apply Triple.bind (excused_of_refused (known_told hp fun _ h => h))
  intro _
  apply Triple.bind (excused_of_refused (known_told hp fun _ => told_live))
  intro _
  apply Triple.bind (excused_of_refused (known_saved hp rfl))
  intro _
  exact result_keeps.mono (fun _ h => h) (fun _ _ h => settled_of_open h) fun _ _ h => h

theorem exhausted_accounted (hp : f.persistence = true) :
    Triple Open (f.exhausted env) (fun _ => f.Settled env) (fun _ => Excused) := by
  apply Triple.read_keep
  intro w _
  apply Triple.bind (excused_of_open (keeps_when known_moveTo))
  intro _
  apply Triple.bind
  · exact excused_of_open (known_modify fun _ => rfl)
  intro _
  apply Triple.bind (excused_of_refused (known_told hp fun _ h => h))
  intro _
  apply Triple.bind (excused_of_refused (known_saved hp rfl))
  intro _
  exact result_keeps.mono (fun _ h => h) (fun _ _ h => settled_of_open h) fun _ _ h => h

section Loop

variable {event : FailureEvent}

theorem attempt_accounted (hp : f.persistence = true) (n : Nat) :
    Triple Open (f.attempt env event n) (fun outcome w => outcome.elim (Open w) fun _ => f.Settled env w)
      (fun _ => Excused) := by
  have hlive : Lasting Journal.Live := lasting_live
  have undecided : ∀ {α : Type} {x : Run α} {P : World → Prop} {R : α → World → Prop},
      Triple P x R (fun _ => Open) → Triple P x R fun _ => Excused :=
    fun hx => hx.mono (fun _ h => h) (fun _ _ h => h) fun _ _ h => .inl h
  apply Triple.bind (Q := fun _ => Open)
  · exact Triple.update fun w hw => hw
  intro _
  apply Triple.bind (excused_of_open (known_buildContext hlive))
  intro context
  apply Triple.bind (undecided (known_classify hlive))
  intro classification
  apply Triple.bind (undecided (Known.undecided (known_startAttempt hlive)))
  intro _
  apply Triple.bind (undecided (Known.undecided (known_plan hlive)))
  intro plan
  apply Triple.bind (undecided (Known.undecided known_moveTo))
  intro _
  apply Triple.bind (undecided (Known.undecided (known_toolSteps hlive 0)))
  intro _
  apply Triple.bind (undecided (known_propose hlive))
  intro proposal
  apply Triple.bind (undecided (Known.undecided (known_sandbox hlive)))
  intro sandbox
  apply Triple.bind (undecided (known_evaluate hlive))
  intro evaluation
  apply Triple.bind (undecided (Known.undecided (known_record hlive)))
  intro _
  apply Triple.cond
  · intro _
    apply Triple.map
    exact gate_accounted hp
  · intro _
    refine Triple.mono (P := Open) ?_ (fun _ h => ⟨h.1, h.2.2⟩) (fun _ _ h => h) fun _ _ h => h
    apply Triple.bind (excused_of_open (known_decide hlive))
    intro decision
    apply Triple.cond
    · intro _
      apply Triple.bind (excused_of_open (known_startRetry hlive))
      intro _
      exact Triple.ret fun _ hw => hw
    · intro _
      apply Triple.map
      exact stopRun_accounted hp

theorem attempts_accounted (hp : f.persistence = true) (count n : Nat) :
    Triple Open (f.attempts env event n count) (fun outcome w => outcome.elim (Open w) fun _ => f.Settled env w)
      (fun _ => Excused) := by
  induction count generalizing n with
  | zero => exact Triple.ret fun _ hw => hw
  | succ count ih =>
    apply Triple.bind (attempt_accounted hp n)
    intro outcome
    cases outcome with
    | some r => exact Triple.ret fun _ hw => hw
    | none => exact ih (n + 1)

omit [UnicodeData] in
theorem openRun_open (hp : f.persistence = true) :
    Triple (fun w => w.state.policyDecision = none) (f.openRun env event) (fun _ => Open) (fun _ => Excused) := by
  refine Triple.cond (fun _ => ?_) fun hnot => absurd hp hnot
  have hjournal : Triple (fun _ => True) (do
      startRun env event.runId RunStatus.received.value
      let ref ← writeJson env "input" (eventDocument event) "failure-event.json".toList
      checkpoint env { refs := [(.failureEvent, ref.ref)] }) (fun _ => Journal.Live) (fun _ => Journal.Refused) := by
    apply Triple.bind (Q := fun _ => Journal.Live)
    · apply Triple.bind (Q := fun _ _ => True)
      · exact perform_triple (fun _ _ _ => trivial) fun j message _ => j.refused_call _
      intro _
      apply Triple.bind (Q := fun _ => Journal.Live)
      · exact Triple.update fun _ _ => rfl
      intro _
      exact emit_live
    intro _
    apply Triple.bind writeJson_live
    intro ref
    exact checkpoint_live
  refine (onJournal_lift (R := fun w => w.state.policyDecision = none) hjournal fun _ _ hw => hw).mono ?_ ?_ ?_
  · exact fun w hw => ⟨hw, trivial⟩
  · exact fun _ w hw => ⟨hw.2, hw.1⟩
  · exact fun _ w hw => .inr hw.2

theorem runBody_accounted (hp : f.persistence = true) :
    Triple (fun w => w.state.policyDecision = none) (f.runBody env event) (fun _ => f.Settled env) (fun _ => Excused) := by
  apply Triple.bind (Q := fun outcome w => outcome.elim (Open w) fun _ => f.Settled env w)
  · apply Triple.bind (openRun_open hp)
    intro _
    exact attempts_accounted hp _ 1
  intro outcome
  cases outcome with
  | some r => exact Triple.ret fun _ hw => hw
  | none => exact exhausted_accounted hp

omit [UnicodeData] in
theorem refused_runFailed {e : RunError} :
    Triple (fun w => w.journal.Refused) (f.runFailed env e) (fun _ w => w.journal.Refused)
      (fun _ w => w.journal.Refused) := by
  have hkeeps : Keeps (Known Journal.Refused fun _ => True) (f.runFailed env e) := by
    refine Keeps.read_bind fun w _ => ?_
    refine Keeps.bind (keeps_when known_moveTo) fun _ => ?_
    refine Keeps.bind (Keeps.update fun w hw => hw) fun _ => ?_
    refine Keeps.bind (Keeps.handle ?_ fun _ => Keeps.ret) fun _ => ?_
    · refine Keeps.bind (known_audit lasting_refused) fun _ => ?_
      exact known_journaled lasting_refused.checkpoint
    exact Keeps.read_bind fun _ _ => Keeps.ret
  exact hkeeps.triple.mono (fun _ hw => ⟨hw, trivial⟩) (fun _ _ h => h.1) fun _ _ h => h.1

theorem runFailed_accounted (hp : f.persistence = true) {e : RunError} :
    Triple Excused (f.runFailed env e) (fun _ => f.Settled env) (fun _ _ => True) := by
  have hopen : Triple Open (f.runFailed env e) (fun _ => f.Settled env) (fun _ _ => True) := by
    apply Triple.read_keep
    intro w _
    apply Triple.bind ((keeps_when known_moveTo).triple.mono (fun _ h => h) (fun _ _ h => h) fun _ _ _ => trivial)
    intro _
    apply Triple.bind (Q := fun _ => Open)
    · exact Triple.update fun w hw => hw
    intro _
    apply Triple.bind (Q := fun _ => f.Settled env)
    · refine Triple.handle (D := fun _ w => w.journal.Refused) ?_ fun _ => Triple.ret fun _ h => refused_accounted h
      apply Triple.bind (known_told hp fun _ h => h)
      intro _
      exact (known_saved hp rfl).mono (fun _ h => h) (fun _ _ h => settled_of_open h) fun _ _ h => h
    intro _
    exact result_keeps
  intro w hw
  rcases hw with hw | hw
  · exact hopen w hw
  · exact (refused_runFailed.mono (fun _ h => h) (fun _ _ h => refused_accounted h) fun _ _ _ => trivial) w hw

/-- A persisted run whose store calls all succeed and that does not end on a persistence error: its stored status is the
one that its last event leaves, exactly when the policy engine has not escalated it, or the builder and the writer of the
review package have returned. -/
theorem run_explained_iff {r : FoundationResult} (hp : f.persistence = true) (hr : (f.run env event).1 = .ok r)
    (hreported : r.workflowStatus ≠ "PERSISTENCE_ERROR".toList)
    (hstores : ∀ call ∈ (f.run env event).2.journal.trace, call.done = true) :
    ((f.run env event).2.journal.store env).Explained ↔ f.Packaged (f.run env event).2 := by
  have htriple : Triple (fun w => w.state.policyDecision = none)
      (handle (f.runBody env (Foundation.receivedEvent env event))
        fun e => if e.isPersistence then Foundation.persistenceFailed e else f.runFailed env e)
      (fun r w => r.workflowStatus = "PERSISTENCE_ERROR".toList ∨ f.Settled env w) (fun _ _ => True) := by
    apply Triple.handle (D := fun _ => Excused)
    · exact (runBody_accounted hp).mono (fun _ h => h) (fun _ _ h => .inr h) fun _ _ h => h
    intro e
    apply Triple.cond
    · intro _
      exact Foundation.persistenceFailed_reported.mono (fun _ h => h) (fun _ _ h => .inl h) fun _ _ h => h
    · intro _
      exact (runFailed_accounted hp).mono (fun _ h => h) (fun _ _ h => .inr h) fun _ _ h => h
  rcases htriple.ok (s := Foundation.initialWorld env event) rfl hr with herror | ⟨call, hcall, hfailed⟩ | hsettled
  · exact absurd herror hreported
  · cases (hstores call hcall).symm.trans hfailed
  · exact hsettled

end Loop

end Gates

-- Every store call of the sample's run is carried out.
example : (@Foundation.run asciiData .sample (diskFullAfter 47) sampleEvent).2.journal.trace.all (·.done) = true := by
  decide +kernel

/-- The sample's approval is explained. -/
theorem sample_run_explained : Foundation.sample.persistence = true ∧
    ((@Foundation.run asciiData .sample (diskFullAfter 47) sampleEvent).2.journal.store (diskFullAfter 47)).Explained := by
  have hstatus : (@Foundation.run asciiData .sample (diskFullAfter 47) sampleEvent).1.toOption.map (·.workflowStatus) =
      some "APPROVED".toList := by decide +kernel
  have hstores : ∀ call ∈ (@Foundation.run asciiData .sample (diskFullAfter 47) sampleEvent).2.journal.trace,
      call.done = true := by decide +kernel
  have houtcome : (@Foundation.run asciiData .sample (diskFullAfter 47) sampleEvent).2.state.policyDecision.map
      (·.outcome) = some .approve := by decide +kernel
  cases hr : (@Foundation.run asciiData .sample (diskFullAfter 47) sampleEvent).1 with
  | error e =>
    rw [hr] at hstatus
    cases hstatus
  | ok r =>
    rw [hr] at hstatus
    have hreported : r.workflowStatus ≠ "PERSISTENCE_ERROR".toList := by
      rw [show r.workflowStatus = "APPROVED".toList from Option.some.inj hstatus]
      decide
    refine ⟨rfl, (@run_explained_iff asciiData .sample (diskFullAfter 47) sampleEvent r rfl hr hreported hstores).mpr ?_⟩
    intro decision hdecision hescalate
    rw [hdecision] at houtcome
    cases hescalate.symm.trans (Option.some.inj houtcome)

/-- A foundation whose policy engine escalates and whose package builder raises. -/
def unpackagedSample : Foundation :=
  { Foundation.sample with
    evaluatePolicy := fun _ => .ok
      { outcome := .escalate, reasons := [], matchedRules := [], violations := [], riskLevel := .high, evidence := [],
        explanation := "" } }

/-- The package builder raises: the run is stored as ESCALATION_ERROR, and its last event leaves ESCALATED. -/
theorem escalation_error_unexplained :
    ¬ ∀ (_ : UnicodeData) (f : Foundation) (env : Env) (event : FailureEvent) (r : FoundationResult),
      f.persistence = true → (f.run env event).1 = .ok r → r.workflowStatus ≠ "PERSISTENCE_ERROR".toList →
        (∀ call ∈ (f.run env event).2.journal.trace, call.done = true) →
        ((f.run env event).2.journal.store env).Explained := by
  intro h
  have hstatus : (@Foundation.run asciiData unpackagedSample (diskFullAfter 47) sampleEvent).1.toOption.map
      (·.workflowStatus) = some "ESCALATION_ERROR".toList := by decide +kernel
  have hstores : ∀ call ∈ (@Foundation.run asciiData unpackagedSample (diskFullAfter 47) sampleEvent).2.journal.trace,
      call.done = true := by decide +kernel
  have hsaved : ((@Foundation.run asciiData unpackagedSample (diskFullAfter 47) sampleEvent).2.journal.store
      (diskFullAfter 47)).state.map (·.workflowStatus) = some RunStatus.escalationError.value := by decide +kernel
  have hlast : ((@Foundation.run asciiData unpackagedSample (diskFullAfter 47) sampleEvent).2.journal.store
      (diskFullAfter 47)).events.getLast?.map (·.stateAfter) = some (some RunStatus.escalated.value) := by decide +kernel
  cases hr : (@Foundation.run asciiData unpackagedSample (diskFullAfter 47) sampleEvent).1 with
  | error e =>
    rw [hr] at hstatus
    cases hstatus
  | ok r =>
    rw [hr] at hstatus
    have hreported : r.workflowStatus ≠ "PERSISTENCE_ERROR".toList := by
      rw [show r.workflowStatus = "ESCALATION_ERROR".toList from Option.some.inj hstatus]
      decide
    obtain ⟨d, e, hd, he, hafter⟩ :=
      h asciiData unpackagedSample (diskFullAfter 47) sampleEvent r rfl hr hreported hstores
    rw [hd] at hsaved
    rw [he] at hlast
    have hstate : d.workflowStatus = RunStatus.escalationError.value := Option.some.inj hsaved
    have hevent : e.stateAfter = some RunStatus.escalated.value := Option.some.inj hlast
    rw [hafter, hstate] at hevent
    exact absurd hevent (by decide)

end FailureOrchestrator
