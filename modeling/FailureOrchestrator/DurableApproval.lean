import FailureOrchestrator.RunApproval

namespace FailureOrchestrator

open Exec RunPersistence

/-- Nothing of the run shows an approval, in memory or in the store. -/
structure Pending (env : Env) (w : World) : Prop where
  machine : w.machine.status ≠ .approved
  state : w.state.status ≠ .approved
  journal : Unapproved env w.journal

/-- How a run with an approval on the way raises. -/
def Raised (env : Env) (e : RunError) (w : World) : Prop := Pending env w ∨ Refused env e w.journal

/-- The policy engine approved the evaluation of the run, which passed. -/
def Foundation.Granted (f : Foundation) (r : FoundationResult) : Prop :=
  ∃ n proposal sandbox context decision,
    f.evaluate n proposal sandbox = .ok context.evaluation ∧ context.evaluation.passed = true ∧
    r.run.evaluation = some context.evaluation ∧
    f.evaluatePolicy context = .ok decision ∧ decision.outcome = .approve ∧ r.policyDecision = some decision

/-- A result and the journal it leaves. -/
inductive Settled (f : Foundation) (env : Env) (r : FoundationResult) (j : Journal) : Prop where
  | approved (hstatus : r.status = .approved) (hj : Approved env j) (hgranted : f.Granted r)
  | unapproved (hstatus : r.status ≠ .approved) (hj : Unapproved env j)
  | refused (hstatus : r.status = .failed) (hj : Guarded env j)

variable {f : Foundation} {env : Env}

theorem onJournal_pending {α : Type} {x : Exec Journal RunError α}
    (h : Triple (Unapproved env) x (fun _ => Unapproved env) (fun _ => Unapproved env)) :
    Triple (Pending env) (onJournal x) (fun _ => Pending env) (fun _ => Pending env) := by
  have hlift := onJournal_lift (R := fun w => w.machine.status ≠ .approved ∧ w.state.status ≠ .approved) h
    fun _ _ hw => hw
  exact hlift.mono (fun _ hw => ⟨⟨hw.machine, hw.state⟩, hw.journal⟩) (fun _ _ hw => ⟨hw.1.1, hw.1.2, hw.2⟩)
    fun _ _ hw => ⟨hw.1.1, hw.1.2, hw.2⟩

theorem pending_discipline : Discipline env (· ≠ .approved) (Pending env) (fun _ => Pending env) where
  usual _ hs := hs
  live _ hw := ⟨hw.machine, hw.state⟩
  raised _ _ hw := hw
  move _ _ _ hw hmachine hstate _ := ⟨hmachine, hstate, hw.journal⟩
  tools _ _ _ hw := ⟨hw.machine, hw.state, hw.journal⟩
  emit t before after refs _ hafter := by
    apply onJournal_pending (unapproved_emit ?_)
    intro heq
    obtain ⟨status, rfl, hvalue⟩ := Option.map_eq_some_iff.mp heq
    exact hafter status rfl (RunStatus.eq_approved_of_value hvalue)
  checkpoint c hc := by
    apply onJournal_pending (unapproved_checkpoint ?_)
    intro heq
    obtain ⟨status, hne, hvalue⟩ := hc _ heq
    exact hne (RunStatus.eq_approved_of_value hvalue.symm)
  write ref document := onJournal_pending unapproved_write

theorem pending_ignoresHistory : IgnoresHistory (Pending env) := by
  intro w w' hjournal hmachine hstate hw
  exact ⟨hmachine ▸ hw.machine, hstate ▸ hw.state, hjournal ▸ hw.journal⟩

/-- An approval in memory, between the calls that store it. -/
def Approving (evaluation : EvaluationResult) (J : Journal → Prop) (w : World) : Prop :=
  (w.state.status = .approved ∧ w.state.evaluation = some evaluation) ∧ J w.journal

/-- A call of the approving branch. -/
theorem journaled_approving {evaluation : EvaluationResult} {P : Journal → Prop} {x : Exec Journal RunError Unit}
    (hp : f.persistence = true) (hsteady : ∀ j, P j → Steady env j)
    (h : Triple (Steady env) x (fun _ => Approved env) (Refused env)) :
    Triple (Approving evaluation P) (f.journaled x) (fun _ => Approving evaluation (Approved env))
      (Raised env) := by
  apply Triple.cond
  · intro _
    refine (onJournal_lift (h.mono hsteady (fun _ _ hj => hj) fun _ _ hj => hj) ?_).mono (fun _ hw => hw)
      (fun _ _ hw => hw) fun _ _ hw => .inr hw.2
    exact fun _ _ hw => hw
  · exact fun hnot => absurd hp hnot

theorem approveBranch_settled {n : Nat} {proposal : RepairProposal} {sandbox : SandboxResult} {context : PolicyContext}
    {decision : PolicyDecision} {refs : List DurableEvidenceRef} (hp : f.persistence = true)
    (hevaluate : f.evaluate n proposal sandbox = .ok context.evaluation) (hpassed : context.evaluation.passed = true)
    (hdecision : f.evaluatePolicy context = .ok decision) (houtcome : decision.outcome = .approve) :
    Triple (fun w => w.state.evaluation = some context.evaluation ∧ Pending env w) (f.approveBranch env decision refs)
      (fun r w => Settled f env r w.journal) (Raised env) := by
  apply Triple.bind (Q := fun _ => Approving context.evaluation (Unapproved env))
  · apply moveTo_triple
    · exact fun w machine hw hm => ⟨⟨hm, hw.1⟩, hw.2.journal⟩
    · exact fun e w hw _ => .inl hw.2
  intro _
  apply Triple.bind (Q := fun _ => Approving context.evaluation (Unapproved env))
  · exact Triple.update fun w hw => hw
  intro _
  apply Triple.bind (journaled_approving hp (fun _ hj => hj.steady) approved_emit)
  intro _
  apply Triple.bind (journaled_approving hp (fun _ hj => hj.steady) approved_emit)
  intro _
  apply Triple.bind (journaled_approving hp (fun _ hj => hj.steady) (approved_checkpoint rfl))
  intro _
  apply Triple.read_bind
  intro w hw
  apply Triple.ret
  rintro w' rfl
  obtain ⟨⟨hstatus, hevaluation⟩, hj⟩ := hw
  exact .approved hstatus hj ⟨n, proposal, sandbox, context, decision, hevaluate, hpassed, hevaluation, hdecision,
    houtcome, rfl⟩

theorem settled_of_ended {r : FoundationResult} {w : World} (h : Ended (Pending env) r w) :
    Settled f env r w.journal := by
  obtain ⟨hw, hstatus⟩ := h
  exact .unapproved (hstatus ▸ hw.state) hw.journal

theorem openRun_pending {event : FailureEvent} (hp : f.persistence = true) :
    Triple (fun w => (w.machine.status ≠ .approved ∧ w.state.status ≠ .approved) ∧ w.journal = {})
      (f.openRun env event) (fun _ => Pending env) (Raised env) := by
  have hd : Discipline env (· ≠ .approved) (Pending env) (fun _ => Pending env) := pending_discipline
  apply Triple.cond
  · intro _
    apply onJournal_bind (Q := fun _ => Pending env)
    · refine (onJournal_lift startRun_unapproved ?_).mono (fun _ hw => hw) (fun _ _ hw => ⟨hw.1.1, hw.1.2, hw.2⟩) ?_
      · exact fun _ _ hw => hw
      · rintro e w ⟨hw, hj | hj⟩
        · exact .inl ⟨hw.1, hw.2, hj⟩
        · exact .inr hj
    intro _
    refine Triple.mono (E := fun _ => Pending env) ?_ (fun _ hw => hw) (fun _ _ hw => hw) fun _ _ hw => .inl hw
    apply onJournal_bind hd.upkeep.writeJson
    intro ref
    refine (hd.checkpoint _ ?_).mono (fun _ hw => hw.2) (fun _ _ h => h) fun _ _ h => h
    exact fun _ h => nomatch h
  · exact fun hnot => absurd hp hnot

/-- The handler of other errors returns a failed result whatever the stores do. -/
theorem runFailed_returns {e : RunError} :
    Triple (fun _ => True) (f.runFailed env e) (fun r _ => r.status = .failed) (fun _ _ => False) := by
  apply Triple.read_bind
  intro w _
  apply Triple.bind (Q := fun _ _ => True)
  · apply Triple.cond
    · intro hallowed
      apply moveTo_triple
      · exact fun _ _ _ _ => trivial
      · rintro e' w' rfl herror
        exact FoundationStateMachine.transition_refused herror hallowed
    · exact fun _ => Triple.ret fun _ _ => trivial
  intro _
  apply Triple.bind (Q := fun _ w => w.state.status = .failed)
  · exact Triple.update fun _ _ => rfl
  intro _
  have hkept : ∀ x : Exec Journal RunError Unit, Triple (fun w => w.state.status = .failed) (f.journaled x)
      (fun _ w => w.state.status = .failed) (fun _ w => w.state.status = .failed) :=
    fun x => journaled_keeps (onJournal_keeps fun _ _ hw => hw)
  apply Triple.bind (Q := fun _ w => w.state.status = .failed)
  · apply Triple.handle (Triple.bind (hkept _) fun _ => hkept _)
    exact fun _ => Triple.ret fun _ hw => hw
  intro _
  exact result_status.mono (fun _ hw => hw) (fun _ _ hw => hw.2.trans hw.1) fun _ _ hw => hw

theorem runFailed_settled {e : RunError} :
    Triple (Pending env) (f.runFailed env e) (fun r w => Settled f env r w.journal) (fun _ _ => False) := by
  have hd : Discipline env (· ≠ .approved) (Pending env) (fun _ => Pending env) := pending_discipline
  refine ((hd.upkeep.runFailed fun _ _ hw => hw).both runFailed_returns).mono (fun _ hw => ⟨hw, trivial⟩) ?_ fun _ _ hw => hw.2
  exact fun r w hw => settled_of_ended hw.1

theorem persistenceFailed_settled {e : RunError} :
    Triple (fun w => Guarded env w.journal) (Foundation.persistenceFailed e) (fun r w => Settled f env r w.journal)
      (fun _ _ => False) :=
  fun _ hw => .refused rfl hw

theorem Raised.guarded {e : RunError} {w : World} (h : Raised env e w) : Guarded env w.journal := by
  rcases h with hw | hw
  · exact hw.journal.guarded
  · exact hw.2

namespace Foundation

variable [UnicodeData]

theorem runBody_settled {event : FailureEvent} (hp : f.persistence = true) :
    Triple (fun w => (w.machine.status ≠ .approved ∧ w.state.status ≠ .approved) ∧ w.journal = {})
      (f.runBody env event) (fun r w => FailureOrchestrator.Settled f env r w.journal) (Raised env) := by
  have hd : Discipline env (· ≠ .approved) (Pending env) (fun _ => Pending env) := pending_discipline
  have hraised : ∀ e w, Pending env w → Raised env e w := fun _ _ hw => .inl hw
  refine hd.upkeep.runBody (hd.usual _ (by decide)) pending_ignoresHistory hraised (fun r w hr => settled_of_ended hr) ?_ ?_ ?_
    (openRun_pending hp)
  · intro n context steps
    refine (hd.upkeep.toolSteps ?_ 0).mono (fun _ hw => hw) (fun _ _ hw => hw) hraised
    exact journaled_keeps (onJournal_pending (unapproved_emit nofun))
  · intro n plan proposal
    refine (hd.upkeep.sandboxStage fun before => ?_).mono (fun _ hw => hw) (fun _ _ hw => hw) hraised
    exact journaled_keeps (onJournal_pending (unapproved_emit (by decide)))
  · intro n classification proposal sandbox evaluation hevaluate hpassed
    apply (hd.framed (some evaluation)).runPolicyGate (fun _ _ hw => hw) (fun e w hw => hraised e w hw.2)
    · rintro context decision refs rfl hdecision houtcome
      exact approveBranch_settled hp hevaluate hpassed hdecision houtcome
    · exact fun r w hr => settled_of_ended ⟨hr.1.2, hr.2⟩

theorem run_settled (env : Env) (event : FailureEvent) (hp : f.persistence = true) :
    ∃ r, (f.run env event).1 = .ok r ∧ FailureOrchestrator.Settled f env r (f.run env event).2.journal := by
  have hrun : Triple (fun w => (w.machine.status ≠ .approved ∧ w.state.status ≠ .approved) ∧ w.journal = {})
      (handle (f.runBody env (receivedEvent env event))
        fun e => if e.isPersistence then persistenceFailed e else f.runFailed env e)
      (fun r w => FailureOrchestrator.Settled f env r w.journal) (fun _ _ => False) := by
    apply Triple.handle (runBody_settled hp)
    intro e
    apply Triple.cond
    · exact fun _ => persistenceFailed_settled.mono (fun _ hw => hw.guarded) (fun _ _ hw => hw) fun _ _ hw => hw
    · intro hother
      refine runFailed_settled.mono ?_ (fun _ _ hw => hw) fun _ _ hw => hw
      rintro w (hw | hw)
      · exact hw
      · exact absurd hw.1 hother
  exact hrun.returns ⟨⟨nofun, nofun⟩, rfl⟩

/-- Every run with a store returns a result. A failed one leaves no approval in the store exactly when no store call
raised while the store held one, and an approved one leaves the approval of the policy engine. -/
theorem run_failed_unapproved_iff (f : Foundation) (env : Env) (event : FailureEvent) (hp : f.persistence = true) :
    ∃ r, (f.run env event).1 = .ok r ∧
      ((r.status = .failed → ((f.run env event).2.journal.store env).workflowStatus ≠ some RunStatus.approved.value) ↔
        Undisturbed env (f.run env event).2.journal.trace) ∧
      (r.status = .approved →
        ((f.run env event).2.journal.store env).workflowStatus = some RunStatus.approved.value ∧ f.Granted r) := by
  obtain ⟨r, hr, hsettled⟩ := run_settled env event hp
  refine ⟨r, hr, ?_⟩
  cases hsettled with
  | approved hstatus hj hgranted =>
    refine ⟨⟨fun _ => hj.undisturbed, fun _ hfailed => ?_⟩, fun _ => ⟨hj.stored, hgranted⟩⟩
    rw [hstatus] at hfailed
    cases hfailed
  | unapproved hstatus hj =>
    exact ⟨⟨fun _ => hj.undisturbed, fun _ _ => hj.stored⟩, fun happroved => absurd happroved hstatus⟩
  | refused hstatus hj =>
    refine ⟨⟨fun h => hj.mp (h hstatus), fun h _ => hj.mpr h⟩, fun happroved => ?_⟩
    rw [hstatus] at happroved
    cases happroved

end Foundation

/-- With a healthy store the sample's approval is granted. -/
theorem sample_run_granted : Foundation.sample.persistence = true ∧
    ∃ r, (@Foundation.run asciiData .sample (diskFullAfter 47) sampleEvent).1 = .ok r ∧ r.status = .approved ∧
      Foundation.sample.Granted r := by
  have hstatus : (@Foundation.run asciiData .sample (diskFullAfter 47) sampleEvent).1.toOption.map (·.status) =
      some .approved := by decide +kernel
  obtain ⟨r, hr, -, happroved⟩ :=
    @Foundation.run_failed_unapproved_iff asciiData .sample (diskFullAfter 47) sampleEvent rfl
  rw [hr] at hstatus
  have hr' : r.status = .approved := Option.some.inj hstatus
  exact ⟨rfl, r, hr, hr', (happroved hr').2⟩

/-- The disk fills up between the approval's save and the event RUN_SUCCEEDED: the run returns FAILED. -/
theorem failed_run_with_stored_approval :
    ¬ ∀ (_ : UnicodeData) (f : Foundation) (env : Env) (event : FailureEvent) (r : FoundationResult),
      f.persistence = true → (f.run env event).1 = .ok r → r.status = .failed →
        ((f.run env event).2.journal.store env).workflowStatus ≠ some RunStatus.approved.value := by
  intro h
  have hstatus : (@Foundation.run asciiData .sample (diskFullAfter 44) sampleEvent).1.toOption.map (·.status) =
      some .failed := by decide +kernel
  have hstored : ((@Foundation.run asciiData .sample (diskFullAfter 44) sampleEvent).2.journal.store
      (diskFullAfter 44)).workflowStatus = some RunStatus.approved.value := by decide +kernel
  cases hr : (@Foundation.run asciiData .sample (diskFullAfter 44) sampleEvent).1 with
  | error e =>
    rw [hr] at hstatus
    cases hstatus
  | ok r =>
    rw [hr] at hstatus
    exact h asciiData .sample (diskFullAfter 44) sampleEvent r rfl hr (Option.some.inj hstatus) hstored

end FailureOrchestrator
