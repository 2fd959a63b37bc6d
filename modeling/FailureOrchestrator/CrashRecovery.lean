import FailureOrchestrator.OpenCalls
import FailureOrchestrator.RunGate

namespace FailureOrchestrator

open Exec RunPersistence

/-- Between two steps of a run: no call is open, and the store holds what is in memory. -/
def Quiet (env : Env) (j : Journal) : Prop := Closed env j ∧ Synced env j

/-- How a run raises: a call may be open where the store is up to date or nothing more will be written. -/
def Crashed (env : Env) (e : RunError) (j : Journal) : Prop :=
  AllSafe env j.trace ∧ (e.isPersistence = true ∨ Synced env j ∨ Closed env j)

variable {f : Foundation} {env : Env} {kind : CallKind} {e : RunError} {j : Journal}

theorem Closed.crashed (h : Closed env j) : Crashed env e j := ⟨h.safe, .inr (.inr h)⟩

theorem Working.crashed (h : Working env kind j) : Crashed env e j := ⟨h.safe, .inr (.inl h.synced)⟩

theorem Broken.crashed (h : Broken env e j) : Crashed env e j := ⟨h.2, .inl h.1⟩

theorem working_writeJson {dir : String} {value : Json} {name : Str} :
    Triple (Working env kind) (writeJson env dir value name) (fun _ => Working env kind) (Broken env) := by
  apply Triple.bind (durable_triple fun j hj _ message => ⟨rfl, hj.safe⟩)
  intro d
  apply Triple.bind (working_write.mono (fun _ hj => hj.1) (fun _ _ hj => hj) fun _ _ hj => hj)
  intro _
  exact Triple.ret fun _ hj => hj

/-- The evidence of a call and the event of its end. -/
theorem working_end {dir : String} {value : Json} {name : Str} :
    Triple (Working env kind) (do
      let ref ← writeJson env dir value name
      emit env kind.done none none [ref]) (fun _ => Quiet env) (Crashed env) := by
  refine Triple.mono (E := Broken env) ?_ (fun _ hj => hj) (fun _ _ hj => hj) fun _ _ hj => hj.crashed
  apply Triple.bind working_writeJson
  intro ref
  exact working_done

theorem journaled_triple {P Q : Journal → Prop} {E : RunError → Journal → Prop} {x : Exec Journal RunError Unit}
    (hp : f.persistence = true) (h : Triple P x (fun _ => Q) E) :
    Triple (fun w => P w.journal) (f.journaled x) (fun _ w => Q w.journal) (fun e w => E e w.journal) := by
  apply Triple.cond
  · exact fun _ => onJournal_triple h
  · exact fun hnot => absurd hp hnot

theorem audit_start (kind : CallKind) {before after : Option RunStatus} (hp : f.persistence = true)
    (hexcuse : kind = .tool ∨ ∃ s, after.map RunStatus.value = some s ∧ s ∉ resumableStatuses) :
    Triple (fun w => Quiet env w.journal) (f.audit env kind.start before after)
      (fun _ w => Working env kind w.journal) (fun e w => Crashed env e w.journal) := by
  apply journaled_triple hp
  exact (working_start hexcuse).mono (fun _ hj => hj) (fun _ _ hj => hj) fun _ _ hj => hj.crashed

theorem closed_discipline :
    Discipline env (fun _ => True) (fun w => Closed env w.journal) (fun _ w => Closed env w.journal) where
  usual _ _ := trivial
  live _ _ := ⟨trivial, trivial⟩
  raised _ _ hw := hw
  move _ _ _ hw _ _ _ := hw
  tools _ _ _ hw := hw
  emit _ _ _ _ ht _ := onJournal_triple (closed_emit ht)
  checkpoint _ _ := onJournal_triple closed_checkpoint
  write _ _ := onJournal_triple closed_write

theorem quiet_discipline :
    Discipline env (fun _ => True) (fun w => Quiet env w.journal) (fun _ w => Closed env w.journal) where
  usual _ _ := trivial
  live _ _ := ⟨trivial, trivial⟩
  raised _ _ hw := hw.1
  move _ _ _ hw _ _ _ := hw
  tools _ _ _ hw := hw
  emit _ _ _ _ ht _ := onJournal_triple (((closed_emit ht).both synced_emit).mono (fun _ hj => ⟨hj.1, trivial⟩)
    (fun _ _ hj => hj) fun _ _ hj => hj.1)
  checkpoint _ _ := onJournal_triple ((closed_checkpoint.both synced_checkpoint).mono (fun _ hj => hj)
    (fun _ _ hj => hj) fun _ _ hj => hj.1)
  write _ _ := onJournal_triple ((closed_write.both synced_write).mono (fun _ hj => hj) (fun _ _ hj => hj)
    fun _ _ hj => hj.1)

/-- A collaborator that is called while a call is open. -/
theorem working_collaborator {α : Type} {r : Except RunError α} :
    Triple (fun w => Working env kind w.journal) (lift r : Run α) (fun _ w => Working env kind w.journal)
      (fun e w => Crashed env e w.journal) :=
  Triple.lift (fun _ _ _ hw => hw) fun _ _ _ hw => hw.crashed

theorem toolStep_quiet {n index : Nat} {event : FailureEvent} {context : FailureContext} {step : PlanStep}
    (hp : f.persistence = true) :
    Triple (fun w => Quiet env w.journal) (f.toolStep env n index event context step) (fun _ w => Quiet env w.journal)
      (fun e w => Crashed env e w.journal) := by
  apply Triple.bind (Q := fun _ w => Quiet env w.journal)
  · exact Triple.lift (fun _ _ _ hw => hw) fun _ _ _ hw => hw.1.crashed
  intro forceFail
  apply Triple.bind (audit_start .tool hp (.inl rfl))
  intro _
  apply Triple.bind working_collaborator
  intro call
  apply Triple.bind (Q := fun _ w => Working env .tool w.journal)
  · exact Triple.update fun _ hw => hw
  intro _
  exact journaled_triple hp working_end

theorem toolSteps_quiet {n : Nat} {event : FailureEvent} {context : FailureContext} {steps : List PlanStep}
    (hp : f.persistence = true) (index : Nat) :
    Triple (fun w => Quiet env w.journal) (f.toolSteps env n event context index steps)
      (fun _ w => Quiet env w.journal) (fun e w => Crashed env e w.journal) := by
  induction steps generalizing index with
  | nil => exact Triple.ret fun _ hw => hw
  | cons step rest ih =>
    apply Triple.bind (toolStep_quiet hp)
    intro _
    exact ih (index + 1)

theorem sandboxStage_quiet {n : Nat} {plan : RepairPlan} {proposal : RepairProposal} (hp : f.persistence = true) :
    Triple (fun w => Quiet env w.journal) (f.sandboxStage env n plan proposal) (fun _ w => Quiet env w.journal)
      (fun e w => Crashed env e w.journal) := by
  apply Triple.read_keep
  intro w _
  apply Triple.bind (Q := fun _ w => Quiet env w.journal)
  · exact moveTo_triple (fun _ _ hw _ => hw) fun _ _ hw _ => hw.1.crashed
  intro _
  apply Triple.bind (audit_start .sandbox hp (.inr ⟨_, rfl, by decide⟩))
  intro _
  apply Triple.bind working_collaborator
  intro targetFails
  apply Triple.bind working_collaborator
  intro sandbox
  apply Triple.bind (Q := fun _ w => Working env .sandbox w.journal)
  · exact Triple.update fun _ hw => hw
  intro _
  apply Triple.bind (journaled_triple hp working_end)
  intro _
  exact Triple.ret fun _ hw => hw

theorem startRun_quiet {runId : Str} (hlog : env.store.events = []) :
    Triple (fun j => j = {}) (startRun env runId RunStatus.received.value) (fun _ => Quiet env) (fun _ => Closed env) := by
  have hnone : ¬ Interrupted env.store.events := by
    rintro ⟨kind, hkind⟩
    exact not_openCall_nil (hlog ▸ hkind)
  have hempty : Closed env {} := by
    refine ⟨fun calls hprefix => ?_, hnone⟩
    rw [List.prefix_nil.mp hprefix]
    exact .closed hnone
  apply Triple.bind (Q := fun _ => Closed env)
  · apply perform_triple
    · rintro j rfl -
      exact hempty.call nofun
    · rintro j message rfl
      exact hempty.call nofun
  intro _
  apply Triple.bind (Q := fun _ => Closed env)
  · exact Triple.update fun j hj => ⟨hj.safe, hj.log⟩
  intro _
  exact ((closed_emit rfl).both synced_emit).mono (fun _ hj => ⟨hj, trivial⟩) (fun _ _ hj => hj) fun _ _ hj => hj.1

theorem openRun_quiet {event : FailureEvent} (hp : f.persistence = true) (hlog : env.store.events = []) :
    Triple (fun w => w.journal = {}) (f.openRun env event) (fun _ w => Quiet env w.journal)
      (fun e w => Crashed env e w.journal) := by
  have hd : Discipline env (fun _ => True) (fun w => Quiet env w.journal) (fun _ w => Closed env w.journal) :=
    quiet_discipline
  refine Triple.mono (E := fun _ w => Closed env w.journal) ?_ (fun _ hw => hw) (fun _ _ hw => hw)
    fun _ _ hw => hw.crashed
  apply Triple.cond
  · intro _
    apply onJournal_bind (onJournal_triple (startRun_quiet hlog))
    intro _
    apply onJournal_bind hd.upkeep.writeJson
    intro ref
    refine (hd.checkpoint _ ?_).mono (fun _ hw => hw.2) (fun _ _ h => h) fun _ _ h => h
    exact fun _ h => nomatch h
  · exact fun hnot => absurd hp hnot

/-- The event of the failure, from whatever the raising step left. -/
theorem runFailed_emit {refs : List DurableEvidenceRef} {before : Option Str} :
    Triple (fun j => AllSafe env j.trace ∧ (Synced env j ∨ Closed env j))
      (emit env .runFailed before (some RunStatus.failed.value) refs)
      (fun _ j => AllSafe env j.trace) (fun _ j => AllSafe env j.trace) := by
  rintro j ⟨hsafe, hj | hj⟩
  · exact failed_emit (by decide) j ⟨hsafe, hj⟩
  · exact ((closed_emit rfl).mono (fun _ hj => hj) (fun _ _ hj => hj.safe) fun _ _ hj => hj.safe) j hj

theorem runFailed_save {c : Checkpoint} (hp : f.persistence = true)
    (hc : c.workflowStatus = some RunStatus.failed.value) :
    Triple (fun w => AllSafe env w.journal.trace) (f.journaled (checkpoint env c))
      (fun _ w => AllSafe env w.journal.trace) (fun _ w => AllSafe env w.journal.trace) := by
  have hsave : Triple (fun j => AllSafe env j.trace) (checkpoint env c) (fun _ j => AllSafe env j.trace)
      (fun _ j => AllSafe env j.trace) := failed_checkpoint (by decide) hc
  exact journaled_triple (P := fun j => AllSafe env j.trace) hp hsave

theorem runFailed_safe (hp : f.persistence = true) :
    Triple (fun w => AllSafe env w.journal.trace ∧ (Synced env w.journal ∨ Closed env w.journal)) (f.runFailed env e)
      (fun _ w => AllSafe env w.journal.trace) (fun _ w => AllSafe env w.journal.trace) := by
  let P : World → Prop := fun w => AllSafe env w.journal.trace ∧ (Synced env w.journal ∨ Closed env w.journal)
  apply Triple.read_keep
  intro w _
  apply Triple.bind (Q := fun _ => P)
  · apply when_keeps
    exact moveTo_triple (fun _ _ hw _ => hw) fun _ _ hw _ => hw.1
  intro _
  apply Triple.bind (Q := fun _ => P)
  · exact Triple.update fun _ hw => hw
  intro _
  apply Triple.bind (Q := fun _ w => AllSafe env w.journal.trace)
  · refine Triple.handle (Triple.bind (journaled_triple hp runFailed_emit) fun _ => ?_) fun _ => Triple.ret fun _ hw => hw
    exact runFailed_save hp rfl
  intro _
  exact result_status.mono (fun _ hw => hw) (fun _ _ hw => hw.1) fun _ _ hw => hw

namespace Foundation

variable [UnicodeData]

theorem runBody_safe {event : FailureEvent} (hp : f.persistence = true) (hlog : env.store.events = []) :
    Triple (fun w => w.journal = {}) (f.runBody env event) (fun _ w => AllSafe env w.journal.trace)
      (fun e w => Crashed env e w.journal) := by
  have hd : Discipline env (fun _ => True) (fun w => Quiet env w.journal) (fun _ w => Closed env w.journal) :=
    quiet_discipline
  refine hd.upkeep.runBody trivial ?_ (fun e w hw => hw.crashed) (fun r w hr => hr.1.1.safe) ?_ ?_ ?_ (openRun_quiet hp hlog)
  · intro w w' hjournal _ _ hw
    exact hjournal ▸ hw
  · exact fun n context steps => toolSteps_quiet hp 0
  · exact fun n plan proposal => sandboxStage_quiet hp
  · intro n classification proposal sandbox evaluation _ _
    -- The gate catches exceptions, but opens no call.
    have hgate : Discipline env (fun _ => True) (fun w => Closed env w.journal) (fun _ w => Closed env w.journal) :=
      closed_discipline
    refine Triple.mono (P := fun w => Closed env w.journal) (E := fun _ w => Closed env w.journal)
      (Q := fun _ w => Closed env w.journal) ?_ (fun w hw => hw.2.1) (fun _ _ hw => hw.safe) fun _ _ hw => hw.crashed
    apply hgate.runPolicyGate (fun _ _ hw => hw) (fun _ _ hw => hw)
    · exact fun _ _ _ _ _ _ => (hgate.upkeep.approveBranch trivial).mono (fun _ hw => hw) (fun _ _ hw => hw.1) fun _ _ hw => hw
    · exact fun _ _ hw => hw.1

/-- Every crash of a run that starts with an empty log is safe. -/
theorem run_allSafe (event : FailureEvent) (hp : f.persistence = true) (hlog : env.store.events = []) :
    AllSafe env (f.run env event).2.journal.trace := by
  have hrun : Triple (fun w => w.journal = {}) (handle (f.runBody env (receivedEvent env event))
      fun e => if e.isPersistence then persistenceFailed e else f.runFailed env e)
      (fun _ w => AllSafe env w.journal.trace) (fun _ w => AllSafe env w.journal.trace) := by
    apply Triple.handle (runBody_safe hp hlog)
    intro e
    apply Triple.cond
    · exact fun _ w hw => hw.1
    · intro hother
      refine (runFailed_safe hp).mono ?_ (fun _ _ hw => hw) fun _ _ hw => hw
      rintro w ⟨hsafe, hpersistence | hw⟩
      · exact absurd hpersistence hother
      · exact ⟨hsafe, hw⟩
  exact hrun.after rfl

/-- After a crash that left a tool or sandbox call open, other than a tool call just announced, no run is resumed. -/
theorem resumeRun_after_crash (f : Foundation) (env : Env) (event : FailureEvent) (hp : f.persistence = true)
    (hlog : env.store.events = []) (calls : List StoreStep) (hcrash : calls <+: (f.run env event).2.journal.trace)
    (hopen : Interrupted (env.store.replay calls).events) (hnot : ¬ Announced (env.store.replay calls))
    (later : Env) (hlater : later.store = env.store.replay calls) (runId : Str) (decision : RecoveryDecision)
    (hdecision : (resumeRun later runId {}).1 = .ok decision) : decision.status ≠ .resumable := by
  obtain ⟨d, hstate, rfl⟩ := resumeRun_decision hdecision
  rw [hlater] at hstate ⊢
  exact (run_allSafe event hp hlog calls hcrash).not_resumable hopen hnot hstate

end Foundation

/-- The first `n` store calls of the sample run. -/
def sampleCalls (n : Nat) : List StoreStep :=
  (@Foundation.run asciiData .sample (diskFullAfter 47) sampleEvent).2.journal.trace.take n

theorem sampleCalls_take (n : Nat) :
    sampleCalls n <+: (@Foundation.run asciiData .sample (diskFullAfter 47) sampleEvent).2.journal.trace :=
  List.take_prefix n _

/-- What the sample run leaves when it crashes after `n` store calls. -/
@[reducible] def sampleCrash (n : Nat) : RunStore := (diskFullAfter 47).store.replay (sampleCalls n)

/-- A later process that looks at the crashed run. -/
def afterSampleCrash (n : Nat) : Env where
  store := sampleCrash n
  newId _ _ := []

theorem afterSampleCrash_store (n : Nat) :
    (afterSampleCrash n).store = (diskFullAfter 47).store.replay (sampleCalls n) := rfl

theorem sampleCrash_interrupted {n : Nat} {kind : CallKind}
    (h : (sampleCrash n).events.getLast?.map (·.eventType) = some kind.start.value) :
    Interrupted (sampleCrash n).events := by
  obtain ⟨e, he, htype⟩ := Option.map_eq_some_iff.mp h
  exact ⟨kind, openCall_of_getLast? he htype⟩

/-- A crash inside the sandbox is left for review. -/
theorem sample_crash_in_sandbox : Interrupted (sampleCrash 30).events ∧ ¬ Announced (sampleCrash 30) ∧
    ∃ decision, (resumeRun (afterSampleCrash 30) sampleEvent.runId {}).1 = .ok decision ∧
      decision.status ≠ .resumable := by
  have hlast : (sampleCrash 30).events.getLast?.map (·.eventType) = some CallKind.sandbox.start.value := by
    decide +kernel
  have hdecided : (resumeRun (afterSampleCrash 30) sampleEvent.runId {}).1.toOption.isSome := by decide +kernel
  have hopen : Interrupted (sampleCrash 30).events := sampleCrash_interrupted hlast
  have hnot : ¬ Announced (sampleCrash 30) := by
    rintro ⟨last, d, he, htype, -, -⟩
    rw [he] at hlast
    have hcalled : CallKind.tool.start.value = CallKind.sandbox.start.value := htype.symm.trans (Option.some.inj hlast)
    cases CallKind.eq_of_value_start hcalled
  refine ⟨hopen, hnot, ?_⟩
  cases hr : (resumeRun (afterSampleCrash 30) sampleEvent.runId {}).1 with
  | error e =>
    rw [hr] at hdecided
    cases hdecided
  | ok decision =>
    exact ⟨decision, rfl, @Foundation.resumeRun_after_crash asciiData .sample (diskFullAfter 47) sampleEvent rfl rfl
      (sampleCalls 30) (sampleCalls_take 30) hopen hnot (afterSampleCrash 30) (afterSampleCrash_store 30)
      sampleEvent.runId decision hr⟩

/-- A crash right after the save of TOOL_CALLED is resumed: the stored status is still PLANNED. -/
theorem crash_in_tool_resumable :
    ¬ ∀ (_ : UnicodeData) (f : Foundation) (env : Env) (event : FailureEvent), f.persistence = true →
      env.store.events = [] → ∀ calls, calls <+: (f.run env event).2.journal.trace →
      Interrupted (env.store.replay calls).events → ∀ later : Env, later.store = env.store.replay calls →
      ∀ runId decision, (resumeRun later runId {}).1 = .ok decision → decision.status ≠ .resumable := by
  intro h
  have hlast : (sampleCrash 20).events.getLast?.map (·.eventType) = some CallKind.tool.start.value := by
    decide +kernel
  have hresumed : (resumeRun (afterSampleCrash 20) sampleEvent.runId {}).1.toOption.map (·.status) =
      some .resumable := by decide +kernel
  cases hr : (resumeRun (afterSampleCrash 20) sampleEvent.runId {}).1 with
  | error e =>
    rw [hr] at hresumed
    cases hresumed
  | ok decision =>
    rw [hr] at hresumed
    exact h asciiData .sample (diskFullAfter 47) sampleEvent rfl rfl (sampleCalls 20) (sampleCalls_take 20)
      (sampleCrash_interrupted hlast) (afterSampleCrash 20) (afterSampleCrash_store 20) sampleEvent.runId
      decision hr (Option.some.inj hresumed)

end FailureOrchestrator
