import FailureOrchestrator.RunApproval
import FailureOrchestrator.RunSync

namespace FailureOrchestrator

open Exec RunPersistence

/-- A decision ends a run with this status. -/
def RunStatus.decided : RunStatus → Bool
  | .approved | .rejected => true
  | _ => false

/-- The events of the decisions that end a run with a status. -/
def RunStatus.deciders : RunStatus → List AuditEventType
  | .approved => [.policyApproved, .humanApproved]
  | .rejected => [.policyRejected, .humanRejected]
  | _ => []

theorem RunStatus.eq_of_decided {s t : RunStatus} (ht : t.decided = true) (h : s.value = t.value) : s = t := by
  cases t with
  | approved => cases s <;> first | rfl | exact absurd h (by decide)
  | rejected => cases s <;> first | rfl | exact absurd h (by decide)
  | _ => cases ht

/-- The log has the event of a decision for the status. -/
def RunStore.Shows (s : RunStore) (status : RunStatus) : Prop :=
  ∃ e ∈ s.events, ∃ t ∈ status.deciders, e.eventType = t.value

/-- Where a workflow status is that of a decision, the log shows the decision. -/
def Backed (s : RunStore) (text : Str) : Prop :=
  ∀ status : RunStatus, status.decided = true → text = status.value → s.Shows status

/-- The stored status is backed by the log. -/
def RunStore.Attributed (s : RunStore) : Prop := ∀ text, s.workflowStatus = some text → Backed s text

section Stores

variable {s : RunStore} {op : StoreOp} {status : RunStatus} {text : Str}

theorem RunStore.Shows.apply (h : s.Shows status) (op : StoreOp) : (s.apply op).Shows status := by
  obtain ⟨e, he, ht⟩ := h
  cases op with
  | createRun run => exact ⟨e, he, ht⟩
  | saveRun run => exact ⟨e, he, ht⟩
  | append event => exact ⟨e, List.mem_append_left _ he, ht⟩
  | write ref document => exact ⟨e, he, ht⟩

theorem RunStore.shows_append {e : AuditEvent} {t : AuditEventType} (ht : t ∈ status.deciders)
    (he : e.eventType = t.value) : (s.apply (.append e)).Shows status :=
  ⟨e, List.mem_append_right _ (List.mem_singleton_self e), t, ht, he⟩

theorem Backed.apply (h : Backed s text) (op : StoreOp) : Backed (s.apply op) text :=
  fun status hdecided htext => (h status hdecided htext).apply op

theorem backed_value (h : status.decided = true → s.Shows status) : Backed s status.value := by
  intro status' hdecided hvalue
  cases RunStatus.eq_of_decided hdecided hvalue
  exact h hdecided

theorem RunStore.workflowStatus_apply : (s.apply op).workflowStatus = op.savedStatus.or s.workflowStatus := by
  cases op <;> rfl

theorem RunStore.Attributed.apply (h : s.Attributed) (hop : ∀ text, op.savedStatus = some text → Backed s text) :
    (s.apply op).Attributed := by
  intro text htext
  rw [RunStore.workflowStatus_apply, Option.or_eq_some_iff] at htext
  rcases htext with hsaved | ⟨-, hkept⟩
  · exact (hop text hsaved).apply op
  · exact (h text hkept).apply op

end Stores

variable {f : Foundation} {env : Env} {j : Journal} {op : StoreOp} {done : Bool} {status : RunStatus}

/-- After each of the calls made so far the stored status was backed by the log, and the status in memory is. -/
structure Attributing (env : Env) (j : Journal) : Prop where
  stored : ∀ calls, calls <+: j.trace → (env.store.replay calls).Attributed
  held : ∀ d, j.durable = some d → Backed (j.store env) d.workflowStatus

theorem Attributing.call (h : Attributing env j)
    (hop : ∀ text, op.savedStatus = some text → Backed (j.store env) text) : Attributing env (j.call op done) := by
  have hnow : (j.store env).Attributed := h.stored j.trace (List.prefix_refl _)
  constructor
  · intro calls hprefix
    rcases List.prefix_concat_iff.mp hprefix with rfl | hprefix
    · show ((j.call op done).store env).Attributed
      cases done with
      | false =>
        rw [store_call_false]
        exact hnow
      | true =>
        rw [store_call_true]
        exact hnow.apply hop
    · exact h.stored calls hprefix
  · intro d hd
    cases done with
    | false =>
      rw [store_call_false]
      exact h.held d hd
    | true =>
      rw [store_call_true]
      exact (h.held d hd).apply op

theorem Attributing.append (h : Attributing env j) {event : AuditEvent} : Attributing env (j.call (.append event) done) :=
  h.call fun _ htext => nomatch htext

theorem Attributing.hold (h : Attributing env j) {d : DurableRunState} (hd : Backed (j.store env) d.workflowStatus) :
    Attributing env (j.hold d) where
  stored := h.stored
  held _ heq := Option.some.inj heq ▸ hd

theorem Attributing.save (h : Attributing env j) {d : DurableRunState} (hd : Backed (j.store env) d.workflowStatus) :
    Attributing env ((j.hold d).call (.saveRun d) done) :=
  (h.hold hd).call fun text htext => by
    cases htext
    exact hd

/-- The event of a decision is appended before the status that it enters is saved. -/
theorem emit_attributing {t : AuditEventType} {before : Option Str} {refs : List DurableEvidenceRef}
    (after : Option RunStatus) :
    Triple (fun j => Attributing env j ∧ ∀ status, after = some status → status.decided = true →
        t ∈ status.deciders ∨ (j.store env).Shows status)
      (emit env t before (after.map RunStatus.value) refs)
      (fun _ j => Attributing env j ∧
        ∀ status, after = some status → status.decided = true → (j.store env).Shows status)
      (fun _ => Attributing env) := by
  have hshows : ∀ {j : Journal} {d id}, (∀ status, after = some status → status.decided = true →
      t ∈ status.deciders ∨ (j.store env).Shows status) → ∀ status, after = some status → status.decided = true →
      ((j.call (.append (event id d t before (after.map RunStatus.value) refs)) true).store env).Shows status := by
    intro j d id hknown status hafter hdecided
    rw [store_call_true]
    rcases hknown status hafter hdecided with ht | hshown
    · exact RunStore.shows_append ht rfl
    · exact hshown.apply _
  have hbacked : ∀ {j : Journal} {d id}, Attributing env j → j.durable = some d →
      (∀ status, after = some status → status.decided = true → t ∈ status.deciders ∨ (j.store env).Shows status) →
      Backed ((j.call (.append (event id d t before (after.map RunStatus.value) refs)) true).store env)
        (advance d (after.map RunStatus.value)).workflowStatus := by
    intro j d id hj hd hknown
    cases hafter : after with
    | none =>
      rw [store_call_true]
      exact (hj.held d hd).apply _
    | some status =>
      rw [← hafter]
      have hstatus : (advance d (after.map RunStatus.value)).workflowStatus = status.value := by
        rw [hafter]
        rfl
      rw [hstatus]
      exact backed_value fun hdecided => hshows hknown status hafter hdecided
  apply emit_triple
  · exact fun j hj _ _ => hj.1
  · exact fun j d event message hj _ => hj.1.append
  · exact fun j d id message hj hd _ => hj.1.append.save (hbacked hj.1 hd hj.2)
  · intro j d id hj hd _
    refine ⟨hj.1.append.save (hbacked hj.1 hd hj.2), ?_⟩
    intro status hafter hdecided
    rw [store_call_true]
    exact (hshows hj.2 status hafter hdecided).apply _

theorem checkpoint_attributing {c : Checkpoint} :
    Triple (fun j => Attributing env j ∧ ∀ text, c.workflowStatus = some text → Backed (j.store env) text)
      (checkpoint env c) (fun _ => Attributing env) (fun _ => Attributing env) := by
  have hbacked : ∀ {j : Journal} {d}, Attributing env j → j.durable = some d →
      (∀ text, c.workflowStatus = some text → Backed (j.store env) text) →
      Backed (j.store env) (c.apply d).workflowStatus := by
    intro j d hj hd hc
    show Backed (j.store env) (c.workflowStatus.getD d.workflowStatus)
    cases hstatus : c.workflowStatus with
    | none => exact hj.held d hd
    | some text => exact hc text hstatus
  apply checkpoint_triple
  · exact fun j hj _ _ => hj.1
  · exact fun j d message hj hd => hj.1.save (hbacked hj.1 hd hj.2)
  · exact fun j d hj hd => hj.1.save (hbacked hj.1 hd hj.2)

theorem write_attributing {ref : Str} {document : Document} :
    Triple (Attributing env) (perform env (.write ref document)) (fun _ => Attributing env)
      (fun _ => Attributing env) :=
  perform_triple (fun _ hj _ => hj.call fun _ h => nomatch h) fun _ _ hj => hj.call fun _ h => nomatch h

/-- No decision has been made. -/
structure BeforeDecision (env : Env) (w : World) : Prop where
  machine : w.machine.status.decided = false
  state : w.state.status.decided = false
  journal : Attributing env w.journal

theorem onJournal_undecided {x : Exec Journal RunError Unit}
    (h : Triple (Attributing env) x (fun _ => Attributing env) (fun _ => Attributing env)) :
    Triple (BeforeDecision env) (onJournal x) (fun _ => BeforeDecision env) (fun _ => BeforeDecision env) := by
  have hlift := onJournal_lift (R := fun w => w.machine.status.decided = false ∧ w.state.status.decided = false) h
    fun _ _ hw => hw
  refine hlift.mono ?_ (fun _ _ hw => ⟨hw.1.1, hw.1.2, hw.2⟩) fun _ _ hw => ⟨hw.1.1, hw.1.2, hw.2⟩
  exact fun w hw => ⟨⟨hw.machine, hw.state⟩, hw.journal⟩

/-- Events and run states without a decision. -/
theorem undecided_emit {t : AuditEventType} {before : Option Str} {refs : List DurableEvidenceRef}
    (after : Option RunStatus) (hafter : ∀ status, after = some status → status.decided = false) :
    Triple (Attributing env) (emit env t before (after.map RunStatus.value) refs) (fun _ => Attributing env)
      (fun _ => Attributing env) := by
  refine (emit_attributing after).mono ?_ (fun _ _ h => h.1) fun _ _ h => h
  refine fun j hj => ⟨hj, fun status hstatus hdecided => ?_⟩
  rw [hafter status hstatus] at hdecided
  cases hdecided

theorem undecided_checkpoint {c : Checkpoint}
    (hc : ∀ text, c.workflowStatus = some text → ∃ status : RunStatus, status.decided = false ∧ text = status.value) :
    Triple (Attributing env) (checkpoint env c) (fun _ => Attributing env) (fun _ => Attributing env) := by
  refine checkpoint_attributing.mono ?_ (fun _ _ h => h) fun _ _ h => h
  refine fun j hj => ⟨hj, fun text htext => ?_⟩
  obtain ⟨status, hundecided, rfl⟩ := hc text htext
  refine backed_value fun hdecided => ?_
  rw [hundecided] at hdecided
  cases hdecided

theorem undecided_upkeep : Upkeep env (fun s => s.decided = false) (BeforeDecision env) (fun _ => BeforeDecision env) where
  usual s hs := by
    revert hs
    cases s <;> decide
  live w hw := ⟨hw.machine, hw.state⟩
  raised _ _ hw := hw
  move w machine state hw hm hs _ := ⟨hm, hs, hw.journal⟩
  tools w used risks hw := ⟨hw.machine, hw.state, hw.journal⟩
  emit t before after refs _ ha := onJournal_undecided (undecided_emit after ha)
  checkpoint c hc := (onJournal_undecided (undecided_checkpoint hc)).mono (fun _ hw => hw.2) (fun _ _ h => h) fun _ _ h => h
  write ref document := onJournal_undecided write_attributing

/-- What a run that raises leaves behind. -/
def Traced (env : Env) (w : World) : Prop := Attributing env w.journal

section Decisions

variable {decision : PolicyDecision} {refs : List DurableEvidenceRef}

/-- The decision for a status is logged. -/
def Settles (env : Env) (status : RunStatus) (w : World) : Prop := Traced env w ∧ (w.journal.store env).Shows status

theorem traced_moveTo {target : RunStatus} {reason : Str} :
    Triple (Traced env) (moveTo target reason) (fun _ => Traced env) (fun _ => Traced env) :=
  moveTo_triple (fun _ _ hw _ => hw) fun _ _ hw _ => hw

/-- The event of a decision, or of a run whose decision is logged. -/
theorem audit_settles {t : AuditEventType} {before : Option RunStatus} {P : World → Prop} (hp : f.persistence = true)
    (hP : ∀ w, P w → Traced env w ∧ (t ∈ status.deciders ∨ (w.journal.store env).Shows status))
    (hdecided : status.decided = true) :
    Triple P (f.audit env t before (some status) refs) (fun _ => Settles env status) (fun _ => Traced env) := by
  refine Triple.cond (fun _ => ?_) fun hnot => absurd hp hnot
  refine (onJournal_triple (emit_attributing (some status))).mono ?_ ?_ fun _ _ h => h
  · intro w hw
    refine ⟨(hP w hw).1, ?_⟩
    rintro status' ⟨⟩ -
    exact (hP w hw).2
  · exact fun _ w hw => ⟨hw.1, hw.2 status rfl hdecided⟩

theorem checkpoint_settles {c : Checkpoint} (hp : f.persistence = true) (hc : c.workflowStatus = some status.value) :
    Triple (Settles env status) (f.journaled (checkpoint env c)) (fun _ => Traced env) (fun _ => Traced env) := by
  refine Triple.cond (fun _ => ?_) fun hnot => absurd hp hnot
  refine (onJournal_triple checkpoint_attributing).mono ?_ (fun _ _ h => h) fun _ _ h => h
  intro w hw
  refine ⟨hw.1, fun text htext => ?_⟩
  cases Option.some.inj (hc.symm.trans htext)
  exact backed_value fun _ => hw.2

theorem approveBranch_traced (hp : f.persistence = true) :
    Triple (BeforeDecision env) (f.approveBranch env decision refs) (fun _ => Traced env) (fun _ => Traced env) := by
  refine Triple.mono (P := Traced env) ?_ (fun _ hw => hw.journal) (fun _ _ h => h) fun _ _ h => h
  apply Triple.bind traced_moveTo
  intro _
  apply Triple.bind (Q := fun _ => Traced env)
  · exact Triple.update fun _ hw => hw
  intro _
  apply Triple.bind (audit_settles hp (fun _ hw => ⟨hw, .inl (by decide)⟩) rfl)
  intro _
  apply Triple.bind (audit_settles hp (fun _ hw => ⟨hw.1, .inr hw.2⟩) rfl)
  intro _
  apply Triple.bind (checkpoint_settles hp rfl)
  intro _
  exact result_status.mono (fun _ h => h) (fun _ _ h => h.1) fun _ _ h => h

theorem rejectBranch_traced (hp : f.persistence = true) :
    Triple (BeforeDecision env) (f.rejectBranch env decision refs) (fun _ => Traced env) (fun _ => Traced env) := by
  refine Triple.mono (P := Traced env) ?_ (fun _ hw => hw.journal) (fun _ _ h => h) fun _ _ h => h
  apply Triple.bind traced_moveTo
  intro _
  apply Triple.bind (Q := fun _ => Traced env)
  · exact Triple.update fun _ hw => hw
  intro _
  apply Triple.bind (audit_settles hp (fun _ hw => ⟨hw, .inl (by decide)⟩) rfl)
  intro _
  apply Triple.bind (checkpoint_settles hp rfl)
  intro _
  exact result_status.mono (fun _ h => h) (fun _ _ h => h.1) fun _ _ h => h

end Decisions

section Start

/-- A new run starts where no status is stored, or one that the log backs. -/
theorem startRun_attributing {runId : Str} (hstart : env.store.Attributed) :
    Triple (fun j => j = {}) (startRun env runId RunStatus.received.value) (fun _ => Attributing env)
      (fun _ => Attributing env) := by
  have hreceived : ∀ s : RunStore, Backed s RunStatus.received.value := fun s => backed_value (s := s) nofun
  have hempty : Attributing env {} := by
    refine ⟨fun calls hprefix => ?_, nofun⟩
    rw [List.prefix_nil.mp hprefix]
    exact hstart
  apply Triple.bind (Q := fun _ => Attributing env)
  · apply perform_triple
    · rintro j rfl -
      exact hempty.call fun text htext => Option.some.inj htext ▸ hreceived _
    · rintro j message rfl
      exact hempty.call fun text htext => Option.some.inj htext ▸ hreceived _
  intro _
  apply Triple.bind (Q := fun _ => Attributing env)
  · exact Triple.update fun j hj => hj.hold (hreceived _)
  intro _
  refine (emit_attributing (some .received)).mono (fun j hj => ⟨hj, ?_⟩) (fun _ _ h => h.1) fun _ _ h => h
  rintro status ⟨⟩ hdecided
  cases hdecided

theorem openRun_undecided {event : FailureEvent} (hp : f.persistence = true) (hstart : env.store.Attributed) :
    Triple (fun w => (w.machine.status.decided = false ∧ w.state.status.decided = false) ∧ w.journal = {})
      (f.openRun env event) (fun _ => BeforeDecision env) (fun _ => Traced env) := by
  have hd : Upkeep env (fun s => s.decided = false) (BeforeDecision env) (fun _ => BeforeDecision env) := undecided_upkeep
  refine Triple.cond (fun _ => ?_) fun hnot => absurd hp hnot
  apply onJournal_bind (Q := fun _ => BeforeDecision env)
  · refine (onJournal_lift (R := fun w => w.machine.status.decided = false ∧ w.state.status.decided = false)
      (startRun_attributing hstart) fun _ _ hw => hw).mono (fun _ hw => hw) ?_ fun _ _ hw => hw.2
    exact fun _ _ hw => ⟨hw.1.1, hw.1.2, hw.2⟩
  intro _
  refine Triple.mono (E := fun _ => BeforeDecision env) ?_ (fun _ hw => hw) (fun _ _ hw => hw) fun _ _ hw => hw.journal
  apply onJournal_bind hd.writeJson
  intro ref
  refine (onJournal_undecided (undecided_checkpoint ?_)).mono (fun _ hw => hw.2) (fun _ _ h => h) fun _ _ h => h
  exact fun _ h => nomatch h

end Start

namespace Foundation

variable [UnicodeData]

theorem runBody_traced {event : FailureEvent} (hp : f.persistence = true) (hstart : env.store.Attributed) :
    Triple (fun w => (w.machine.status.decided = false ∧ w.state.status.decided = false) ∧ w.journal = {})
      (f.runBody env event) (fun _ => Traced env) (fun _ => Traced env) := by
  have hd : Upkeep env (fun s => s.decided = false) (BeforeDecision env) (fun _ => BeforeDecision env) := undecided_upkeep
  have hundecided : ∀ (e : RunError) w, BeforeDecision env w → Traced env w := fun _ _ hw => hw.journal
  refine hd.runBody rfl ?_ hundecided (fun _ _ hr => hr.1.journal) ?_ ?_ ?_ (openRun_undecided hp hstart)
  · intro w w' hjournal hmachine hstate hw
    exact ⟨hmachine ▸ hw.machine, hstate ▸ hw.state, hjournal ▸ hw.journal⟩
  · intro n context steps
    refine (hd.toolSteps ?_ 0).mono (fun _ h => h) (fun _ _ h => h) hundecided
    exact journaled_keeps (onJournal_undecided (undecided_emit none nofun))
  · intro n plan proposal
    refine (hd.sandboxStage fun before => ?_).mono (fun _ h => h) (fun _ _ h => h) hundecided
    apply journaled_keeps (onJournal_undecided (undecided_emit (some .sandboxRunning) ?_))
    rintro status ⟨⟩
    rfl
  · intro n classification proposal sandbox evaluation _ _
    refine Triple.mono (P := BeforeDecision env) ?_ (fun _ hw => hw.2) (fun _ _ h => h) fun _ _ h => h
    apply hd.runPolicyGate rfl hundecided
    · exact fun _ _ _ _ _ _ => approveBranch_traced hp
    · exact fun _ _ => rejectBranch_traced hp
    · exact fun _ _ _ => (hd.escalateBranch rfl fun _ _ h => h).mono (fun _ h => h) (fun _ _ h => h.1.journal) hundecided

omit [UnicodeData] in
theorem runFailed_traced {e : RunError} :
    Triple (Traced env) (f.runFailed env e) (fun _ => Traced env) (fun _ => Traced env) := by
  apply Triple.read_keep
  intro w _
  apply Triple.bind (when_keeps traced_moveTo)
  intro _
  apply Triple.bind (Q := fun _ => Traced env)
  · exact Triple.update fun _ hw => hw
  intro _
  apply Triple.bind (Q := fun _ => Traced env)
  · refine Triple.handle (D := fun _ => Traced env) ?_ fun _ => Triple.ret fun _ hw => hw
    apply Triple.bind (Q := fun _ => Traced env)
    · apply journaled_keeps (onJournal_triple (undecided_emit (some .failed) ?_))
      rintro status ⟨⟩
      rfl
    intro _
    apply journaled_keeps (onJournal_triple (undecided_checkpoint ?_))
    rintro text ⟨⟩
    exact ⟨.failed, rfl, rfl⟩
  intro _
  exact result_status.mono (fun _ h => h) (fun _ _ h => h.1) fun _ _ h => h

/-- At every crash point of a run a stored decision is in the log. -/
theorem run_attributed (event : FailureEvent) (hp : f.persistence = true) (hstart : env.store.Attributed)
    (calls : List StoreStep) (hcrash : calls <+: (f.run env event).2.journal.trace) :
    (env.store.replay calls).Attributed := by
  have hrun : Triple (fun w => (w.machine.status.decided = false ∧ w.state.status.decided = false) ∧ w.journal = {})
      (handle (f.runBody env (receivedEvent env event))
        fun e => if e.isPersistence then persistenceFailed e else f.runFailed env e)
      (fun _ => Traced env) (fun _ => Traced env) := by
    apply Triple.handle (runBody_traced hp hstart)
    intro e
    apply Triple.cond
    · exact fun _ _ hw => hw
    · exact fun _ => runFailed_traced
  exact (hrun.after ⟨⟨rfl, rfl⟩, rfl⟩).stored calls hcrash

end Foundation

end FailureOrchestrator
